import Multimeter.Proofs.Scanner.Drain

/-!
# Feeding a scanner

A scanner that has seen some chunks is in the state of a scanner that has seen their concatenation
at once, and both have reported the same events.

* `Scanner.feed`: the chunks of a stream, one by one.
* `Scanner.Settled`: no complete frame waits in the buffer.
* **`Scanner.push_append`**, **`Scanner.feed_eq_push`**: how a stream is cut does not matter.
* `Scanner.events_feed_fresh`, `pending_feed_fresh`, `stats_feed_fresh`: a fresh scanner drains the
  stream from its beginning.
-/

namespace Multimeter.Scanner

/-- A scanner at the beginning of a stream. -/
def fresh (v : Variant) (maskParity : Bool) : Scanner where
  variant := v
  maskParity := maskParity

/-- The stream as a scanner sees it. -/
def masked (maskParity : Bool) (stream : List UInt8) : List UInt8 := stream.map (mask maskParity)

/-- Feeds chunks one by one; returns the scanner behind them and the events of all pushes. -/
def feed (s : Scanner) : List (List UInt8) → Scanner × List ScanEvent
  | [] => (s, [])
  | chunk :: rest =>
    let later := (s.push chunk).1.feed rest
    (later.1, (s.push chunk).2 ++ later.2)

/-- Fewer bytes wait than a frame has. -/
def Settled (s : Scanner) : Prop := s.pending < s.variant.frameLength

@[simp] theorem masked_false (stream : List UInt8) : masked false stream = stream :=
  List.map_id stream

@[simp] theorem length_masked (maskParity : Bool) (stream : List UInt8) :
    (masked maskParity stream).length = stream.length := by
  simp [masked]

theorem masked_append (maskParity : Bool) (a b : List UInt8) :
    masked maskParity (a ++ b) = masked maskParity a ++ masked maskParity b := by
  simp [masked]

theorem settled_fresh (v : Variant) (maskParity : Bool) : (fresh v maskParity).Settled :=
  v.frameLength_pos

theorem settled_push (s : Scanner) (chunk : List UInt8) : (s.push chunk).1.Settled :=
  length_rest_drain_lt s.variant s.bufferOffset _

theorem push_nil {s : Scanner} (h : s.Settled) : s.push [] = (s, []) := by
  obtain ⟨v, maskParity, buffer, bufferOffset, stats⟩ := s
  have hshort : buffer.length < v.frameLength := h
  simp [push, drain_of_short hshort]

/-- **One push of two chunks is two pushes.** -/
theorem push_append (s : Scanner) (a b : List UInt8) :
    s.push (a ++ b) =
      (((s.push a).1.push b).1, (s.push a).2 ++ ((s.push a).1.push b).2) := by
  have hfirst := length_rest_drain_le s.variant s.bufferOffset (s.buffer ++ masked s.maskParity a)
  generalize hd : drain s.variant s.bufferOffset (s.buffer ++ masked s.maskParity a) = d at hfirst
  have happ := drain_append s.variant s.bufferOffset (s.buffer ++ masked s.maskParity a)
    (masked s.maskParity b)
  rw [hd, List.append_assoc, ← masked_append] at happ
  have hsecond := length_rest_drain_le s.variant
    (s.bufferOffset + ((s.buffer ++ masked s.maskParity a).length - d.rest.length))
    (d.rest ++ masked s.maskParity b)
  have hmask : ∀ c : List UInt8, c.map (mask s.maskParity) = masked s.maskParity c := fun _ => rfl
  simp only [push, hmask, hd, happ, Drained.append]
  refine Prod.ext ?_ rfl
  simp only [mk.injEq, ScanStats.mk.injEq, true_and, List.length_append, length_masked]
    at hfirst hsecond ⊢
  omega

/-- **How a stream is cut into chunks does not matter.** -/
theorem feed_eq_push {s : Scanner} (h : s.Settled) (chunks : List (List UInt8)) :
    s.feed chunks = s.push chunks.flatten := by
  induction chunks generalizing s with
  | nil => rw [feed, List.flatten_nil, push_nil h]
  | cons chunk rest ih => rw [feed, ih (settled_push s chunk), List.flatten_cons, push_append]

theorem feed_fresh (v : Variant) (maskParity : Bool) (chunks : List (List UInt8)) :
    (fresh v maskParity).feed chunks = (fresh v maskParity).push chunks.flatten :=
  feed_eq_push (settled_fresh v maskParity) chunks

/-! ## A fresh scanner drains the stream from its beginning -/

theorem events_feed_fresh (v : Variant) (maskParity : Bool) (chunks : List (List UInt8)) :
    ((fresh v maskParity).feed chunks).2 = (drain v 0 (masked maskParity chunks.flatten)).events := by
  rw [feed_fresh]
  rfl

theorem pending_feed_fresh (v : Variant) (maskParity : Bool) (chunks : List (List UInt8)) :
    ((fresh v maskParity).feed chunks).1.pending =
      (drain v 0 (masked maskParity chunks.flatten)).rest.length := by
  rw [feed_fresh]
  rfl

theorem stats_feed_fresh (v : Variant) (maskParity : Bool) (chunks : List (List UInt8)) :
    ((fresh v maskParity).feed chunks).1.stats =
      ⟨chunks.flatten.length, (drain v 0 (masked maskParity chunks.flatten)).skipped,
        (drain v 0 (masked maskParity chunks.flatten)).decoded,
        (drain v 0 (masked maskParity chunks.flatten)).rejected⟩ := by
  rw [feed_fresh]
  simp only [push, fresh, Nat.zero_add]
  rfl

end Multimeter.Scanner
