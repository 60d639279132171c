import Multimeter.Proofs.Scanner.Feed

/-!
# One pass over a whole stream

The reference for a scanner knows neither chunks nor a buffer: it walks over the positions of a
whole stream. At an aligned window it reports a frame and goes on behind it; from any other window
it goes on by one byte; it stops where a frame no longer fits.

* `Variant.window`: the bytes of a frame at a position.
* `sweep`: the pass; `Sweep.stats`, `Sweep.pending`: what it counts.
* `drain_eq_sweep`: draining the stream from a position is the pass from that position.
* `stop_sweep`: where a pass ends.
* **`Scanner.feed_eq_sweep`**: a scanner fed with chunks reports what the pass over their
  concatenation finds.
-/

namespace Multimeter

/-- The bytes of a frame at a position of a stream. -/
def Variant.window (v : Variant) (stream : List UInt8) (p : Nat) : List UInt8 :=
  (stream.drop p).take v.frameLength

theorem Variant.getElem?_window (v : Variant) (stream : List UInt8) (p : Nat) {i : Nat}
    (hi : i < v.frameLength) : (v.window stream p)[i]? = stream[p + i]? := by
  rw [Variant.window, List.getElem?_take_of_lt hi, List.getElem?_drop]

structure Sweep where
  events : List ScanEvent
  /-- How often the pass went on by one byte. -/
  skipped : Nat
  /-- The position at which a frame no longer fits. -/
  stop : Nat
deriving DecidableEq, Repr

/-- The pass over a stream from position `p` on. -/
def sweep (v : Variant) (stream : List UInt8) (p : Nat) : Sweep :=
  if p + v.frameLength ≤ stream.length then
    if v.IsFrame (v.window stream p) then
      let later := sweep v stream (p + v.frameLength)
      { later with events := .ofOutcome p (v.decode (v.window stream p)) :: later.events }
    else
      let later := sweep v stream (p + 1)
      { later with skipped := later.skipped + 1 }
  else ⟨[], 0, p⟩
termination_by stream.length - p
decreasing_by
  all_goals
    have := v.frameLength_pos
    omega

namespace Sweep

/-- The counters of a finished pass. -/
def stats (s : Sweep) (stream : List UInt8) : ScanStats where
  bytesTotal := stream.length
  bytesSkipped := s.skipped
  framesDecoded := s.events.countP (·.isMeasurement)
  framesRejected := s.events.countP (!·.isMeasurement)

/-- The number of bytes behind the pass. -/
def pending (s : Sweep) (stream : List UInt8) : Nat := stream.length - s.stop

/-- A finished pass, as `drain` reports it. -/
def toDrained (s : Sweep) (stream : List UInt8) : Drained where
  events := s.events
  skipped := s.skipped
  decoded := s.events.countP (·.isMeasurement)
  rejected := s.events.countP (!·.isMeasurement)
  rest := stream.drop s.stop

theorem toDrained_withFrame (s : Sweep) (stream : List UInt8) (e : ScanEvent) :
    (s.toDrained stream).withFrame e = { s with events := e :: s.events }.toDrained stream := by
  cases h : e.isMeasurement <;> simp [toDrained, Drained.withFrame, h]

end Sweep

theorem drain_eq_sweep (v : Variant) (stream : List UInt8) (p : Nat) :
    drain v p (stream.drop p) = (sweep v stream p).toDrained stream := by
  fun_induction sweep v stream p with
  | case1 p hfits hframe later ih =>
    rw [drain_of_aligned (by rw [List.length_drop]; omega) hframe, List.drop_drop, ih]
    exact later.toDrained_withFrame stream _
  | case2 p hfits hframe later ih =>
    rw [drain_of_not_aligned (by rw [List.length_drop]; have := v.frameLength_pos; omega) hframe,
      List.drop_drop, ih]
    rfl
  | case3 p hfits =>
    rw [drain_of_short (by rw [List.length_drop]; have := v.frameLength_pos; omega)]
    rfl

theorem drain_zero_eq_sweep (v : Variant) (stream : List UInt8) :
    drain v 0 stream = (sweep v stream 0).toDrained stream :=
  drain_eq_sweep v stream 0

/-- **Every byte in front of the end of a pass is skipped or lies in a frame.** -/
theorem stop_sweep (v : Variant) (stream : List UInt8) (p : Nat) :
    (sweep v stream p).stop =
      p + (sweep v stream p).skipped + v.frameLength * (sweep v stream p).events.length := by
  fun_induction sweep v stream p with
  | case1 p hfits hframe later ih =>
    have hlater : later.stop =
        p + v.frameLength + later.skipped + v.frameLength * later.events.length := ih
    show later.stop = p + later.skipped + v.frameLength * (later.events.length + 1)
    rw [hlater, Nat.mul_succ]
    omega
  | case2 p hfits hframe later ih =>
    have hlater : later.stop = p + 1 + later.skipped + v.frameLength * later.events.length := ih
    show later.stop = p + (later.skipped + 1) + v.frameLength * later.events.length
    omega
  | case3 p hfits => rfl

theorem stop_sweep_le {v : Variant} {stream : List UInt8} {p : Nat} (hp : p ≤ stream.length) :
    (sweep v stream p).stop ≤ stream.length := by
  fun_induction sweep v stream p with
  | case1 p hfits hframe later ih => exact ih hfits
  | case2 p hfits hframe later ih =>
    have hpos := v.frameLength_pos
    exact ih (by omega)
  | case3 p hfits => exact hp

theorem length_events_sweep_le (v : Variant) (stream : List UInt8) :
    (sweep v stream 0).events.length ≤ stream.length := by
  have hstop := stop_sweep v stream 0
  have hle := stop_sweep_le (v := v) (Nat.zero_le stream.length)
  have hframes := Nat.le_mul_of_pos_left (sweep v stream 0).events.length v.frameLength_pos
  omega

namespace Scanner

theorem events_feed_eq_sweep (v : Variant) (maskParity : Bool) (chunks : List (List UInt8)) :
    ((fresh v maskParity).feed chunks).2 =
      (sweep v (masked maskParity chunks.flatten) 0).events := by
  rw [events_feed_fresh, drain_zero_eq_sweep]
  rfl

theorem stats_feed_eq_sweep (v : Variant) (maskParity : Bool) (chunks : List (List UInt8)) :
    ((fresh v maskParity).feed chunks).1.stats =
      (sweep v (masked maskParity chunks.flatten) 0).stats (masked maskParity chunks.flatten) := by
  rw [stats_feed_fresh, drain_zero_eq_sweep, Sweep.stats, length_masked]
  rfl

theorem pending_feed_eq_sweep (v : Variant) (maskParity : Bool) (chunks : List (List UInt8)) :
    ((fresh v maskParity).feed chunks).1.pending =
      (sweep v (masked maskParity chunks.flatten) 0).pending (masked maskParity chunks.flatten) := by
  rw [pending_feed_fresh, drain_zero_eq_sweep, Sweep.toDrained, List.length_drop, Sweep.pending]

theorem events_feed_prefix (v : Variant) (maskParity : Bool) {earlier chunks : List (List UInt8)}
    (h : earlier.flatten <+: chunks.flatten) :
    ((fresh v maskParity).feed earlier).2 <+: ((fresh v maskParity).feed chunks).2 := by
  obtain ⟨rest, hrest⟩ := h
  rw [feed_fresh, feed_fresh, ← hrest, push_append]
  exact List.prefix_append _ _

/-- **A scanner reports what one pass over the whole stream finds**, however the stream is cut into
chunks; and it reports the beginning of a stream before the rest of it is known. -/
theorem feed_eq_sweep (v : Variant) (maskParity : Bool) (chunks : List (List UInt8)) :
    let stream := masked maskParity chunks.flatten
    let pass := sweep v stream 0
    let run := (fresh v maskParity).feed chunks
    (run.2 = pass.events ∧ run.1.stats = pass.stats stream ∧
      run.1.pending = pass.pending stream) ∧
    (∀ other : List (List UInt8), other.flatten = chunks.flatten →
      (fresh v maskParity).feed other = run) ∧
    (∀ earlier : List (List UInt8), earlier.flatten <+: chunks.flatten →
      ((fresh v maskParity).feed earlier).2 <+: run.2) := by
  refine ⟨⟨events_feed_eq_sweep v maskParity chunks, stats_feed_eq_sweep v maskParity chunks,
    pending_feed_eq_sweep v maskParity chunks⟩, fun other h => ?_,
    fun earlier h => events_feed_prefix v maskParity h⟩
  rw [feed_fresh, feed_fresh, h]

/-- A stray byte and two segment frames, the first of them cut in two. -/
theorem feed_eq_sweep_cut_frame :
    let frame : List UInt8 := [0x02, 0x1c, 0x20, 0x30, 0x4a, 0x5a, 0x6d, 0x79, 0x8f, 0x94, 0xae,
      0xb0, 0xc0, 0xd0, 0xe4]
    let chunks := [0xff :: frame ++ frame]
    let other := [[0xff], frame.take 6, [], frame.drop 6 ++ frame]
    let earlier := [0xff :: frame, [0x02]]
    (other.flatten = chunks.flatten ∧ earlier.flatten <+: chunks.flatten) ∧
      (fresh .bm25x false).feed other = (fresh .bm25x false).feed chunks ∧
      ((fresh .bm25x false).feed earlier).2 <+: ((fresh .bm25x false).feed chunks).2 ∧
      ((fresh .bm25x false).feed other).2.map ScanEvent.offset = [1, 16] := by
  intro frame chunks other earlier
  have h := feed_eq_sweep .bm25x false chunks
  have hother : other.flatten = chunks.flatten := by decide
  have hearlier : earlier.flatten <+: chunks.flatten := by decide
  exact ⟨⟨hother, hearlier⟩, h.2.1 other hother, h.2.2 earlier hearlier, by decide +kernel⟩

end Scanner

end Multimeter
