import Multimeter.Proofs.Scanner.Feed

/-!
# The accounts of a scanner

Every byte that a scanner was fed has been skipped, lies in a frame that was counted, or still waits
for the rest of a frame. Each step of `drain` keeps this balance, so each push does.

* `Drained.Balances`; **`balances_drain`**: nothing is lost between bytes and what is found in them.
* `Scanner.Accounts`: counters, buffer and offset of a scanner say what it was fed and has reported.
* **`Scanner.Accounts.push`**, **`Scanner.Accounts.feed`**: one push keeps the accounts, and so does
  every run.
* `Scanner.Accounts.counters_le`: counters stay below the number of bytes fed.
* **`Scanner.accounts_feed_fresh`**: the accounts of every reachable scanner.
-/

namespace Multimeter

/-! ## What is found in a list of bytes -/

/-- All bytes are skipped, in a counted frame or left over. -/
structure Drained.Balances (d : Drained) (v : Variant) (bytes : List UInt8) : Prop where
  length_eq : bytes.length =
    d.skipped + v.frameLength * (d.decoded + d.rejected) + d.rest.length
  rest_suffix : d.rest <:+ bytes
  decoded_eq : d.decoded = d.events.countP (·.isMeasurement)
  rejected_eq : d.rejected = d.events.countP (!·.isMeasurement)

namespace Drained.Balances

variable {d : Drained} {v : Variant} {bytes : List UInt8}

theorem withSkip (hbytes : 1 ≤ bytes.length) (h : d.Balances v (bytes.drop 1)) :
    d.withSkip.Balances v bytes where
  length_eq := by
    have hlength := h.length_eq
    rw [List.length_drop] at hlength
    simp only [Drained.withSkip]
    omega
  rest_suffix := h.rest_suffix.trans (List.drop_suffix 1 bytes)
  decoded_eq := h.decoded_eq
  rejected_eq := h.rejected_eq

theorem withFrame (hbytes : v.frameLength ≤ bytes.length)
    (h : d.Balances v (bytes.drop v.frameLength)) (e : ScanEvent) :
    (d.withFrame e).Balances v bytes := by
  have hlength := h.length_eq
  rw [List.length_drop] at hlength
  have hcounted : (d.withFrame e).decoded + (d.withFrame e).rejected =
      d.decoded + d.rejected + 1 := by
    simp only [Drained.withFrame]
    split <;> omega
  refine ⟨?_, h.rest_suffix.trans (List.drop_suffix _ bytes), ?_, ?_⟩
  · rw [hcounted, Nat.mul_succ]
    simp only [Drained.withFrame]
    omega
  · simp only [Drained.withFrame, List.countP_cons, h.decoded_eq]
    split <;> rfl
  · simp only [Drained.withFrame, List.countP_cons, h.rejected_eq]
    cases e.isMeasurement <;> rfl

end Drained.Balances

/-- **Draining loses no byte**: what is skipped, what is counted and what is left over make up the
bytes. -/
theorem balances_drain (v : Variant) (offset : Nat) (bytes : List UInt8) :
    (drain v offset bytes).Balances v bytes := by
  have hpos := v.frameLength_pos
  induction offset, bytes using drain_induction v with
  | short offset bytes hlen =>
    rw [drain_of_short hlen]
    exact ⟨by simp, List.suffix_rfl, rfl, rfl⟩
  | skip offset bytes hlen hf ih =>
    rw [drain_of_not_aligned hlen hf]
    exact ih.withSkip (by omega)
  | frame offset bytes hlen hf ih =>
    rw [drain_of_aligned hlen hf]
    exact ih.withFrame hlen _

/-! ## Accounts -/

namespace Scanner

/-- Counters, buffer and offset of a scanner that was fed `stream` and has reported `events`. -/
structure Accounts (s : Scanner) (v : Variant) (maskParity : Bool) (stream : List UInt8)
    (events : List ScanEvent) : Prop where
  variant_eq : s.variant = v
  maskParity_eq : s.maskParity = maskParity
  bytesTotal_eq : s.stats.bytesTotal = stream.length
  balance : s.stats.bytesTotal = s.stats.bytesSkipped +
    v.frameLength * (s.stats.framesDecoded + s.stats.framesRejected) + s.pending
  pending_lt : s.pending < v.frameLength
  /-- What waits is the end of the stream. -/
  buffer_eq : s.buffer = (masked maskParity stream).drop (stream.length - s.pending)
  bufferOffset_eq : s.bufferOffset = s.stats.bytesTotal - s.pending
  framesDecoded_eq : s.stats.framesDecoded = events.countP (·.isMeasurement)
  framesRejected_eq : s.stats.framesRejected = events.countP (!·.isMeasurement)

/-- The bytes in which a push looks for frames. -/
def searched (s : Scanner) (chunk : List UInt8) : List UInt8 :=
  s.buffer ++ masked s.maskParity chunk

theorem length_searched (s : Scanner) (chunk : List UInt8) :
    (s.searched chunk).length = s.pending + chunk.length := by
  rw [searched, List.length_append, length_masked, pending]

theorem push_eq (s : Scanner) (chunk : List UInt8) :
    let found := drain s.variant s.bufferOffset (s.searched chunk)
    s.push chunk =
      ({ s with
          buffer := found.rest
          bufferOffset := s.bufferOffset + ((s.searched chunk).length - found.rest.length)
          stats :=
            { bytesTotal := s.stats.bytesTotal + chunk.length
              bytesSkipped := s.stats.bytesSkipped + found.skipped
              framesDecoded := s.stats.framesDecoded + found.decoded
              framesRejected := s.stats.framesRejected + found.rejected } },
        found.events) := rfl

theorem accounts_fresh (v : Variant) (maskParity : Bool) :
    (fresh v maskParity).Accounts v maskParity [] [] where
  variant_eq := rfl
  maskParity_eq := rfl
  bytesTotal_eq := rfl
  balance := by simp [fresh, pending]
  pending_lt := v.frameLength_pos
  buffer_eq := rfl
  bufferOffset_eq := rfl
  framesDecoded_eq := rfl
  framesRejected_eq := rfl

namespace Accounts

variable {s : Scanner} {v : Variant} {maskParity : Bool} {stream : List UInt8}
  {events : List ScanEvent}

theorem pending_le (h : s.Accounts v maskParity stream events) : s.pending ≤ stream.length := by
  rw [← h.bytesTotal_eq, h.balance]
  exact Nat.le_add_left _ _

theorem buffer_suffix (h : s.Accounts v maskParity stream events) :
    s.buffer <:+ masked maskParity stream := by
  rw [h.buffer_eq]
  exact List.drop_suffix _ _

theorem searched_suffix (h : s.Accounts v maskParity stream events) (chunk : List UInt8) :
    s.searched chunk <:+ masked maskParity (stream ++ chunk) := by
  obtain ⟨before, hbefore⟩ := h.buffer_suffix
  refine ⟨before, ?_⟩
  rw [masked_append, ← hbefore, searched, h.maskParity_eq, List.append_assoc]

/-- **One push keeps the accounts.** -/
theorem push (h : s.Accounts v maskParity stream events) (chunk : List UInt8) :
    (s.push chunk).1.Accounts v maskParity (stream ++ chunk) (events ++ (s.push chunk).2) := by
  have hle := h.pending_le
  have hbalance := h.balance
  have hsettled := settled_push s chunk
  have hfound := balances_drain s.variant s.bufferOffset (s.searched chunk)
  rw [Settled, push_eq] at hsettled
  rw [push_eq]
  generalize drain s.variant s.bufferOffset (s.searched chunk) = found at hfound hsettled ⊢
  have hlength := hfound.length_eq
  rw [length_searched] at hlength ⊢
  rw [h.variant_eq] at hlength hsettled
  refine ⟨h.variant_eq, h.maskParity_eq, ?_, ?_, hsettled, ?_, ?_, ?_, ?_⟩
  · rw [List.length_append, h.bytesTotal_eq]
  · change s.stats.bytesTotal + chunk.length = s.stats.bytesSkipped + found.skipped +
      v.frameLength * (s.stats.framesDecoded + found.decoded +
        (s.stats.framesRejected + found.rejected)) + found.rest.length
    rw [Nat.add_add_add_comm s.stats.framesDecoded, Nat.mul_add]
    omega
  · have hrest := List.suffix_iff_eq_drop.mp (hfound.rest_suffix.trans (h.searched_suffix chunk))
    rwa [length_masked] at hrest
  · change s.bufferOffset + (s.pending + chunk.length - found.rest.length) =
      s.stats.bytesTotal + chunk.length - found.rest.length
    rw [h.bufferOffset_eq, h.bytesTotal_eq]
    omega
  · rw [List.countP_append, ← h.framesDecoded_eq, ← hfound.decoded_eq]
  · rw [List.countP_append, ← h.framesRejected_eq, ← hfound.rejected_eq]

/-- **Every run keeps the accounts.** -/
theorem feed (h : s.Accounts v maskParity stream events) (chunks : List (List UInt8)) :
    (s.feed chunks).1.Accounts v maskParity (stream ++ chunks.flatten)
      (events ++ (s.feed chunks).2) := by
  induction chunks generalizing s stream events with
  | nil => simpa [Scanner.feed] using h
  | cons chunk rest ih =>
    have hrest := ih (h.push chunk)
    rw [List.append_assoc, List.append_assoc] at hrest
    exact hrest

/-- No counter passes the number of bytes fed, and neither does the offset. -/
theorem counters_le (h : s.Accounts v maskParity stream events) :
    s.stats.bytesTotal ≤ stream.length ∧ s.stats.bytesSkipped ≤ stream.length ∧
      s.stats.framesDecoded ≤ stream.length ∧ s.stats.framesRejected ≤ stream.length ∧
      s.bufferOffset ≤ stream.length := by
  have hbalance := h.balance
  have hframes : s.stats.framesDecoded + s.stats.framesRejected ≤
      v.frameLength * (s.stats.framesDecoded + s.stats.framesRejected) :=
    Nat.le_mul_of_pos_left _ v.frameLength_pos
  rw [h.bufferOffset_eq, ← h.bytesTotal_eq]
  omega

end Accounts

/-- **The accounts of every reachable scanner**: whatever chunks a scanner was fed, its counters, its
buffer and its offset say what the chunks were and what was reported. By `Accounts.counters_le` all
of them fit in 64 bits when the chunks hold less than `2 ^ 64` bytes. -/
theorem accounts_feed_fresh (v : Variant) (maskParity : Bool) (chunks : List (List UInt8)) :
    ((fresh v maskParity).feed chunks).1.Accounts v maskParity chunks.flatten
      ((fresh v maskParity).feed chunks).2 := by
  have hrun := (accounts_fresh v maskParity).feed chunks
  rwa [List.nil_append, List.nil_append] at hrun

end Scanner

end Multimeter
