import Multimeter.Frame
import Multimeter.Proofs.Checks

/-!
# Aligned frames

Which bytes are aligned as a frame of a format, said without the order in which they are checked.

* `Variant.IsFrame`: the bytes pass the framing checks.
* `Bm25x.Packet.checkFraming_eq_ok_iff`, `Es519xx.Packet.checkFraming_eq_ok_iff`: the checks of the
  two families.
* **`Variant.isFrame_bm25x_iff`**, **`Variant.isFrame_repeated_iff`**,
  **`Variant.isFrame_single_iff`**: the grammar of a frame.
* `Es519xx.IsPacket`: packets with no terminator byte in front of their end.
-/

namespace Multimeter

/-! ## Segment packets -/

namespace Bm25x.Packet

theorem checkFraming_eq_ok_iff (p : Packet) :
    p.checkFraming = .ok () ↔ p.bytes.length = size ∧ p.byte 0 = syncByte ∧
      ∀ i, 1 ≤ i → i < size → (p.byte i).toNat / 16 = i := by
  have hmem : ∀ i, i ∈ List.range' 1 (size - 1) ↔ 1 ≤ i ∧ i < size := fun i => by
    rw [List.mem_range'_1]; unfold size; omega
  unfold checkFraming
  split_ifs with hlen hsync
  · simp [hlen]
  · simp [hsync]
  · rw [not_not] at hlen hsync
    cases hfind : (List.range' 1 (size - 1)).find? fun i => (p.byte i).toNat / 16 ≠ i with
    | none =>
      rw [List.find?_eq_none] at hfind
      refine ⟨fun _ => ⟨hlen, hsync, fun i h1 h2 => ?_⟩, fun _ => rfl⟩
      simpa using hfind i ((hmem i).mpr ⟨h1, h2⟩)
    | some i =>
      have hi := List.find?_some hfind
      have hr := (hmem i).mp (List.mem_of_find?_eq_some hfind)
      refine ⟨fun h => (nomatch h), fun h => ?_⟩
      simp [h.2.2 i hr.1 hr.2] at hi

end Bm25x.Packet

/-! ## Digit packets -/

namespace Es519xx

def terminator : List UInt8 := [Packet.carriageReturn, Packet.lineFeed]

theorem terminator_suffix_iff {packet : List UInt8} {n : Nat} (hlen : packet.length = n + 2) :
    terminator <:+ packet ↔
      packet[n]? = some Packet.carriageReturn ∧ packet[n + 1]? = some Packet.lineFeed := by
  constructor
  · rintro ⟨body, rfl⟩
    have hbody : body.length = n := by simpa [terminator] using hlen
    simp [terminator, ← hbody]
  · rintro ⟨hcr, hlf⟩
    refine ⟨packet.take n, List.ext_getElem? fun i => ?_⟩
    have htake : (packet.take n).length = n := by rw [List.length_take]; omega
    by_cases hi : i < n
    · rw [List.getElem?_append_left (by omega), List.getElem?_take_of_lt hi]
    rw [List.getElem?_append_right (by omega), htake]
    obtain rfl | rfl | hi : i = n ∨ i = n + 1 ∨ n + 2 ≤ i := by omega
    · rw [hcr, Nat.sub_self]; rfl
    · rw [hlf, Nat.add_sub_cancel_left]; rfl
    · have hterm : terminator.length = 2 := rfl
      rw [List.getElem?_eq_none (by omega), List.getElem?_eq_none (by omega)]

/-- A packet as a meter sends it: no byte of the terminator occurs in front of it. -/
def IsPacket (size : Nat) (packet : List UInt8) : Prop :=
  ∃ body : List UInt8, packet = body ++ terminator ∧ body.length + 2 = size ∧
    ∀ b ∈ body, b ≠ Packet.carriageReturn ∧ b ≠ Packet.lineFeed

namespace IsPacket

variable {size : Nat} {packet : List UInt8}

theorem length_eq (h : IsPacket size packet) : packet.length = size := by
  obtain ⟨body, rfl, hlen, _⟩ := h
  rw [List.length_append, ← hlen]
  rfl

theorem terminated (h : IsPacket size packet) : terminator <:+ packet := by
  obtain ⟨body, rfl, _⟩ := h
  exact List.suffix_append body terminator

theorem getElem?_ne_lineFeed (h : IsPacket size packet) {i : Nat} (hi : i + 1 < size) :
    packet[i]? ≠ some Packet.lineFeed := by
  obtain ⟨body, rfl, hlen, hplain⟩ := h
  by_cases hbody : i < body.length
  · rw [List.getElem?_append_left hbody]
    exact fun hlf => (hplain _ (List.mem_of_getElem? hlf)).2 rfl
  · obtain rfl : i = body.length := by omega
    rw [List.getElem?_append_right (Nat.le_refl _), Nat.sub_self]
    decide

end IsPacket

namespace Packet

variable (p : Packet)

theorem checkLength_eq_ok_iff (n : Nat) : p.checkLength n = .ok () ↔ p.bytes.length = n := by
  unfold checkLength
  split_ifs with h <;> simp [h]

theorem read_eq_ok_iff (i : Nat) (b : UInt8) : p.read i = .ok b ↔ p.bytes[i]? = some b := by
  unfold read
  cases p.bytes[i]? <;> simp

theorem checkByte_eq_ok_iff (i : Nat) (b : UInt8) :
    p.checkByte i b = .ok () ↔ p.bytes[i]? = some b := by
  unfold checkByte
  rw [bind_eq_ok_iff, ← read_eq_ok_iff]
  constructor
  · rintro ⟨a, ha, h⟩
    split_ifs at h with hab
    rwa [← hab]
  · intro h
    exact ⟨b, h, by rw [if_pos rfl]; rfl⟩

theorem checkTerminator_eq_ok_iff : p.checkTerminator = .ok () ↔
    p.bytes[p.size - 2]? = some carriageReturn ∧ p.bytes[p.size - 1]? = some lineFeed := by
  unfold checkTerminator
  rw [bind_eq_ok_iff, ← checkByte_eq_ok_iff, ← checkByte_eq_ok_iff]
  exact ⟨fun ⟨_, h1, h2⟩ => ⟨h1, h2⟩, fun ⟨h1, h2⟩ => ⟨(), h1, h2⟩⟩

theorem checkRepeated_eq_ok_iff : p.checkRepeated = .ok () ↔
    p.bytes.length = 2 * p.size ∧ ∀ i < p.size, p.bytes[i]? = p.bytes[p.size + i]? := by
  unfold checkRepeated
  rw [bind_eq_ok_iff, ← checkLength_eq_ok_iff]
  cases hfind : (List.range p.size).find? fun i => p.bytes[i]? ≠ p.bytes[p.size + i]? with
  | none =>
    rw [List.find?_eq_none] at hfind
    refine ⟨fun ⟨_, h, _⟩ => ⟨h, fun i hi => ?_⟩, fun ⟨h, _⟩ => ⟨(), h, rfl⟩⟩
    simpa using hfind i (List.mem_range.mpr hi)
  | some i =>
    have hne := List.find?_some hfind
    have hi := List.mem_range.mp (List.mem_of_find?_eq_some hfind)
    refine ⟨fun ⟨_, _, h⟩ => (nomatch h), fun ⟨_, h⟩ => ?_⟩
    simp [h i hi] at hne

theorem checkFraming_eq_ok_iff (repeated : Bool) : p.checkFraming repeated = .ok () ↔
    (if repeated then p.checkRepeated else p.checkLength p.size) = .ok () ∧
      p.checkTerminator = .ok () := by
  unfold checkFraming
  cases repeated
  all_goals
    simp only [Bool.false_eq_true, if_true, if_false, bind_eq_ok_iff]
    exact ⟨fun ⟨_, h1, h2⟩ => ⟨h1, h2⟩, fun ⟨h1, h2⟩ => ⟨(), h1, h2⟩⟩

end Packet

theorem checkFraming_single_iff (frame : List UInt8) (n : Nat) :
    Packet.checkFraming ⟨frame, n + 2⟩ false = .ok () ↔
      frame.length = n + 2 ∧ terminator <:+ frame := by
  rw [Packet.checkFraming_eq_ok_iff, if_neg Bool.false_ne_true, Packet.checkLength_eq_ok_iff,
    Packet.checkTerminator_eq_ok_iff]
  exact and_congr_right fun hlen => (terminator_suffix_iff hlen).symm

theorem checkFraming_repeated_iff (frame : List UInt8) (n : Nat) :
    Packet.checkFraming ⟨frame, n + 2⟩ true = .ok () ↔
      ∃ packet, packet.length = n + 2 ∧ terminator <:+ packet ∧ frame = packet ++ packet := by
  rw [Packet.checkFraming_eq_ok_iff, if_pos rfl, Packet.checkRepeated_eq_ok_iff,
    Packet.checkTerminator_eq_ok_iff]
  constructor
  · rintro ⟨⟨hlen, hcopy⟩, hterm⟩
    dsimp only at hlen hcopy hterm
    have htake : (frame.take (n + 2)).length = n + 2 := by rw [List.length_take]; omega
    refine ⟨frame.take (n + 2), htake, ?_, ?_⟩
    · rw [terminator_suffix_iff htake, List.getElem?_take_of_lt (by omega),
        List.getElem?_take_of_lt (by omega)]
      exact hterm
    · have hdrop : frame.drop (n + 2) = frame.take (n + 2) := by
        refine List.ext_getElem? fun i => ?_
        rw [List.getElem?_drop]
        by_cases hi : i < n + 2
        · rw [List.getElem?_take_of_lt hi, hcopy i hi]
        · rw [List.getElem?_eq_none (by omega), List.getElem?_eq_none (by omega)]
      conv_lhs => rw [← List.take_append_drop (n + 2) frame, hdrop]
  · rintro ⟨packet, hlen, hterm, rfl⟩
    rw [terminator_suffix_iff hlen] at hterm
    dsimp only
    refine ⟨⟨by rw [List.length_append]; omega, fun i hi => ?_⟩, ?_⟩
    · rw [List.getElem?_append_left (by omega), ← hlen, List.getElem?_append_right (by omega),
        Nat.add_sub_cancel_left]
    · rw [List.getElem?_append_left (by omega), List.getElem?_append_left (by omega)]
      exact hterm

end Es519xx

/-! ## Frames of a format -/

namespace Variant

/-! The family of the format says how a frame is examined. -/

section

variable {v : Variant} (frame : List UInt8)

theorem checkFraming_of_bm25x (hv : v.profile.family = .bm25x) :
    v.checkFraming frame = (Bm25x.Packet.checkFraming ⟨frame⟩).mapError .bm25x := by
  simp only [checkFraming, hv]

theorem validate_of_bm25x (hv : v.profile.family = .bm25x) :
    v.validate frame = (Bm25x.Packet.checkFraming ⟨frame⟩).mapError .bm25x := by
  simp only [validate, hv]

theorem decode_of_bm25x (hv : v.profile.family = .bm25x) :
    v.decode frame = (Bm25x.Packet.decode ⟨frame⟩).mapError .bm25x := by
  simp only [decode, hv]

theorem checkFraming_of_es519xx (hv : v.profile.family = .es519xx) :
    v.checkFraming frame = (Es519xx.checkFraming v.profile frame).mapError .es519xx := by
  simp only [checkFraming, hv]

theorem validate_of_es519xx (hv : v.profile.family = .es519xx) :
    v.validate frame =
      ((Es519xx.decodeAnnunciators v.profile frame).map fun _ => ()).mapError .es519xx := by
  simp only [validate, hv]

theorem decode_of_es519xx (hv : v.profile.family = .es519xx) :
    v.decode frame = (Es519xx.decode v.profile frame).mapError .es519xx := by
  simp only [decode, hv]

end

/-- The bytes are aligned as a frame of the format. -/
def IsFrame (v : Variant) (bytes : List UInt8) : Prop := v.checkFraming bytes = .ok ()

theorem isOk_checkFraming (v : Variant) (bytes : List UInt8) :
    (v.checkFraming bytes).isOk = true ↔ v.IsFrame bytes := by
  unfold IsFrame
  cases v.checkFraming bytes <;> simp [Except.isOk, Except.toBool]

instance (v : Variant) : DecidablePred v.IsFrame := fun bytes =>
  decidable_of_iff _ (v.isOk_checkFraming bytes)

/-- **A segment frame** has its sync byte in front, and every later byte counts its position. -/
theorem isFrame_bm25x_iff (frame : List UInt8) : bm25x.IsFrame frame ↔
    frame.length = Bm25x.Packet.size ∧ Bm25x.Packet.byte ⟨frame⟩ 0 = Bm25x.Packet.syncByte ∧
      ∀ i, 1 ≤ i → i < Bm25x.Packet.size → (Bm25x.Packet.byte ⟨frame⟩ i).toNat / 16 = i := by
  rw [← Bm25x.Packet.checkFraming_eq_ok_iff ⟨frame⟩]
  exact mapError_eq_ok_iff

/-- **A frame of 11-byte packets** is a terminated packet, twice. -/
theorem isFrame_repeated_iff {v : Variant} (hv : v.frameLength = 22) (frame : List UInt8) :
    v.IsFrame frame ↔ ∃ packet, packet.length = 11 ∧ Es519xx.terminator <:+ packet ∧
      frame = packet ++ packet := by
  rw [← Es519xx.checkFraming_repeated_iff frame 9]
  cases v with
  | bm25x | fast14 | fast14SelectableFilter => exact absurd hv (by decide)
  | slow11 | slow11Alternate | fast11FiveDigits | fast11Clamp | fast11 =>
    exact mapError_eq_ok_iff

section

variable {v : Variant} (hv : v.frameLength = 22)

include hv

theorem isFrame_append_self {packet : List UInt8} (h : Es519xx.IsPacket 11 packet) :
    v.IsFrame (packet ++ packet) :=
  (isFrame_repeated_iff hv _).mpr ⟨packet, h.length_eq, h.terminated, rfl⟩

theorem eq_of_isFrame_append {first second : List UInt8} (hfirst : first.length = 11)
    (h : v.IsFrame (first ++ second)) : first = second := by
  obtain ⟨packet, hlen, _, heq⟩ := (isFrame_repeated_iff hv _).mp h
  obtain ⟨rfl, rfl⟩ := List.append_inj heq (hfirst.trans hlen.symm)
  rfl

theorem lineFeed_of_isFrame {frame : List UInt8} (h : v.IsFrame frame) :
    frame.length = 22 ∧ frame[10]? = some Es519xx.Packet.lineFeed ∧
      frame[21]? = some Es519xx.Packet.lineFeed := by
  obtain ⟨packet, hlen, hterm, rfl⟩ := (isFrame_repeated_iff hv _).mp h
  have hlf := ((Es519xx.terminator_suffix_iff hlen).mp hterm).2
  refine ⟨by rw [List.length_append, hlen], ?_, ?_⟩
  · rw [List.getElem?_append_left (by omega)]
    exact hlf
  · rw [List.getElem?_append_right (by omega), hlen]
    exact hlf

end

/-- **A frame of 14-byte packets** is one terminated packet. -/
theorem isFrame_single_iff {v : Variant} (hv : v.frameLength = 14) (frame : List UInt8) :
    v.IsFrame frame ↔ frame.length = 14 ∧ Es519xx.terminator <:+ frame := by
  rw [← Es519xx.checkFraming_single_iff frame 12]
  cases v with
  | bm25x | slow11 | slow11Alternate | fast11FiveDigits | fast11Clamp | fast11 =>
    exact absurd hv (by decide)
  | fast14 | fast14SelectableFilter => exact mapError_eq_ok_iff

end Variant

end Multimeter
