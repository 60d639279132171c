import Mathlib.Data.List.Range
import Multimeter.Proofs.Framing

/-!
# What is reported of bytes that are no frame

The framing of a format is a list of rules. Bytes that break some of them are rejected for the first
one, and where a rule is about many bytes, at the first of these.

* `Bm25x.Misframed`: the first broken rule of a segment frame; **`Bm25x.checkFraming_eq_error_iff`**.
* `Es519xx.Misframed`: the first broken rule of a digit frame;
  **`Es519xx.checkFraming_eq_error_iff`**.
* **`Variant.framing_grammar`**: the frames of each format, and what is reported of other bytes.
-/

namespace Multimeter

/-! ## Segment frames -/

namespace Bm25x

variable {frame : List UInt8}

/-- The high nibble of byte `i` is `i`. -/
def Counts (frame : List UInt8) (i : Nat) : Prop := ∃ b, frame[i]? = some b ∧ b.toNat / 16 = i

/-- The error is that of the first rule that the bytes break. -/
inductive Misframed (frame : List UInt8) : Error → Prop where
  | length (hlen : frame.length ≠ 15) : Misframed frame (.invalidLength 15 frame.length)
  | sync {b : UInt8} (hlen : frame.length = 15) (hb : frame[0]? = some b) (hsync : b ≠ 0x02) :
      Misframed frame (.invalidSync b)
  | counter {i : Nat} {b : UInt8} (hlen : frame.length = 15) (hsync : frame[0]? = some 0x02)
      (hi : 1 ≤ i) (hb : frame[i]? = some b) (hcount : b.toNat / 16 ≠ i)
      (hfirst : ∀ j, 1 ≤ j → j < i → Counts frame j) : Misframed frame (.counterMismatch i b)

theorem getElem?_eq_byte {i : Nat} (hi : i < frame.length) :
    frame[i]? = some (Packet.byte ⟨frame⟩ i) := by
  simp [Packet.byte, hi]

theorem counts_iff {i : Nat} (hi : i < frame.length) :
    Counts frame i ↔ (Packet.byte ⟨frame⟩ i).toNat / 16 = i := by
  simp [Counts, getElem?_eq_byte hi]

theorem checkFraming_eq_ok_iff : Packet.checkFraming ⟨frame⟩ = .ok () ↔
    frame.length = 15 ∧ frame[0]? = some 0x02 ∧ ∀ i, 1 ≤ i → i < 15 → Counts frame i := by
  rw [Packet.checkFraming_eq_ok_iff]
  apply and_congr_right
  intro hlen
  change frame.length = 15 at hlen
  rw [getElem?_eq_byte (show 0 < frame.length by omega), Option.some.injEq]
  apply and_congr_right
  intro _
  apply forall_congr'
  intro i
  apply forall_congr'
  intro _
  constructor
  · intro h hi
    exact (counts_iff (by omega)).mpr (h hi)
  · intro h hi
    change i < 15 at hi
    exact (counts_iff (by omega)).mp (h hi)

theorem find?_miscount_iff (hlen : frame.length = 15) {i : Nat} :
    ((List.range' 1 (Packet.size - 1)).find? fun i =>
      (Packet.byte ⟨frame⟩ i).toNat / 16 ≠ i) = some i ↔
      (1 ≤ i ∧ i < 15) ∧ (Packet.byte ⟨frame⟩ i).toNat / 16 ≠ i ∧
        ∀ j, 1 ≤ j → j < i → Counts frame j := by
  rw [List.find?_range'_eq_some, List.mem_range'_1]
  constructor
  · rintro ⟨hcount, hi, hfirst⟩
    change 1 ≤ i ∧ i < 15 at hi
    refine ⟨hi, by simpa using hcount, ?_⟩
    intro j hj hji
    exact (counts_iff (by omega)).mpr (by simpa using hfirst j hj hji)
  · rintro ⟨hi, hcount, hfirst⟩
    refine ⟨by simpa using hcount, hi, ?_⟩
    intro j hj hji
    simpa using (counts_iff (by omega)).mp (hfirst j hj hji)

theorem misframed_of_checkFraming {e : Error} (h : Packet.checkFraming ⟨frame⟩ = .error e) :
    Misframed frame e := by
  unfold Packet.checkFraming at h
  by_cases hlen : frame.length = 15
  · have hbyte {i : Nat} (hi : i < 15) : frame[i]? = some (Packet.byte ⟨frame⟩ i) :=
      getElem?_eq_byte (by omega)
    rw [if_neg (show ¬ frame.length ≠ Packet.size from not_not.mpr hlen)] at h
    split at h
    · rename_i hsync
      obtain rfl := Except.error.inj h
      exact .sync hlen (hbyte (by omega)) hsync
    · rename_i hsync
      have hzero : frame[0]? = some 0x02 := by
        rw [hbyte (by omega), not_not.mp hsync]
        rfl
      split at h
      · rename_i i hfind
        obtain rfl := Except.error.inj h
        obtain ⟨⟨h1, h15⟩, hcount, hfirst⟩ := (find?_miscount_iff hlen).mp hfind
        exact .counter hlen hzero h1 (hbyte h15) hcount hfirst
      · exact nomatch h
  · rw [if_pos (show frame.length ≠ Packet.size from hlen)] at h
    obtain rfl := Except.error.inj h
    exact .length hlen

theorem checkFraming_of_misframed {e : Error} (h : Misframed frame e) :
    Packet.checkFraming ⟨frame⟩ = .error e := by
  unfold Packet.checkFraming
  cases h with
  | length hlen => exact if_pos hlen
  | sync hlen hb hsync =>
    rw [getElem?_eq_byte (by omega)] at hb
    obtain rfl := Option.some.inj hb
    rw [if_neg (show ¬ frame.length ≠ Packet.size from not_not.mpr hlen)]
    exact if_pos hsync
  | counter hlen hzero h1 hb hcount hfirst =>
    have h15 := (List.getElem?_eq_some_iff.mp hb).1
    rw [getElem?_eq_byte (by omega)] at hb hzero
    obtain rfl := Option.some.inj hb
    have hsync : Packet.byte ⟨frame⟩ 0 = Packet.syncByte := Option.some.inj hzero
    rw [if_neg (show ¬ frame.length ≠ Packet.size from not_not.mpr hlen),
      if_neg (not_not.mpr hsync),
      (find?_miscount_iff hlen).mpr ⟨⟨h1, by omega⟩, hcount, hfirst⟩]

/-- **Other bytes are rejected for the first rule that they break.** -/
theorem checkFraming_eq_error_iff {e : Error} :
    Packet.checkFraming ⟨frame⟩ = .error e ↔ Misframed frame e :=
  ⟨misframed_of_checkFraming, checkFraming_of_misframed⟩

end Bm25x

/-! ## Digit frames -/

namespace Es519xx

/-- The first offset at which the second half of the bytes differs from the first. -/
structure IsFirstDifference (size : Nat) (frame : List UInt8) (i : Nat) : Prop where
  lt : i < size
  differs : frame[i]? ≠ frame[size + i]?
  first : ∀ j < i, frame[j]? = frame[size + j]?

/-- The bytes have the length of a frame and, where packets are repeated, equal halves. -/
def Copied (size : Nat) (repeated : Bool) (frame : List UInt8) : Prop :=
  frame.length = (if repeated then 2 * size else size) ∧
    (repeated = true → ∀ i < size, frame[i]? = frame[size + i]?)

/-- The error is that of the first rule that the bytes break. -/
inductive Misframed (size : Nat) (repeated : Bool) (frame : List UInt8) : Error → Prop where
  | length (hlen : frame.length ≠ if repeated then 2 * size else size) :
      Misframed size repeated frame
        (.invalidLength (if repeated then 2 * size else size) frame.length)
  | copies {i : Nat} (hrepeated : repeated = true) (hlen : frame.length = 2 * size)
      (hdiff : IsFirstDifference size frame i) :
      Misframed size repeated frame (.duplicateMismatch i)
  | carriageReturn {b : UInt8} (hcopied : Copied size repeated frame)
      (hb : frame[size - 2]? = some b) (hne : b ≠ Packet.carriageReturn) :
      Misframed size repeated frame (.missingTerminator (size - 2) b)
  | lineFeed {b : UInt8} (hcopied : Copied size repeated frame)
      (hcr : frame[size - 2]? = some Packet.carriageReturn) (hb : frame[size - 1]? = some b)
      (hne : b ≠ Packet.lineFeed) : Misframed size repeated frame (.missingTerminator (size - 1) b)

namespace Packet

variable {p : Packet} {e : Error}

theorem checkLength_eq_error_iff {n : Nat} :
    p.checkLength n = .error e ↔ p.bytes.length ≠ n ∧ e = .invalidLength n p.bytes.length := by
  unfold checkLength
  split_ifs with h <;> simp [h, eq_comm]

theorem checkRepeated_eq_error_iff : p.checkRepeated = .error e ↔
    p.checkLength (2 * p.size) = .error e ∨ p.bytes.length = 2 * p.size ∧
      ∃ i, IsFirstDifference p.size p.bytes i ∧ e = .duplicateMismatch i := by
  have hfind (i : Nat) : ((List.range p.size).find? fun i => p.bytes[i]? ≠ p.bytes[p.size + i]?) =
      some i ↔ IsFirstDifference p.size p.bytes i := by
    rw [List.find?_range_eq_some, List.mem_range]
    constructor
    · rintro ⟨hdiff, hi, hfirst⟩
      exact ⟨hi, by simpa using hdiff, by simpa using hfirst⟩
    · intro h
      exact ⟨by simpa using h.differs, h.lt, by simpa using h.first⟩
  unfold checkRepeated
  rw [bind_eq_error_iff, ← checkLength_eq_ok_iff]
  apply or_congr_right
  constructor
  · rintro ⟨_, hlen, h⟩
    refine ⟨hlen, ?_⟩
    split at h
    · rename_i i hi
      obtain rfl := Except.error.inj h
      exact ⟨i, (hfind i).mp hi, rfl⟩
    · exact nomatch h
  · rintro ⟨hlen, i, hi, rfl⟩
    refine ⟨(), hlen, ?_⟩
    rw [(hfind i).mpr hi]
    rfl

theorem checkByte_eq_error_iff {i : Nat} {expected : UInt8} (hi : i < p.bytes.length) :
    p.checkByte i expected = .error e ↔
      ∃ b, p.bytes[i]? = some b ∧ b ≠ expected ∧ e = .missingTerminator i b := by
  have hread : p.read i = .ok p.bytes[i] := by
    rw [read_eq_ok_iff, List.getElem?_eq_getElem hi]
  unfold checkByte
  rw [bind_of_eq_ok hread, List.getElem?_eq_getElem hi]
  simp only [Option.some.injEq, exists_eq_left']
  split_ifs with h
  · simp [h, pure, Except.pure]
  · simp [h, throw, throwThe, MonadExceptOf.throw, eq_comm]

theorem checkTerminator_eq_error_iff (h1 : p.size - 1 < p.bytes.length) :
    p.checkTerminator = .error e ↔
      (∃ b, p.bytes[p.size - 2]? = some b ∧ b ≠ carriageReturn ∧
        e = .missingTerminator (p.size - 2) b) ∨
      p.bytes[p.size - 2]? = some carriageReturn ∧
        ∃ b, p.bytes[p.size - 1]? = some b ∧ b ≠ lineFeed ∧
          e = .missingTerminator (p.size - 1) b := by
  unfold checkTerminator
  rw [bind_eq_error_iff, checkByte_eq_error_iff (by omega), ← checkByte_eq_ok_iff,
    ← checkByte_eq_error_iff h1]
  apply or_congr_right
  constructor
  · rintro ⟨_, hcr, h⟩
    exact ⟨hcr, h⟩
  · rintro ⟨hcr, h⟩
    exact ⟨(), hcr, h⟩

theorem checkCopies_eq_ok_iff {repeated : Bool} :
    (if repeated then p.checkRepeated else p.checkLength p.size) = .ok () ↔
      Copied p.size repeated p.bytes := by
  cases repeated with
  | false => simp [Copied, checkLength_eq_ok_iff]
  | true => simp [Copied, checkRepeated_eq_ok_iff]

theorem checkCopies_eq_error_iff {repeated : Bool} :
    (if repeated then p.checkRepeated else p.checkLength p.size) = .error e ↔
      p.checkLength (if repeated then 2 * p.size else p.size) = .error e ∨
      repeated = true ∧ p.bytes.length = 2 * p.size ∧
        ∃ i, IsFirstDifference p.size p.bytes i ∧ e = .duplicateMismatch i := by
  cases repeated with
  | false => simp
  | true => simp [checkRepeated_eq_error_iff]

end Packet

/-- **Bytes are rejected for the first rule that they break.** -/
theorem checkFraming_eq_error_iff {frame : List UInt8} {size : Nat} (hsize : 0 < size)
    {repeated : Bool} {e : Error} :
    Packet.checkFraming ⟨frame, size⟩ repeated = .error e ↔ Misframed size repeated frame e := by
  -- behind the checks of the length the terminator can be read, so it fails only by its bytes
  have hlast (h : Copied size repeated frame) : size - 1 < frame.length := by
    rw [h.1]
    split_ifs <;> omega
  have hseq : Packet.checkFraming ⟨frame, size⟩ repeated = .error e ↔
      (if repeated then Packet.checkRepeated ⟨frame, size⟩
        else Packet.checkLength ⟨frame, size⟩ size) = .error e ∨
      Copied size repeated frame ∧ Packet.checkTerminator ⟨frame, size⟩ = .error e := by
    rw [← Packet.checkCopies_eq_ok_iff (p := ⟨frame, size⟩)]
    unfold Packet.checkFraming
    cases repeated
    all_goals
      simp only [Bool.false_eq_true, if_true, if_false, bind_eq_error_iff]
      apply or_congr_right
      exact ⟨fun ⟨_, h1, h2⟩ => ⟨h1, h2⟩, fun ⟨h1, h2⟩ => ⟨(), h1, h2⟩⟩
  rw [hseq, Packet.checkCopies_eq_error_iff, Packet.checkLength_eq_error_iff]
  constructor
  · rintro ((⟨hlen, rfl⟩ | ⟨hrepeated, hlen, i, hdiff, rfl⟩) | ⟨hcopied, h⟩)
    · exact .length hlen
    · exact .copies hrepeated hlen hdiff
    · rw [Packet.checkTerminator_eq_error_iff (hlast hcopied)] at h
      rcases h with ⟨b, hb, hne, rfl⟩ | ⟨hcr, b, hb, hne, rfl⟩
      · exact .carriageReturn hcopied hb hne
      · exact .lineFeed hcopied hcr hb hne
  · intro h
    cases h with
    | length hlen => exact .inl (.inl ⟨hlen, rfl⟩)
    | copies hrepeated hlen hdiff => exact .inl (.inr ⟨hrepeated, hlen, _, hdiff, rfl⟩)
    | carriageReturn hcopied hb hne =>
      rw [Packet.checkTerminator_eq_error_iff (hlast hcopied)]
      exact .inr ⟨hcopied, .inl ⟨_, hb, hne, rfl⟩⟩
    | lineFeed hcopied hcr hb hne =>
      rw [Packet.checkTerminator_eq_error_iff (hlast hcopied)]
      exact .inr ⟨hcopied, .inr ⟨hcr, _, hb, hne, rfl⟩⟩

end Es519xx

/-! ## All formats -/

namespace Variant

variable {v : Variant}

theorem layout_of_isRepeated (hv : v.profile.isRepeated = true) :
    v.profile.family = .es519xx ∧ v.profile.packetSize = 11 ∧ v.frameLength = 22 := by
  cases v <;> first | exact ⟨rfl, rfl, rfl⟩ | exact absurd hv (by decide)

theorem layout_of_packetSize (hv : v.profile.packetSize = 14) :
    v.profile.family = .es519xx ∧ v.profile.isRepeated = false ∧ v.frameLength = 14 := by
  cases v <;> first | exact ⟨rfl, rfl, rfl⟩ | exact absurd hv (by decide)

/-- **The frames of each format**: with 11-byte packets a terminated packet twice, with 14-byte
packets one terminated packet, of segments the sync byte and bytes that count their positions. Other
bytes are rejected for the first rule that they break: the length first, then the copies at their
first difference, then carriage return and line feed; or the sync byte, then the first byte that does
not count its position. -/
theorem framing_grammar (frame : List UInt8) :
    (∀ v : Variant, v.profile.isRepeated = true ∨ v.profile.packetSize = 14 ∨ v = bm25x) ∧
    (∀ v : Variant, v.profile.isRepeated = true →
      (v.checkFraming frame = .ok () ↔
        ∃ packet, packet.length = 11 ∧ Es519xx.terminator <:+ packet ∧ frame = packet ++ packet) ∧
      ∀ e, v.checkFraming frame = .error e ↔
        ∃ e', Es519xx.Misframed 11 true frame e' ∧ e = .es519xx e') ∧
    (∀ v : Variant, v.profile.packetSize = 14 →
      (v.checkFraming frame = .ok () ↔ frame.length = 14 ∧ Es519xx.terminator <:+ frame) ∧
      ∀ e, v.checkFraming frame = .error e ↔
        ∃ e', Es519xx.Misframed 14 false frame e' ∧ e = .es519xx e') ∧
    (bm25x.checkFraming frame = .ok () ↔
      frame.length = 15 ∧ frame[0]? = some 0x02 ∧
        ∀ i, 1 ≤ i → i < 15 → Bm25x.Counts frame i) ∧
    ∀ e, bm25x.checkFraming frame = .error e ↔
      ∃ e', Bm25x.Misframed frame e' ∧ e = .bm25x e' := by
  refine ⟨fun v => by cases v <;> decide, ?_, ?_, ?_, ?_⟩
  · intro v hv
    obtain ⟨hfamily, hsize, hlength⟩ := layout_of_isRepeated hv
    refine ⟨isFrame_repeated_iff hlength frame, ?_⟩
    intro e
    rw [checkFraming_of_es519xx frame hfamily, mapError_eq_error_iff, Es519xx.checkFraming, hsize, hv]
    simp only [Es519xx.checkFraming_eq_error_iff (show 0 < 11 by decide)]
  · intro v hv
    obtain ⟨hfamily, hrepeated, hlength⟩ := layout_of_packetSize hv
    refine ⟨isFrame_single_iff hlength frame, ?_⟩
    intro e
    rw [checkFraming_of_es519xx frame hfamily, mapError_eq_error_iff, Es519xx.checkFraming, hv,
      hrepeated]
    simp only [Es519xx.checkFraming_eq_error_iff (show 0 < 14 by decide)]
  · rw [checkFraming_of_bm25x frame rfl, mapError_eq_ok_iff, Bm25x.checkFraming_eq_ok_iff]
  · intro e
    rw [checkFraming_of_bm25x frame rfl, mapError_eq_error_iff]
    simp only [Bm25x.checkFraming_eq_error_iff]

/-- Copies that differ twice, without a terminator, and a single packet without carriage return and
line feed: each is rejected for its first fault. -/
theorem framing_grammar_two_faults :
    let copies : List UInt8 := [48, 49, 50, 51, 52, 53, 54, 55, 48, 48, 48,
      48, 49, 50, 57, 52, 57, 54, 55, 48, 48, 48]
    let packet : List UInt8 := List.replicate 14 48
    slow11.profile.isRepeated = true ∧
    slow11.checkFraming copies = .error (.es519xx (.duplicateMismatch 3)) ∧
    fast14.profile.packetSize = 14 ∧
    fast14.checkFraming packet = .error (.es519xx (.missingTerminator 12 48)) := by
  intro copies packet
  have hcopies : Es519xx.Misframed 11 true copies (.duplicateMismatch 3) :=
    .copies rfl rfl ⟨by decide, by decide, by decide⟩
  have hpacket : Es519xx.Misframed 14 false packet (.missingTerminator 12 48) :=
    .carriageReturn ⟨rfl, nofun⟩ rfl (by decide)
  obtain ⟨_, hrepeated, _⟩ := framing_grammar copies
  obtain ⟨_, _, hsingle, _⟩ := framing_grammar packet
  exact ⟨rfl, ((hrepeated slow11 rfl).2 _).mpr ⟨_, hcopies, rfl⟩,
    rfl, ((hsingle fast14 rfl).2 _).mpr ⟨_, hpacket, rfl⟩⟩

end Variant

end Multimeter
