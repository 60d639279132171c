import Mathlib.Data.List.Find
import Mathlib.Tactic.IntervalCases
import Multimeter.Proofs.Reading

/-!
# What the reading of a segment packet depends on

Lamps and segments of a segment packet are single bits. Packets that agree on the bits a function
reads have the same result; the bits that nothing reads are free.

* `Packet.Agree`: two packets light the same lamps of a list.
* `Lamp.checked`, `Lamp.shown`, `Lamp.read`: what the checks, the display and a reading look at.
* `Packet.magnitude`: the value without its sign.
* `Packet.checkLamps_congr`, `Packet.glyph?_congr`, **`Packet.reading_congr`**: one lemma for each
  function that reads lamps; of a reading, only the value has the sign.
* `Packet.checkFraming_congr`: framing reads high nibbles, but quotes a byte.
* **`Packet.decode_congr`**: packets that agree are decoded alike.
-/

namespace Multimeter.Bm25x

namespace Lamp

/-- The bits of one digit place: three in the low nibble of one byte, four in that of the next. -/
def segments (i : Nat) : List Lamp :=
  [1, 2, 3].map (⟨3 + 2 * i, ·⟩) ++ [0, 1, 2, 3].map (⟨4 + 2 * i, ·⟩)

/-- The lamps that can contradict each other. -/
def checked : List Lamp := modes ++ unitScales.map Prod.fst ++ [ac, dc]

/-- The display without its sign. -/
def shown : List Lamp := (List.range Packet.digitCount).flatMap segments ++ [1, 2, 3].map point

/-- All lamps but the sign. -/
def read : List Lamp := checked ++ shown ++ [autorange, relative, hold, max, min]

end Lamp

namespace Packet

/-- The packets light the same lamps of the list. -/
def Agree (lamps : List Lamp) (p q : Packet) : Prop := ∀ lamp ∈ lamps, q.isLit lamp = p.isLit lamp

/-- The value in the base unit, without its sign. -/
def magnitude (p : Packet) : Binary64 := p.shown.1.scale10 p.exponent

variable {p q : Packet} {lamps lamps' : List Lamp} {i : Nat}

theorem Agree.mono (h : p.Agree lamps q) (hsub : lamps' ⊆ lamps) : p.Agree lamps' q :=
  fun lamp hlamp => h lamp (hsub hlamp)

/-! ## Checks -/

theorem litScales_congr (h : p.Agree Lamp.checked q) : q.litScales = p.litScales :=
  List.filter_congr fun s hs => h s.1
    (by simp only [Lamp.checked, List.mem_append, List.mem_map_of_mem hs, or_true, true_or])

/-- **The checks read** modes, scales and the coupling. -/
theorem checkLamps_congr (h : p.Agree Lamp.checked q) : q.checkLamps = p.checkLamps := by
  have hmodes : q.modeCount = p.modeCount := List.countP_congr fun lamp hlamp => by
    rw [h lamp (by simp [Lamp.checked, hlamp])]
  have hac : q.isLit .ac = p.isLit .ac := h _ (by decide)
  have hdc : q.isLit .dc = p.isLit .dc := h _ (by decide)
  rw [checkLamps, checkLamps, hmodes, litScales_congr h, hac, hdc]

/-! ## Digit places -/

/-- A bit of a segment pattern is a bit of the packet; the last one is never set. -/
theorem getLsbD_segmentCode (p : Packet) (i : Nat) {bit : Nat} (h : bit < 8) :
    (p.segmentCode i).toBitVec.getLsbD bit =
      if bit < 4 then bit ≠ 0 && p.isLit ⟨3 + 2 * i, bit⟩ else p.isLit ⟨4 + 2 * i, bit - 4⟩ := by
  interval_cases bit <;> simp [segmentCode, isLit]

theorem segmentCode_congr (h : p.Agree (Lamp.segments i) q) :
    q.segmentCode i = p.segmentCode i := by
  refine UInt8.eq_of_toBitVec_eq (BitVec.eq_of_getLsbD_eq fun bit hbit => ?_)
  rw [getLsbD_segmentCode q i hbit, getLsbD_segmentCode p i hbit]
  split_ifs with hlow
  · by_cases hzero : bit = 0
    · simp [hzero]
    · rw [h ⟨3 + 2 * i, bit⟩ (by simp [Lamp.segments]; omega)]
  · rw [h ⟨4 + 2 * i, bit - 4⟩ (by simp [Lamp.segments]; omega)]

theorem glyph?_congr (h : p.Agree (Lamp.segments i) q) : q.glyph? i = p.glyph? i := by
  rw [glyph?, glyph?, segmentCode_congr h]

theorem Agree.glyph?_eq (h : p.Agree Lamp.shown q) (hi : i < digitCount) :
    q.glyph? i = p.glyph? i := by
  refine glyph?_congr (h.mono fun lamp hlamp => List.mem_append_left _ ?_)
  exact List.mem_flatMap.mpr ⟨i, List.mem_range.mpr hi, hlamp⟩

theorem temperatureUnit?_congr (h : p.Agree Lamp.shown q) :
    q.temperatureUnit? = p.temperatureUnit? := by
  rw [temperatureUnit?, temperatureUnit?, h.glyph?_eq (by decide)]

theorem numberPlaces_le (p : Packet) : p.numberPlaces ≤ digitCount := by
  unfold numberPlaces
  split_ifs <;> decide

theorem shownDigits?_congr (h : p.Agree Lamp.shown q) : q.shownDigits? = p.shownDigits? := by
  have hplaces : q.numberPlaces = p.numberPlaces := by
    rw [numberPlaces, numberPlaces, temperatureUnit?_congr h]
  rw [shownDigits?, shownDigits?, hplaces]
  refine mapM_congr fun i hi => ?_
  rw [h.glyph?_eq ((List.mem_range.mp hi).trans_le p.numberPlaces_le)]

/-- **The display reads** the segments of four places and three points. -/
theorem shown_congr (h : p.Agree Lamp.shown q) : q.shown = p.shown := by
  have hpoints : q.litPoints = p.litPoints := List.filter_congr fun i hi =>
    h (.point i) (List.mem_append_right _ (List.mem_map_of_mem hi))
  have hpoint : q.point = p.point := by rw [point, point, hpoints]
  have hopen : q.isOpen = p.isOpen := by
    rw [isOpen, isOpen, h.glyph?_eq (by decide), h.glyph?_eq (by decide)]
  rw [shown, shown, shownDigits?_congr h, hpoint, hopen]

/-! ## Readings -/

theorem Agree.checked (h : p.Agree Lamp.read q) : p.Agree Lamp.checked q :=
  h.mono fun _ hlamp => List.mem_append_left _ (List.mem_append_left _ hlamp)

theorem Agree.shown (h : p.Agree Lamp.read q) : p.Agree Lamp.shown q :=
  h.mono fun _ hlamp => List.mem_append_left _ (List.mem_append_right _ hlamp)

theorem exponent_congr (h : p.Agree Lamp.read q) : q.exponent = p.exponent := by
  rw [exponent, exponent, unitExponent, unitExponent, shown_congr h.shown,
    litScales_congr h.checked]

theorem magnitude_congr (h : p.Agree Lamp.read q) : q.magnitude = p.magnitude := by
  rw [magnitude, magnitude, shown_congr h.shown, exponent_congr h]

theorem classify_congr (h : p.Agree Lamp.read q) : q.classify = p.classify := by
  simp only [classify, temperatureUnit?_congr h.shown, h .voltage (by decide), h .ac (by decide),
    h .dc (by decide), h .current (by decide), h .resistance (by decide),
    h .capacitance (by decide), h .frequency (by decide)]

theorem qualifiers_congr (h : p.Agree Lamp.read q) : q.qualifiers = p.qualifiers := by
  simp only [qualifiers, litQualifiers, classify_congr h, h .autorange (by decide),
    h .dc (by decide), h .ac (by decide), h .relative (by decide), h .hold (by decide),
    h .max (by decide), h .min (by decide)]

/-- **Of a reading, only the value has the sign.** -/
theorem reading_congr (h : p.Agree Lamp.read q) :
    q.reading = { p.reading with value := p.magnitude.negIf q.isNegative } := by
  have hvalue : q.value = q.magnitude.negIf q.isNegative := rfl
  simp only [reading, classify_congr h, qualifiers_congr h, hvalue, magnitude_congr h,
    exponent_congr h]

/-! ## Framing -/

theorem byte_congr (h : ∀ bit, q.isLit ⟨i, bit⟩ = p.isLit ⟨i, bit⟩) : q.byte i = p.byte i :=
  UInt8.eq_of_toBitVec_eq (BitVec.eq_of_getLsbD_eq fun bit _ => h bit)

theorem counter_congr (h : ∀ bit, 4 ≤ bit → q.isLit ⟨i, bit⟩ = p.isLit ⟨i, bit⟩) :
    (q.byte i).toNat / 16 = (p.byte i).toNat / 16 := by
  have hshift : (q.byte i).toBitVec >>> 4 = (p.byte i).toBitVec >>> 4 :=
    BitVec.eq_of_getLsbD_eq fun bit _ => by
      rw [BitVec.getLsbD_ushiftRight, BitVec.getLsbD_ushiftRight]
      exact h (4 + bit) (Nat.le_add_right 4 bit)
  have hvalue := congrArg BitVec.toNat hshift
  rwa [BitVec.toNat_ushiftRight, BitVec.toNat_ushiftRight, Nat.shiftRight_eq_div_pow,
    Nat.shiftRight_eq_div_pow] at hvalue

/-- An error with the packet's own byte in it: a counter mismatch quotes the whole byte. -/
def requote (p : Packet) : Error → Error
  | .counterMismatch i _ => .counterMismatch i (p.byte i)
  | e => e

/-- **Framing reads** the length, the sync byte and the high nibbles of the others, and quotes a
byte. -/
theorem checkFraming_congr (hlength : q.bytes.length = p.bytes.length)
    (hsync : q.byte 0 = p.byte 0)
    (hcounter : ∀ i, (q.byte i).toNat / 16 = (p.byte i).toNat / 16) :
    q.checkFraming = p.checkFraming.mapError q.requote := by
  unfold checkFraming
  rw [hlength, hsync]
  simp only [hcounter]
  split_ifs
  · rfl
  · rfl
  · cases (List.range' 1 (size - 1)).find? fun i => (p.byte i).toNat / 16 ≠ i <;> rfl

/-! ## Decoding -/

theorem decode_of_framed (h : p.checkFraming = .ok ()) :
    p.decode = p.checkLamps.map fun _ => p.reading := by
  rw [decode, bind_of_eq_ok h]
  cases p.checkLamps <;> rfl

theorem requote_of_checkLamps {e : Error} (he : p.checkLamps = .error e) : q.requote e = e := by
  unfold checkLamps at he
  split_ifs at he <;> cases he <;> rfl

/-- **Packets that agree on all lamps are decoded alike**, but for the byte that an error quotes. -/
theorem decode_congr (hframing : q.checkFraming = p.checkFraming.mapError q.requote)
    (h : p.Agree (.sign :: Lamp.read) q) : q.decode = p.decode.mapError q.requote := by
  have hread : p.Agree Lamp.read q := h.mono (List.subset_cons_self _ _)
  have hsign : q.isNegative = p.isNegative := h .sign List.mem_cons_self
  have hreading : q.reading = p.reading := by
    rw [reading_congr hread, hsign]
    rfl
  cases hp : p.checkFraming with
  | error e =>
    rw [hp] at hframing
    rw [decode, decode, bind_eq_error hp, bind_eq_error hframing]
    rfl
  | ok _ =>
    rw [hp] at hframing
    rw [decode_of_framed hframing, decode_of_framed hp, checkLamps_congr hread.checked, hreading]
    cases hlamps : p.checkLamps with
    | error e => exact congrArg Except.error (requote_of_checkLamps hlamps).symm
    | ok _ => rfl

end Packet

end Multimeter.Bm25x
