import Multimeter.Proofs.Bm25x.Lamps
import Multimeter.Proofs.Sign

/-!
# What a framed segment packet is read as

A framed packet is refused for a contradiction of its lamps and for nothing else. The display never
refuses it: it shows a number, an open circuit, or nothing that can be read, and the sign stands in
front of whatever it shows.

* `Glyph.digitPatterns`: the ten patterns that are digits; **`Packet.glyph?_eq_digit_iff`**.
* `Packet.ShowsDigits`, `Packet.ShowsDecimals`: the number on the display and its decimal point.
* `Packet.ScalesBy`: the exponent of the lit unit.
* `Packet.Displays`: the magnitudes that a display can have; **`Packet.displays_magnitude`**.
* `Packet.withSignFlipped`: the packet with the other sign; **`Packet.decode_withSignFlipped`**.
* **`Packet.decode_framed`**: the reading of a framed packet.
-/

namespace Multimeter.Bm25x

/-! ## Digits -/

namespace Glyph

/-- The patterns of the digits, each with its digit. -/
def digitPatterns : List (UInt8 × UInt8) :=
  [(0xbe, 0), (0xa0, 1), (0xda, 2), (0xf8, 3), (0xe4, 4), (0x7c, 5), (0x7e, 6), (0xa8, 7),
    (0xfe, 8), (0xfc, 9)]

theorem digit?_eq_some_iff {g : Glyph} {d : UInt8} : g.digit? = some d ↔ g = .digit d := by
  cases g <;> simp [digit?]

theorem ofCode?_eq_digit_iff {code d : UInt8} :
    ofCode? code = some (.digit d) ↔ (code, d) ∈ digitPatterns := by
  constructor
  · intro h
    have hall : ∀ entry ∈ patterns, ∀ d ∈ entry.2.digit?, (entry.1, d) ∈ digitPatterns := by
      decide +kernel
    obtain ⟨before, after, hsplit, _⟩ := List.lookup_eq_some_iff.mp h
    refine hall (code, .digit d) ?_ d rfl
    rw [hsplit]
    exact List.mem_append_right _ List.mem_cons_self
  · intro h
    simp only [digitPatterns, List.mem_cons, Prod.mk.injEq, List.not_mem_nil, or_false] at h
    rcases h with ⟨rfl, rfl⟩ | ⟨rfl, rfl⟩ | ⟨rfl, rfl⟩ | ⟨rfl, rfl⟩ | ⟨rfl, rfl⟩ | ⟨rfl, rfl⟩ |
      ⟨rfl, rfl⟩ | ⟨rfl, rfl⟩ | ⟨rfl, rfl⟩ | ⟨rfl, rfl⟩ <;> rfl

end Glyph

namespace Packet

variable {p : Packet}

/-- **Only the ten patterns show a digit.** -/
theorem glyph?_eq_digit_iff {i : Nat} {d : UInt8} :
    p.glyph? i = some (.digit d) ↔ (p.segmentCode i, d) ∈ Glyph.digitPatterns :=
  Glyph.ofCode?_eq_digit_iff

/-- The digits on the display, leading digit first: one in every place, but for the last one when it
shows the unit of a temperature. -/
structure ShowsDigits (p : Packet) (digits : List UInt8) : Prop where
  length_eq : digits.length = if p.glyph? 3 = some .c ∨ p.glyph? 3 = some .f then 3 else 4
  pattern_mem : ∀ i d, digits[i]? = some d → (p.segmentCode i, d) ∈ Glyph.digitPatterns

theorem numberPlaces_eq (p : Packet) :
    p.numberPlaces = if p.glyph? 3 = some .c ∨ p.glyph? 3 = some .f then 3 else 4 := by
  unfold numberPlaces temperatureUnit?
  split <;> simp_all [digitCount]

theorem shownDigits?_eq_some_iff {digits : List UInt8} :
    p.shownDigits? = some digits ↔ p.ShowsDigits digits := by
  have hdigit (i : Nat) (d : UInt8) :
      (p.glyph? i >>= Glyph.digit?) = some d ↔ (p.segmentCode i, d) ∈ Glyph.digitPatterns := by
    rw [← glyph?_eq_digit_iff]
    simp [Option.bind_eq_some_iff, Glyph.digit?_eq_some_iff]
  rw [shownDigits?, range_mapM_eq_some_iff, numberPlaces_eq]
  simp only [hdigit]
  constructor
  · rintro ⟨hlength, hpattern⟩
    exact ⟨hlength, hpattern⟩
  · rintro ⟨hlength, hpattern⟩
    exact ⟨hlength, hpattern⟩

/-! ## Decimal point and unit -/

/-- The decimal point with this number is lit, and it is the only one. -/
def OnlyPoint (p : Packet) (i : Nat) : Prop :=
  i ∈ [1, 2, 3] ∧ ∀ j ∈ [1, 2, 3], p.isLit (.point j) = decide (j = i)

theorem point_eq_lit_iff {i : Nat} : p.point = .lit i ↔ p.OnlyPoint i := by
  unfold point litPoints OnlyPoint
  cases h1 : p.isLit (.point 1) <;> cases h2 : p.isLit (.point 2) <;>
    cases h3 : p.isLit (.point 3) <;> simp [h1, h2, h3] <;> omega

/-- The decimals of a number of `count` digits: the point with number `i` stands in front of the
last `i` of four places. Without a point, or with several, there are none. -/
structure ShowsDecimals (p : Packet) (count decimals : Nat) : Prop where
  of_point : ∀ i, p.OnlyPoint i → (decimals : ℤ) = i + count - 4
  of_none : (∀ i, ¬ p.OnlyPoint i) → decimals = 0

theorem exists_showsDecimals {count : Nat} (h : count = 3 ∨ count = 4) : ∃ decimals ≤ 3,
    p.ShowsDecimals count decimals ∧ pointExponent p.point count = -(decimals : ℤ) := by
  by_cases hpoint : ∃ i, p.OnlyPoint i
  · obtain ⟨i, hi⟩ := hpoint
    have hrange : 1 ≤ i ∧ i ≤ 3 := by
      have hmem := hi.1
      simp at hmem
      omega
    have honly {j : Nat} (hj : p.OnlyPoint j) : j = i :=
      DecimalPoint.lit.inj ((point_eq_lit_iff.mpr hj).symm.trans (point_eq_lit_iff.mpr hi))
    refine ⟨i + count - 4, by omega, ⟨fun j hj => ?_, fun hnone => absurd hi (hnone i)⟩, ?_⟩
    · rw [honly hj]
      omega
    · rw [point_eq_lit_iff.mpr hi, pointExponent]
      simp only [digitCount]
      split_ifs <;> omega
  · rw [not_exists] at hpoint
    refine ⟨0, by omega, ⟨fun i hi => absurd hi (hpoint i), fun _ => rfl⟩, ?_⟩
    cases hlit : p.point with
    | lit i => exact absurd (point_eq_lit_iff.mp hlit) (hpoint i)
    | _ => rfl

/-- The decimal exponent of the unit: that of the lit scale, and zero without one. -/
structure ScalesBy (p : Packet) (exponent : ℤ) : Prop where
  of_lit : ∀ s ∈ Lamp.unitScales, p.isLit s.1 = true → exponent = s.2
  of_dark : (∀ s ∈ Lamp.unitScales, p.isLit s.1 = false) → exponent = 0

theorem scalesBy_unitExponent (h : p.litScales.length ≤ 1) : p.ScalesBy p.unitExponent := by
  constructor
  · intro s hs hlit
    have hmem : s ∈ p.litScales := List.mem_filter.mpr ⟨hs, hlit⟩
    obtain ⟨only, honly⟩ :=
      List.length_eq_one_iff.mp (Nat.le_antisymm h (List.length_pos_of_mem hmem))
    rw [honly, List.mem_singleton] at hmem
    simp [unitExponent, honly, hmem]
  · intro hdark
    have hnone : p.litScales = [] := List.filter_eq_nil_iff.mpr fun s hs => by simp [hdark s hs]
    simp [unitExponent, hnone]

/-! ## The magnitude on the display -/

/-- The magnitudes that a display has: a number with its decimals and its unit, rounded once; an
open circuit; or nothing that can be read. -/
inductive Displays (p : Packet) : Binary64 → Prop
  | number {digits : List UInt8} {decimals : Nat} {m : Binary64} (shows : p.ShowsDigits digits)
      (point : p.ShowsDecimals digits.length decimals) (decimals_le : decimals ≤ 3)
      (nearest : m.IsNearest (shownNumber digits * 10 ^ (p.unitExponent - decimals)))
      (positive : m.isNegative = false) : Displays p m
  | openCircuit (none : ∀ digits, ¬ p.ShowsDigits digits)
      (zero : p.glyph? 1 = some (.digit 0)) (l : p.glyph? 2 = some .l) : Displays p .infinity
  | unreadable (none : ∀ digits, ¬ p.ShowsDigits digits)
      (other : ¬ (p.glyph? 1 = some (.digit 0) ∧ p.glyph? 2 = some .l)) : Displays p .notNumber

/-- **The magnitude is what the display shows.** -/
theorem displays_magnitude (p : Packet) : p.Displays p.magnitude := by
  cases hdigits : p.shownDigits? with
  | some digits =>
    have hbound := (isDisplay_of_shownDigits? hdigits).2.shownNumber_le
    have hshows := shownDigits?_eq_some_iff.mp hdigits
    have hcount : digits.length = 3 ∨ digits.length = 4 := by
      rw [hshows.length_eq]
      split_ifs <;> simp
    obtain ⟨decimals, hle, hdecimals, hpoint⟩ := exists_showsDecimals (p := p) hcount
    have hexponent : p.exponent = p.unitExponent - decimals := by
      rw [exponent, shown, hdigits]
      dsimp only
      omega
    have hmagnitude : p.magnitude = decimalValue (shownNumber digits) p.exponent := by
      rw [magnitude, shown, hdigits, ← (isDisplay_of_shownDigits? hdigits).2.toNat_foldDigits]
      rfl
    rw [hmagnitude]
    refine .number hshows hdecimals hle ?_ (isNegative_decimalValue _ _)
    rw [← hexponent]
    exact isNearest_decimalValue hbound (isFinite_decimalValue hbound p.exponent_mem_range.2)
  | none =>
    have hnone (digits : List UInt8) : ¬ p.ShowsDigits digits := fun hshows => by
      simpa [hdigits] using shownDigits?_eq_some_iff.mpr hshows
    -- neither infinity nor what is no number is moved by the exponent
    have hspecial : p.shown.1 = if p.isOpen then .infinity else .notNumber := by
      rw [shown, hdigits]
    have hscale : p.magnitude = p.shown.1 := by
      refine Binary64.scale_of_not_isFinite ?_ _ _
      rw [hspecial]
      split_ifs
      · exact Binary64.not_isFinite_infinity
      · exact Binary64.not_isFinite_notNumber
    have hopen : p.isOpen = true ↔ p.glyph? 1 = some (.digit 0) ∧ p.glyph? 2 = some .l := by
      simp [isOpen]
    rw [hscale, hspecial]
    split_ifs with h
    · obtain ⟨hzero, hl⟩ := hopen.mp h
      exact .openCircuit hnone hzero hl
    · exact .unreadable hnone fun hshown => h (hopen.mpr hshown)

/-! ## Decoding behind the framing -/

theorem checkLamps_eq_error_iff {e : Error} : p.checkLamps = .error e ↔
    1 < p.modeCount ∧ e = .multipleModes p.modeCount ∨
    p.modeCount ≤ 1 ∧ 1 < p.litScales.length ∧ e = .multiplePrefixes p.litScales.length ∨
    p.modeCount ≤ 1 ∧ p.litScales.length ≤ 1 ∧ (p.isLit .ac = true ∧ p.isLit .dc = true) ∧
      e = .acAndDc := by
  unfold checkLamps
  split_ifs with hmodes hscales hcoupling
  · simp [hmodes, Nat.not_le.mpr hmodes, @eq_comm _ e]
  · simp [hmodes, hscales, Nat.not_lt.mp hmodes, Nat.not_le.mpr hscales, @eq_comm _ e]
  · rw [Bool.and_eq_true_iff] at hcoupling
    simp [hmodes, hscales, hcoupling, Nat.not_lt.mp hmodes, Nat.not_lt.mp hscales, @eq_comm _ e]
  · rw [Bool.and_eq_true_iff] at hcoupling
    simp [hmodes, hscales, hcoupling]

theorem decode_eq_error_iff (h : p.checkFraming = .ok ()) {e : Error} :
    p.decode = .error e ↔ p.checkLamps = .error e := by
  rw [decode_of_framed h]
  cases p.checkLamps <;> simp [Except.map]

/-! ## The other sign -/

/-- The packet with the sign bit flipped. -/
def withSignFlipped (p : Packet) : Packet := ⟨p.bytes.modify Lamp.sign.offset (· ^^^ 1)⟩

theorem byte_withSignFlipped (h : Lamp.sign.offset < p.bytes.length) (i : Nat) :
    p.withSignFlipped.byte i = if i = Lamp.sign.offset then p.byte i ^^^ 1 else p.byte i := by
  unfold byte withSignFlipped
  rw [List.getElem?_modify]
  by_cases hi : i = Lamp.sign.offset
  · subst hi
    simp [h]
  · simp [hi, Ne.symm hi]

theorem isLit_withSignFlipped (h : Lamp.sign.offset < p.bytes.length) (lamp : Lamp) :
    p.withSignFlipped.isLit lamp = (p.isLit lamp ^^ decide (lamp = .sign)) := by
  obtain ⟨offset, bit⟩ := lamp
  unfold isLit
  rw [byte_withSignFlipped h]
  by_cases hoffset : offset = Lamp.sign.offset
  · simp [hoffset, Lamp.sign, BitVec.getLsbD_one]
  · have hother : Lamp.mk offset bit ≠ .sign := fun heq => hoffset (congrArg Lamp.offset heq)
    simp [hoffset, hother]

theorem decode_withSignFlipped (h : p.checkFraming = .ok ()) :
    p.withSignFlipped.decode = p.decode.map fun r => { r with value := r.value.neg } := by
  obtain ⟨hlength, _, _⟩ := p.checkFraming_eq_ok_iff.mp h
  have hsign : Lamp.sign.offset < p.bytes.length := by rw [hlength]; decide
  have hagree : p.Agree Lamp.read p.withSignFlipped := fun lamp hlamp => by
    have hother : ∀ lamp ∈ Lamp.read, lamp ≠ .sign := by decide
    simp [isLit_withSignFlipped hsign, hother lamp hlamp]
  have hframing : p.withSignFlipped.checkFraming = .ok () := by
    have hsame : p.withSignFlipped.bytes.length = p.bytes.length := List.length_modify _ _ _
    have hsync : p.withSignFlipped.byte 0 = p.byte 0 := byte_withSignFlipped hsign 0
    have hcounter (i : Nat) : (p.withSignFlipped.byte i).toNat / 16 = (p.byte i).toNat / 16 :=
      counter_congr fun bit hbit => by
        have hother : Lamp.mk i bit ≠ .sign := fun heq => by
          have hzero : bit = 0 := congrArg Lamp.bit heq
          omega
        simp [isLit_withSignFlipped hsign, hother]
    rw [checkFraming_congr hsame hsync hcounter, h]
    rfl
  have hnegative : p.withSignFlipped.isNegative = !p.isNegative := by
    simp [isNegative, isLit_withSignFlipped hsign]
  have hvalue : p.reading.value = p.magnitude.negIf p.isNegative := rfl
  rw [decode_of_framed hframing, decode_of_framed h, checkLamps_congr hagree.checked,
    reading_congr hagree, hnegative]
  cases p.checkLamps with
  | error e => rfl
  | ok _ => cases hsigned : p.isNegative <;> simp [Except.map, hvalue, hsigned]

/-! ## Framed packets -/

theorem checkLamps_of_display {q : Packet} (h : ∀ i, i < 3 ∨ 10 < i → q.byte i = p.byte i) :
    q.checkLamps = p.checkLamps := by
  have hlamps : ∀ lamp ∈ Lamp.checked, lamp.offset < 3 ∨ 10 < lamp.offset := by decide
  refine checkLamps_congr fun lamp hlamp => ?_
  rw [isLit, isLit, h lamp.offset (hlamps lamp hlamp)]

/-- **The reading of a framed packet.** It is refused for several modes, else for several scales,
else for AC together with DC, and never for what stands on the display. Any other packet is read:
the magnitude is the one on the display, in the lit unit, and the sign negates it. Flipping the sign
changes nothing but the sign of the value, and no pattern but the ten digits shows a digit. -/
theorem decode_framed (h : p.checkFraming = .ok ()) :
    (∀ e, p.decode = .error e ↔
      1 < p.modeCount ∧ e = .multipleModes p.modeCount ∨
      p.modeCount ≤ 1 ∧ 1 < p.litScales.length ∧ e = .multiplePrefixes p.litScales.length ∨
      p.modeCount ≤ 1 ∧ p.litScales.length ≤ 1 ∧ (p.isLit .ac = true ∧ p.isLit .dc = true) ∧
        e = .acAndDc) ∧
    (∀ q : Packet, q.checkFraming = .ok () → (∀ i, i < 3 ∨ 10 < i → q.byte i = p.byte i) →
      ∀ e, q.decode = .error e ↔ p.decode = .error e) ∧
    (∀ r, p.decode = .ok r → p.ScalesBy p.unitExponent ∧
      ∃ m, p.Displays m ∧ r.value = m.negIf (p.isLit .sign)) ∧
    p.withSignFlipped.decode = p.decode.map (fun r => { r with value := r.value.neg }) ∧
    ∀ i d, p.glyph? i = some (.digit d) ↔ (p.segmentCode i, d) ∈ Glyph.digitPatterns := by
  refine ⟨fun e => ?_, fun q hq hsame e => ?_, fun r hr => ?_, decode_withSignFlipped h,
    fun i d => glyph?_eq_digit_iff⟩
  · rw [decode_eq_error_iff h, checkLamps_eq_error_iff]
  · rw [decode_eq_error_iff hq, decode_eq_error_iff h, checkLamps_of_display hsame]
  · obtain ⟨_, hlamps, rfl⟩ := p.decode_eq_ok_iff.mp hr
    exact ⟨scalesBy_unitExponent ((checkLamps_eq_ok_iff p).mp hlamps).2.1, p.magnitude,
      p.displays_magnitude, rfl⟩

/-- A temperature of -23.4 degrees, the same packet with a pattern in front that is no character,
and one in which two modes and two scales are lit. -/
theorem decode_framed_temperature :
    let cold : Packet := ⟨[0x02, 0x18, 0x20, 0x3b, 0x4d, 0x58, 0x6f, 0x75, 0x8e, 0x9e, 0xa1, 0xb0,
      0xc0, 0xd0, 0xe0]⟩
    let stray : Packet := ⟨[0x02, 0x18, 0x20, 0x30, 0x41, 0x58, 0x6f, 0x75, 0x8e, 0x9e, 0xa1, 0xb0,
      0xc0, 0xd0, 0xe0]⟩
    let torn : Packet := ⟨[0x02, 0x18, 0x20, 0x3b, 0x4d, 0x58, 0x6f, 0x75, 0x8e, 0x9e, 0xa1, 0xb3,
      0xc6, 0xd0, 0xe0]⟩
    let reading : Reading := ⟨.temperature, .celsius, ⟨0x04⟩, ⟨0xc037666666666666⟩, 1⟩
    (cold.checkFraming = .ok () ∧ cold.decode = .ok reading ∧
      (∃ m, cold.Displays m ∧ reading.value = m.neg) ∧
      cold.withSignFlipped.decode = .ok { reading with value := ⟨0x4037666666666666⟩ }) ∧
    (stray.checkFraming = .ok () ∧ (∀ i, i < 3 ∨ 10 < i → stray.byte i = cold.byte i) ∧
      ∀ e, stray.decode ≠ .error e) ∧
    (torn.checkFraming = .ok () ∧ torn.decode = .error (.multipleModes 2)) := by
  intro cold stray torn reading
  have hcold : cold.checkFraming = .ok () := by decide +kernel
  have hreading : cold.decode = .ok reading := by decide +kernel
  have hstray : stray.checkFraming = .ok () := by decide +kernel
  have htorn : torn.checkFraming = .ok () := by decide +kernel
  have hsame (i : Nat) (hi : i < 3 ∨ 10 < i) : stray.byte i = cold.byte i := by
    match i with
    | 3 | 4 | 5 | 6 | 7 | 8 | 9 | 10 => omega
    | 0 | 1 | 2 | i + 11 => rfl
  obtain ⟨_, hdisplay, hread, hflipped, _⟩ := decode_framed hcold
  obtain ⟨_, m, hm, hvalue⟩ := hread reading hreading
  have hsign : cold.isLit .sign = true := by decide +kernel
  have hopposite : reading.value.neg = ⟨0x4037666666666666⟩ := by decide +kernel
  rw [hsign] at hvalue
  refine ⟨⟨hcold, hreading, ⟨m, hm, hvalue⟩, ?_⟩, ⟨hstray, hsame, fun e he => ?_⟩, htorn, ?_⟩
  · rw [hflipped, hreading, ← hopposite]
    rfl
  · exact nomatch hreading.symm.trans ((hdisplay stray hstray hsame e).mp he)
  · exact ((decode_framed htorn).1 _).mpr (Or.inl (by decide +kernel))

end Packet

end Multimeter.Bm25x
