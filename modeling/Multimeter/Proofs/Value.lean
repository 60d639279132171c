import Multimeter.Proofs.Display
import Multimeter.Proofs.Reading
import Multimeter.Proofs.Rounding

/-!
# Value and decimals

A reading gives the number on its display twice: as a value, and by the decimals that the display
shows. Both come from one exponent, each on a path of its own.

* `decimalValue`: a displayed number at a decimal exponent, rounded once.
* `Bm25x.Packet.exponent_mem_range`, `Es519xx.exponent_mem_range`: no exponent is clamped.
* `Bm25x.Packet.value_of_shownDigits?`, `Es519xx.value_of_decode`: what a value is read from;
  `Variant.exists_exponent_of_decode`: both families at once.
* **`Variant.value_and_digits_agree`**: value and decimals of a reading agree.
-/

namespace Multimeter

/-! ## A displayed number at an exponent -/

/-- A displayed number at a decimal exponent, rounded once. -/
def decimalValue (n : Nat) (e : ℤ) : Binary64 := (Binary64.ofNat n).scale10 e

/-- **A displayed number is rounded once.** -/
theorem isNearest_decimalValue {n : Nat} {e : ℤ} (hn : n ≤ 99999)
    (h : (decimalValue n e).IsFinite) : (decimalValue n e).IsNearest (n * 10 ^ e) := by
  obtain ⟨hfinite, hvalue⟩ := Binary64.toRat_ofNat (n := n) (by omega)
  rw [← hvalue]
  exact Binary64.isNearest_scale10 hfinite h

/-- The number with its sign. -/
def signed (negative : Bool) (n : Nat) : ℤ := if negative then -n else n

theorem natAbs_signed (negative : Bool) (n : Nat) : (signed negative n).natAbs = n := by
  cases negative with
  | true => exact (Int.natAbs_neg n).trans (Int.natAbs_natCast n)
  | false => exact Int.natAbs_natCast n

theorem isNearest_negIf_decimalValue {n : Nat} {e : ℤ} {negative : Bool} (hn : n ≤ 99999)
    (h : ((decimalValue n e).negIf negative).IsFinite) :
    ((decimalValue n e).negIf negative).IsNearest (signed negative n * 10 ^ e) := by
  have hnearest := isNearest_decimalValue hn ((Binary64.isFinite_negIf _ _).mp h)
  cases negative with
  | true =>
    have hneg := hnearest.neg
    rw [← neg_mul] at hneg
    rw [Binary64.negIf_true, signed, if_pos rfl, Int.cast_neg, Int.cast_natCast]
    exact hneg
  | false =>
    rw [Binary64.negIf_false, signed, if_neg Bool.false_ne_true, Int.cast_natCast]
    exact hnearest

theorem toInt_displayDigits {e : Int} (hlow : -12 ≤ e) (hhigh : e ≤ 6) :
    (displayDigits e).toInt = -e := by
  have hclamp : max minDigits (min maxDigits (-e)) = -e := by
    unfold minDigits maxDigits
    omega
  rw [displayDigits, hclamp]
  exact Int32.toInt_ofInt_of_le (by omega) (by omega)

theorem mul_ten_zpow_neg (x : ℚ) (d : ℤ) :
    x * 10 ^ (-d) = if 0 < d then x / 10 ^ d.toNat else x * 10 ^ (-d).toNat := by
  split_ifs with hd
  · rw [zpow_neg, ← div_eq_mul_inv, ← zpow_natCast, Int.toNat_of_nonneg hd.le]
  · rw [← zpow_natCast, Int.toNat_of_nonneg (by omega)]

/-! ## Segment packets -/

namespace Bm25x.Packet

variable (p : Packet)

theorem pointExponent_mem_range (point : DecimalPoint) (count : Nat) :
    -3 ≤ pointExponent point count ∧ pointExponent point count ≤ 0 := by
  unfold pointExponent
  cases point with
  | lit i =>
    dsimp only
    split_ifs <;> omega
  | _ => exact (by decide : (-3 : ℤ) ≤ 0 ∧ (0 : ℤ) ≤ 0)

theorem unitExponent_mem_range : -9 ≤ p.unitExponent ∧ p.unitExponent ≤ 6 := by
  have hall : ∀ s ∈ Lamp.unitScales, -9 ≤ s.2 ∧ s.2 ≤ 6 := by decide
  unfold unitExponent
  cases hlit : p.litScales with
  | nil => decide
  | cons s rest =>
    have hmem : s ∈ p.litScales := by
      rw [hlit]
      exact List.mem_cons_self
    exact hall s (List.mem_of_mem_filter hmem)

theorem exponent_mem_range : -12 ≤ p.exponent ∧ p.exponent ≤ 6 := by
  have hunit := p.unitExponent_mem_range
  have hpoint : -3 ≤ p.shown.2 ∧ p.shown.2 ≤ 0 := by
    unfold shown
    split
    · exact pointExponent_mem_range _ _
    · exact (by decide : (-3 : ℤ) ≤ 0 ∧ (0 : ℤ) ≤ 0)
  unfold exponent
  omega

variable {p}

/-- **A segment packet that shows a number** is read as this number, with the sign in front
of it. -/
theorem value_of_shownDigits? {digits : List UInt8} (h : p.shownDigits? = some digits) :
    p.value = (decimalValue (shownNumber digits) p.exponent).negIf p.isNegative := by
  have hdisplay := (isDisplay_of_shownDigits? h).2
  have hnumber : p.shown.1 = .ofNat (shownNumber digits) := by
    rw [shown, h, ← hdisplay.toNat_foldDigits]
  rw [value, hnumber]
  rfl

theorem value_of_eq_none (h : p.shownDigits? = none) :
    p.value = (if p.isOpen then .infinity else Binary64.notNumber).negIf p.isNegative := by
  have hspecial : p.shown.1 = if p.isOpen then .infinity else .notNumber := by
    rw [shown, h]
  have hscale : p.shown.1.scale10 p.exponent = p.shown.1 := by
    refine Binary64.scale_of_not_isFinite ?_ _ _
    rw [hspecial]
    split_ifs
    · exact Binary64.not_isFinite_infinity
    · exact Binary64.not_isFinite_notNumber
  rw [value, hscale, hspecial]

end Bm25x.Packet

/-! ## Digit packets -/

theorem Variant.exponent?_mem_range {v : Variant} {t : RangeTable} {row range : Nat} {e : Int}
    (ht : v.profile.rangeTable = some t) (h : t.exponent? row range = some e) :
    -12 ≤ e ∧ e ≤ 6 := by
  have hall : ∀ row ∈ t.rows, ∀ e ∈ row, -12 ≤ e ∧ e ≤ 6 := by
    revert ht
    cases v <;> rintro ⟨⟩ <;> decide
  obtain ⟨exponents, hrow, hrange⟩ := Option.bind_eq_some_iff.mp h
  exact hall exponents (List.mem_of_getElem? hrow) e (List.mem_of_getElem? hrange)

namespace Es519xx

variable {v : Variant} {frame : List UInt8} {p : Packet} {a : Annunciators} {e : Int}

theorem barExponent_mem {exponents : List Int} {range : Nat}
    (h : barExponent p exponents range = .ok e) : e ∈ exponents := by
  unfold barExponent at h
  split at h
  · rename_i e' he'
    obtain rfl := Except.ok.inj h
    exact List.mem_of_getElem? he'
  · obtain ⟨_, _, h⟩ := bind_eq_ok_iff.mp h
    exact nomatch h

theorem exponent_mem_range (h : exponent v.profile p a = .ok e) : -12 ≤ e ∧ e ≤ 6 := by
  unfold exponent at h
  simp only [bind_eq_ok_iff] at h
  obtain ⟨range, _, function, _, h⟩ := h
  cases hrow : a.rangeRow? with
  | none =>
    rw [hrow] at h
    exact nomatch h
  | some row =>
    rw [hrow] at h
    dsimp only at h
    split_ifs at h
    · have hall : ∀ e ∈ barMicroExponents, -12 ≤ e ∧ e ≤ 6 := by decide
      exact hall e (barExponent_mem h)
    · have hall : ∀ e ∈ barMilliExponents, -12 ≤ e ∧ e ≤ 6 := by decide
      exact hall e (barExponent_mem h)
    · obtain rfl := Except.ok.inj h
      decide
    · obtain rfl := Except.ok.inj h
      decide
    · split at h
      · rename_i e' he'
        obtain rfl := Except.ok.inj h
        obtain ⟨t, ht, he'⟩ := Option.bind_eq_some_iff.mp he'
        exact Variant.exponent?_mem_range ht he'
      · exact nomatch h

theorem classify_value {value : Binary64} (hcheck : a.check = .ok ())
    (he : exponent v.profile p a = .ok e) (h : (classify a value).1 ≠ .continuity) :
    (classify a value).2.2 = value := by
  obtain ⟨row, hrow⟩ := exists_rangeRow_of_exponent he
  obtain ⟨m, hm, hshows⟩ := Annunciators.exists_shows hcheck hrow
  rw [classify_of_shows hshows hm] at h ⊢
  exact if_neg fun hcontinuity => h (congrArg Mode.quantity hcontinuity)

theorem foldDigits_lead (lead : Bool) (digits : List UInt8) :
    foldDigits (if lead then 1 else 0) digits =
      foldDigits 0 (if lead then 1 :: digits else digits) := by
  cases lead <;> rfl

/-- **The signed number on a display** within its range. -/
theorem signedDisplay_eq (ha : a.digit4 = (v.profile.fiveDigits && bit (frame.getD 7 0) 0))
    (hv : v.profile.family = .es519xx) (hover : (a.overflow || a.underflow) = false)
    {shown : Binary64} (h : signedDisplay ⟨frame, v.profile.packetSize⟩ a = .ok shown) :
    ∃ digits, v.displayed? frame = some digits ∧
      shown = (Binary64.ofNat (shownNumber digits)).negIf
        (a.sign && shownNumber digits ≠ 0) := by
  unfold signedDisplay at h
  rw [hover, if_neg Bool.false_ne_true] at h
  obtain ⟨read, hread, h⟩ := bind_eq_ok_iff.mp h
  obtain rfl := Except.ok.inj h
  have hdisplayed := Variant.displayed?_of_es519xx hv hread
  rw [← ha] at hdisplayed
  have hnumber := (Variant.isDisplay_of_displayed? hdisplayed).toNat_foldDigits
  rw [← foldDigits_lead] at hnumber
  have hzero : foldDigits (if a.digit4 then 1 else 0) read ≠ 0 ↔
      shownNumber (if a.digit4 then 1 :: read else read) ≠ 0 := by
    rw [← hnumber]
    exact UInt64.toNat_inj.not.symm
  refine ⟨_, hdisplayed, ?_⟩
  rw [hnumber, decide_eq_decide.mpr hzero]

/-- **What a digit packet reads its value from.** -/
theorem value_of_decode (hv : v.profile.family = .es519xx) {r : Reading}
    (h : decode v.profile frame = .ok r) : ∃ a e,
    decodeAnnunciators v.profile frame = .ok a ∧
    exponent v.profile ⟨frame, v.profile.packetSize⟩ a = .ok e ∧ r.digits = displayDigits e ∧
    (r.quantity ≠ .continuity →
      ((a.overflow || a.underflow) = true ∧ r.value = .infinity) ∨
      ((a.overflow || a.underflow) = false ∧ ∃ digits, v.displayed? frame = some digits ∧
        r.value = (decimalValue (shownNumber digits) e).negIf
          (a.sign && shownNumber digits ≠ 0))) := by
  obtain ⟨a, shown, e, ha, hshown, he, rfl⟩ := decode_eq_ok_iff.mp h
  obtain ⟨_, lit, hlit, rfl, hcheck⟩ := decodeAnnunciators_eq_ok_iff.mp ha
  refine ⟨_, e, ha, he, rfl, fun hquantity => ?_⟩
  dsimp only at hquantity ⊢
  rw [classify_value hcheck he hquantity]
  cases hover : (lit.corrected v.profile).overflow || (lit.corrected v.profile).underflow with
  | true =>
    rw [signedDisplay, if_pos hover] at hshown
    obtain rfl := Except.ok.inj hshown
    exact Or.inl ⟨rfl, Binary64.scale_of_not_isFinite Binary64.not_isFinite_infinity _ _⟩
  | false =>
    have hdigit4 : (lit.corrected v.profile).digit4 = lit.digit4 :=
      (congrArg Annunciators.digit4 (lit.indicators_corrected v.profile) :)
    obtain ⟨digits, hdigits, rfl⟩ :=
      signedDisplay_eq (hdigit4.trans (Annunciators.digit4_ofPacket hlit)) hv hover hshown
    exact Or.inr ⟨rfl, digits, hdigits, Binary64.scale10_negIf _ _ _⟩

end Es519xx

/-! ## All formats -/

namespace Variant

/-- The decimal exponent that a frame combines of its range, its mode and its point. -/
def exponent (v : Variant) (frame : List UInt8) : Except PacketError Int :=
  match v.profile.family with
  | .bm25x => .ok (Bm25x.Packet.exponent ⟨frame⟩)
  | .es519xx => Except.mapError .es519xx do
    let a ← Es519xx.decodeAnnunciators v.profile frame
    Es519xx.exponent v.profile ⟨frame, v.profile.packetSize⟩ a

variable {v : Variant} {frame : List UInt8} {r : Reading}

theorem exists_exponent_of_decode (h : v.decode frame = .ok r) : ∃ e,
    v.exponent frame = .ok e ∧ (-12 ≤ e ∧ e ≤ 6) ∧ r.digits = displayDigits e ∧
    (r.value.IsFinite → r.quantity ≠ .continuity → ∃ digits negative,
      v.displayed? frame = some digits ∧
      r.value = (decimalValue (shownNumber digits) e).negIf negative) := by
  cases hv : v.profile.family with
  | bm25x =>
    rw [decode_of_bm25x frame hv, mapError_eq_ok_iff, Bm25x.Packet.decode_eq_ok_iff] at h
    obtain ⟨_, _, rfl⟩ := h
    refine ⟨Bm25x.Packet.exponent ⟨frame⟩, by simp only [exponent, hv],
      Bm25x.Packet.exponent_mem_range _, rfl, fun hfinite _ => ?_⟩
    rw [displayed?_of_bm25x hv]
    cases hdigits : Bm25x.Packet.shownDigits? ⟨frame⟩ with
    | some digits => exact ⟨digits, _, rfl, Bm25x.Packet.value_of_shownDigits? hdigits⟩
    | none =>
      change (Bm25x.Packet.value ⟨frame⟩).IsFinite at hfinite
      rw [Bm25x.Packet.value_of_eq_none hdigits, Binary64.isFinite_negIf] at hfinite
      split_ifs at hfinite
      · exact absurd hfinite Binary64.not_isFinite_infinity
      · exact absurd hfinite Binary64.not_isFinite_notNumber
  | es519xx =>
    rw [decode_of_es519xx frame hv, mapError_eq_ok_iff] at h
    obtain ⟨a, e, ha, he, hdigits, hvalue⟩ := Es519xx.value_of_decode hv h
    have hexponent : v.exponent frame = .ok e := by
      simp only [exponent, hv, ha]
      exact mapError_eq_ok_iff.mpr he
    refine ⟨e, hexponent, Es519xx.exponent_mem_range he, hdigits, fun hfinite hquantity => ?_⟩
    obtain ⟨_, hinfinite⟩ | ⟨_, digits, hdisplayed, hvalue⟩ := hvalue hquantity
    · rw [hinfinite] at hfinite
      exact absurd hfinite Binary64.not_isFinite_infinity
    · exact ⟨digits, _, hdisplayed, hvalue⟩

/-- **Value and decimals of a reading agree.** The decimals are the negated exponent of the frame,
which no clamp changes; and a finite value, but for a continuity test, is the number on the display
with its sign, divided or multiplied by an exact power of ten and rounded once. -/
theorem value_and_digits_agree (h : v.decode frame = .ok r) :
    (∃ e, v.exponent frame = .ok e ∧ r.digits.toInt = -e) ∧
    (-6 ≤ r.digits.toInt ∧ r.digits.toInt ≤ 12) ∧
    (r.value.IsFinite → r.quantity ≠ .continuity → ∃ (digits : List UInt8) (N : ℤ),
      v.displayed? frame = some digits ∧ N.natAbs = shownNumber digits ∧ |N| ≤ 99999 ∧
      r.value.IsNearest (if 0 < r.digits.toInt then N / 10 ^ r.digits.toInt.toNat
        else N * 10 ^ (-r.digits.toInt).toNat)) ∧
    (10 ^ r.digits.toInt.natAbs ≤ 10 ^ 12 ∧
      (Binary64.ofNat (10 ^ r.digits.toInt.natAbs)).IsFinite ∧
      (Binary64.ofNat (10 ^ r.digits.toInt.natAbs)).toRat = 10 ^ r.digits.toInt.natAbs) := by
  obtain ⟨e, hexponent, ⟨hlow, hhigh⟩, hdigits, hvalue⟩ := exists_exponent_of_decode h
  have hnegated : r.digits.toInt = -e := by rw [hdigits, toInt_displayDigits hlow hhigh]
  have hpower : 10 ^ r.digits.toInt.natAbs ≤ 10 ^ 12 := Nat.pow_le_pow_right (by decide) (by omega)
  have hexact := Binary64.toRat_ofNat (n := 10 ^ r.digits.toInt.natAbs)
    (hpower.trans_lt (by decide))
  refine ⟨⟨e, hexponent, hnegated⟩, by omega, fun hfinite hquantity => ?_, hpower, hexact.1, ?_⟩
  · obtain ⟨digits, negative, hdisplayed, hr⟩ := hvalue hfinite hquantity
    have hbound := (isDisplay_of_displayed? hdisplayed).shownNumber_le
    have habs := natAbs_signed negative (shownNumber digits)
    refine ⟨digits, signed negative (shownNumber digits), hdisplayed, habs, ?_, ?_⟩
    · rw [Int.abs_eq_natAbs, habs]
      exact_mod_cast hbound
    rw [← mul_ten_zpow_neg, hnegated, neg_neg]
    rw [hr] at hfinite ⊢
    exact isNearest_negIf_decimalValue hbound hfinite
  · rw [hexact.2]
    push_cast
    rfl

/-- A voltage of -12.345 volt, whose leading digit is the half digit. -/
theorem value_and_digits_agree_half_digit :
    let packet : List UInt8 := [0x31, 0x32, 0x33, 0x34, 0x35, 0x3b, 0x34, 0x31, 0x38, 0x0d, 0x0a]
    let voltage : Reading := ⟨.voltage, .volt, ⟨0x02⟩, ⟨0xc028b0a3d70a3d71⟩, 3⟩
    fast11FiveDigits.decode (packet ++ packet) = .ok voltage ∧
    (∃ e, fast11FiveDigits.exponent (packet ++ packet) = .ok e ∧ voltage.digits.toInt = -e) ∧
    ∃ N : ℤ, N.natAbs = 12345 ∧ voltage.value.IsNearest (N / 10 ^ 3) := by
  intro packet voltage
  have hdecode : fast11FiveDigits.decode (packet ++ packet) = .ok voltage := by decide +kernel
  have hshown : fast11FiveDigits.displayed? (packet ++ packet) = some [1, 2, 3, 4, 5] := by
    decide +kernel
  have hfinite : voltage.value.IsFinite := ⟨by decide, by decide⟩
  obtain ⟨hexponent, _, hvalue, _⟩ := value_and_digits_agree hdecode
  obtain ⟨digits, N, hdisplayed, hN, _, hnearest⟩ := hvalue hfinite (by decide)
  obtain rfl : digits = [1, 2, 3, 4, 5] := Option.some.inj (hdisplayed.symm.trans hshown)
  exact ⟨hdecode, hexponent, N, hN, hnearest⟩

end Variant

end Multimeter
