import Multimeter.Proofs.Json.Numeral
import Multimeter.Proofs.Shortest
import Multimeter.Proofs.Sign

/-!
# 64-bit values read back

A reader of numerals works with the 64-bit values of the significand and of a power of ten. Both are
exact for a short decimal, so that its value is rounded once, to the pattern that it was written for.

* `Numeral.toBinary64?_eq`: what is read, as long as the significand fits.
* `Numeral.exists_ofParts?`: short parts are rounded once.
* `Numeral.Denotes`, `Numeral.denotes_ofDecimal`: every layout keeps the decimal.
* **`Numeral.toBinary64?_ofBinary64`**: the number on a display is written and read back.
-/

namespace Multimeter

namespace Numeral

/-! ## Parts of a numeral -/

/-- The number that all digits of a numeral form. -/
def significand (n : Numeral) : Nat := digitsValue (n.whole ++ n.fraction)

/-- The exponent of the last digit of a numeral. -/
def lastPlace (n : Numeral) : Int := n.exponentValue - n.fraction.length

theorem le_ofDigitChars (s : Nat) (ds : List Char) : s ≤ Nat.ofDigitChars 10 ds s := by
  rw [Nat.ofDigitChars_eq_ofDigitChars_zero]
  exact (Nat.le_mul_of_pos_left s (Nat.pow_pos (by decide))).trans (Nat.le_add_right _ _)

theorem accumulate_eq {s : Nat} {ds : List Char}
    (h : Nat.ofDigitChars 10 ds s < 0x10000000000000000) :
    accumulate s ds = (Nat.ofDigitChars 10 ds s, []) := by
  induction ds generalizing s with
  | nil => rfl
  | cons c ds ih =>
    have hnext : 10 * s + (c.toNat - '0'.toNat) = s * 10 + digitValue c := by
      rw [Nat.mul_comm]
      rfl
    rw [Nat.ofDigitChars_cons, hnext] at h ⊢
    rw [accumulate, if_pos ((le_ofDigitChars _ ds).trans_lt h)]
    exact ih h

/-- **What is read** from a numeral with a significand that fits. -/
theorem toBinary64?_eq {n : Numeral} (h : n.significand < 0x10000000000000000) :
    n.toBinary64? = (ofParts? n.significand n.lastPlace).map (·.negIf n.negative) := by
  rw [significand, digitsValue_eq, Nat.ofDigitChars_append] at h
  have hwhole := accumulate_eq ((le_ofDigitChars _ n.fraction).trans_lt h)
  have hfraction := accumulate_eq h
  have hplace : ((0 : Nat) : ℤ) - ((n.fraction.length : ℤ) - (0 : Nat)) + n.exponentValue =
      n.lastPlace := by
    unfold lastPlace
    omega
  unfold toBinary64?
  rw [hwhole]
  dsimp only
  rw [hfraction]
  dsimp only
  rw [List.length_nil, hplace, significand, digitsValue_eq, Nat.ofDigitChars_append]

/-! ## Powers of ten -/

theorem powerRatio_spec : ∀ k < 23, (powerRatio k).1 = 10 ^ k * (powerRatio k).2 ∧
    0 < (powerRatio k).2 := by
  decide +kernel

theorem powerRatio_fst_div {k : Nat} (hk : k < 23) :
    0 < (powerRatio k).1 ∧ 0 < (powerRatio k).2 ∧
      ((powerRatio k).1 : ℚ) / (powerRatio k).2 = 10 ^ k := by
  obtain ⟨hvalue, hden⟩ := powerRatio_spec k hk
  have hden' : ((powerRatio k).2 : ℚ) ≠ 0 := Nat.cast_ne_zero.mpr hden.ne'
  refine ⟨hvalue ▸ Nat.mul_pos (Nat.pow_pos (by decide)) hden, hden, ?_⟩
  rw [hvalue, Nat.cast_mul, mul_div_cancel_right₀ _ hden', Nat.cast_pow, Nat.cast_ofNat]

theorem isNearest_scale_ofNat {s : Nat} (hs : s < 2 ^ 53) {num den : Nat} (hden : 0 < den) {e : ℤ}
    (he : e ≤ 22) (hratio : (num : ℚ) / den = 10 ^ e) :
    ((Binary64.ofNat s).scale num den).IsNearest (s * 10 ^ e) := by
  obtain ⟨hfinite, hvalue⟩ := Binary64.toRat_ofNat hs
  rw [← hvalue, ← hratio]
  refine Binary64.isNearest_scale hfinite hden (Binary64.isFinite_scale hfinite hden ?_)
  rw [hvalue, hratio, abs_of_nonneg (Nat.cast_nonneg s)]
  have hs' : (s : ℚ) < 2 ^ 53 := by exact_mod_cast hs
  calc (s : ℚ) * 10 ^ e ≤ 2 ^ 53 * 10 ^ (22 : ℤ) := by
        refine mul_le_mul hs'.le ?_ (zpow_nonneg (by norm_num) e) (by norm_num)
        exact zpow_le_zpow_right₀ (by norm_num) he
    _ < 2 ^ (160 : ℤ) := by norm_num
    _ ≤ 2 ^ (1023 : ℤ) := zpow_le_zpow_right₀ one_le_two (by decide)

/-- **Short parts are rounded once.** -/
theorem exists_ofParts? {s : Nat} {e : ℤ} (hs : s < 2 ^ 53) (hlow : -22 ≤ e) (hhigh : e ≤ 22) :
    ∃ y, ofParts? s e = some y ∧ y.isNegative = false ∧ y.IsNearest (s * 10 ^ e) := by
  have hsign (num den : Nat) : ((Binary64.ofNat s).scale num den).isNegative = false :=
    (Binary64.isNegative_scale _ _ _).trans (Binary64.isNegative_ofRatio s 1)
  obtain ⟨hnum, hden, hratio⟩ := powerRatio_fst_div (k := e.natAbs) (by omega)
  have hle : e.natAbs ≤ maxPower := by
    unfold maxPower
    omega
  unfold ofParts?
  dsimp only
  by_cases hneg : e < 0
  · have hinverse : ((powerRatio e.natAbs).2 : ℚ) / (powerRatio e.natAbs).1 = 10 ^ e := by
      rw [← inv_div, hratio, ← zpow_natCast, ← zpow_neg, Int.ofNat_natAbs_of_nonpos hneg.le,
        neg_neg]
    rw [if_pos hneg, divideByPower, if_pos hle]
    exact ⟨_, rfl, hsign _ _, isNearest_scale_ofNat hs hnum hhigh hinverse⟩
  · have hpower : ((powerRatio e.natAbs).1 : ℚ) / (powerRatio e.natAbs).2 = 10 ^ e := by
      rw [hratio, ← zpow_natCast, Int.natAbs_of_nonneg (not_lt.mp hneg)]
    have hnearest := isNearest_scale_ofNat hs hden hhigh hpower
    rw [if_neg hneg, if_pos hle, if_neg (Bool.eq_false_iff.mp hnearest.finite.2)]
    exact ⟨_, rfl, hsign _ _, hnearest⟩

/-! ## The layouts of a decimal -/

/-- What a layout has to keep of a short decimal. -/
structure Denotes (n : Numeral) (d : Decimal) : Prop where
  written : n.Written
  value : (n.significand : ℚ) * 10 ^ n.lastPlace = d.toRat
  significand_lt : n.significand < 2 ^ 53
  place : -22 ≤ n.lastPlace ∧ n.lastPlace ≤ 22

/-- The digits of a number that is not zero. -/
structure AreDigitsOf (ds : List Char) (n : Nat) : Prop where
  digits : AreDigits ds
  length_pos : 0 < ds.length
  head_ne : ds.head? ≠ some '0'
  value : Nat.ofDigitChars 10 ds 0 = n

theorem areDigitsOf_toDigits {n : Nat} (hn : 0 < n) : AreDigitsOf (Nat.toDigits 10 n) n where
  digits := areDigits_toDigits n
  length_pos := Nat.length_toDigits_pos
  head_ne := head?_toDigits_ne hn
  value := Nat.ofDigitChars_ten_toDigits

theorem ofDigitChars_zero (n : Nat) : Nat.ofDigitChars 10 ['0'] n = 10 * n := rfl

theorem significand_mk (negative : Bool) (whole fraction : List Char)
    (exponent : Option (Bool × List Char)) :
    significand ⟨negative, whole, fraction, exponent⟩ = Nat.ofDigitChars 10 (whole ++ fraction) 0 :=
  digitsValue_eq _

theorem lastPlace_mk_none (negative : Bool) (whole fraction : List Char) :
    lastPlace ⟨negative, whole, fraction, none⟩ = -fraction.length :=
  zero_sub _

theorem exponent_le_of_short {d : Decimal} (hd : d.Short) : d.exponent ≤ 15 := by
  by_contra hgt
  have hpower : 10 ^ 16 ≤ 10 ^ (d.exponent + 1).toNat := Nat.pow_le_pow_right (by decide) (by omega)
  have hle := Nat.le_mul_of_pos_left (10 ^ (d.exponent + 1).toNat) hd.digits_pos
  have hlt := hd.digits_lt
  omega

theorem digits_lt_of_short {d : Decimal} (hd : d.Short) : d.digits < 2 ^ 53 :=
  (Nat.le_mul_of_pos_right _ (Nat.pow_pos (by decide))).trans_lt hd.digits_lt

theorem denotes_of_eq {d : Decimal} (hd : d.Short) {n : Numeral} (hn : n.Written)
    (hsignificand : n.significand = d.digits) (hplace : n.lastPlace = d.exponent) : n.Denotes d where
  written := hn
  value := by rw [hsignificand, hplace, Decimal.toRat]
  significand_lt := hsignificand ▸ digits_lt_of_short hd
  place := by
    have hle := exponent_le_of_short hd
    rw [hplace]
    exact ⟨hd.exponent_ge, by omega⟩

section

variable {d : Decimal} (hd : d.Short) (negative : Bool) {ds : List Char}
  (hds : AreDigitsOf ds d.digits)

include hds

theorem written_take_drop {k : Nat} (hk : 0 < k) {e : Option (Bool × List Char)}
    (he : ∀ p ∈ e, p.2 ≠ [] ∧ AreDigits p.2) :
    Written ⟨negative, ds.take k, ds.drop k, e⟩ where
  whole_ne_nil := by
    rw [← List.length_pos_iff, List.length_take]
    exact Nat.lt_min.mpr ⟨hk, hds.length_pos⟩
  whole_digits c hc := hds.digits c (List.mem_of_mem_take hc)
  whole_zero hzero := by
    rw [List.head?_take, if_neg hk.ne'] at hzero
    exact absurd hzero hds.head_ne
  fraction_digits c hc := hds.digits c (List.mem_of_mem_drop hc)
  exponent_digits := he

include hd

theorem denotes_behind (hsmall : d.exponent + ds.length ≤ 0) :
    Denotes ⟨negative, ['0'], List.replicate (-(d.exponent + ds.length)).toNat '0' ++ ds, none⟩
      d := by
  refine denotes_of_eq hd ⟨List.cons_ne_nil _ _, ?_, fun _ => rfl, ?_, fun _ h => by cases h⟩ ?_ ?_
  · exact areDigits_replicate_zero 1
  · exact areDigits_append.mpr ⟨areDigits_replicate_zero _, hds.digits⟩
  · rw [significand_mk, ← List.append_assoc, Nat.ofDigitChars_append, Nat.ofDigitChars_append,
      ofDigitChars_zero, Nat.ofDigitChars_replicate_zero, Nat.mul_zero, hds.value]
  · rw [lastPlace_mk_none, List.length_append, List.length_replicate]
    omega

theorem denotes_before (hgreat : 0 ≤ d.exponent) :
    Denotes ⟨negative, ds ++ List.replicate d.exponent.toNat '0', ['0'], none⟩ d := by
  have hne : ds ≠ [] := List.length_pos_iff.mp hds.length_pos
  have hsignificand :
      significand ⟨negative, ds ++ List.replicate d.exponent.toNat '0', ['0'], none⟩ =
        d.digits * 10 ^ (d.exponent + 1).toNat := by
    rw [significand_mk, Nat.ofDigitChars_append, Nat.ofDigitChars_append, ofDigitChars_zero,
      Nat.ofDigitChars_replicate_zero, hds.value, Int.toNat_add hgreat (by decide), Nat.pow_add]
    change _ = d.digits * (10 ^ d.exponent.toNat * 10)
    ring
  refine ⟨⟨?_, ?_, fun hzero => ?_, ?_, fun _ h => by cases h⟩, ?_, ?_, ?_⟩
  · exact List.append_ne_nil_of_left_ne_nil hne _
  · exact areDigits_append.mpr ⟨hds.digits, areDigits_replicate_zero _⟩
  · rw [List.head?_append_of_ne_nil _ hne] at hzero
    exact absurd hzero hds.head_ne
  · exact areDigits_replicate_zero 1
  · rw [lastPlace_mk_none, hsignificand, Decimal.toRat, Nat.cast_mul, Nat.cast_pow, Nat.cast_ofNat,
      ← zpow_natCast, Int.toNat_of_nonneg (by omega), mul_assoc, ← zpow_add₀ (by norm_num)]
    congr 2
    exact add_neg_cancel_right _ _
  · rw [hsignificand]
    exact hd.digits_lt
  · rw [lastPlace_mk_none]
    decide

theorem denotes_between (hsmall : d.exponent < 0) (hgreat : 0 < d.exponent + ds.length) :
    Denotes ⟨negative, ds.take (d.exponent + ds.length).toNat,
      ds.drop (d.exponent + ds.length).toNat, none⟩ d := by
  refine denotes_of_eq hd ?_ ?_ ?_
  · exact written_take_drop negative hds (by omega) fun _ h => by cases h
  · rw [significand_mk, List.take_append_drop, hds.value]
  · rw [lastPlace_mk_none, List.length_drop]
    omega

theorem denotes_scientific {e : ℤ} (he : e = d.exponent + ds.length - 1) :
    Denotes ⟨negative, ds.take 1, ds.drop 1, some (e < 0, Nat.toDigits 10 e.natAbs)⟩ d := by
  have hlength := hds.length_pos
  have hvalue : exponentValue ⟨negative, ds.take 1, ds.drop 1,
      some (e < 0, Nat.toDigits 10 e.natAbs)⟩ = e := by
    simp only [exponentValue, digitsValue_toDigits, decide_eq_true_eq]
    omega
  refine denotes_of_eq hd ?_ ?_ ?_
  · refine written_take_drop negative hds Nat.one_pos fun p hp => ?_
    obtain rfl := Option.some.inj hp
    exact ⟨Nat.toDigits_ne_nil, areDigits_toDigits _⟩
  · rw [significand_mk, List.take_append_drop, hds.value]
  · rw [lastPlace, hvalue, List.length_drop]
    omega

end

/-- **Every layout denotes the decimal.** -/
theorem denotes_ofDecimal {d : Decimal} (hd : d.Short) (negative : Bool) :
    (ofDecimal negative d).Denotes d := by
  have hds := areDigitsOf_toDigits hd.digits_pos
  unfold ofDecimal
  dsimp only
  generalize Nat.toDigits 10 d.digits = ds at *
  have hlength := hds.length_pos
  split_ifs with hpositional hneg hwhole
  · have hzeros : (-(d.exponent + ds.length - 1) - 1).toNat = (-(d.exponent + ds.length)).toNat := by
      omega
    rw [hzeros]
    exact denotes_behind hd negative hds (by omega)
  · have hle : ds.length ≤ (d.exponent + ds.length - 1 + 1).toNat := List.drop_eq_nil_iff.mp hwhole
    have hzeros : (d.exponent + ds.length - 1 + 1).toNat - ds.length = d.exponent.toNat := by omega
    rw [List.take_of_length_le hle, hzeros]
    exact denotes_before hd negative hds (by omega)
  · have hlt := mt List.drop_eq_nil_iff.mpr hwhole
    have hzeros : (d.exponent + ds.length - 1 + 1).toNat - ds.length = 0 := by omega
    have hpoint : d.exponent + ds.length - 1 + 1 = d.exponent + ds.length := by omega
    rw [hzeros, List.replicate_zero, List.append_nil, hpoint]
    exact denotes_between hd negative hds (by omega) (by omega)
  · exact denotes_scientific hd negative hds rfl

theorem negative_ofDecimal (negative : Bool) (d : Decimal) :
    (ofDecimal negative d).negative = negative := by
  unfold ofDecimal
  dsimp only
  split_ifs <;> rfl

/-! ## Displayed numbers -/

theorem ofBinary64_negIf {x : Binary64} (hx : x.isNegative = false) (negative : Bool) :
    ofBinary64 (x.negIf negative) = ofDecimal negative x.shortest := by
  cases negative with
  | false => rw [Binary64.negIf_false, ofBinary64, hx]
  | true =>
    have hshortest : x.neg.shortest = x.shortest := by
      rw [Binary64.shortest, Binary64.shortest, Binary64.significand?_neg]
    rw [Binary64.negIf_true, ofBinary64, hshortest, Binary64.isNegative_neg, hx, Bool.not_false]

theorem toBinary64?_ofDecimal_zero (negative : Bool) :
    (ofDecimal negative ⟨0, 0⟩).Written ∧
      (ofDecimal negative ⟨0, 0⟩).toBinary64? = some (Binary64.zero.negIf negative) := by
  refine ⟨⟨List.cons_ne_nil _ _, areDigits_replicate_zero 1, fun _ => rfl,
    areDigits_replicate_zero 1, fun _ h => by cases h⟩, ?_⟩
  cases negative <;> decide +kernel

/-- **A number on a display is written, and read back.** Its shortest decimal is short, so that
reading it rounds once, to the same value. -/
theorem toBinary64?_ofBinary64 {n : Nat} {e : ℤ} (hn : n ≤ 99999) (hlow : -12 ≤ e) (hhigh : e ≤ 6)
    (negative : Bool) :
    (ofBinary64 ((decimalValue n e).negIf negative)).Written ∧
      (ofBinary64 ((decimalValue n e).negIf negative)).toBinary64? =
        some ((decimalValue n e).negIf negative) := by
  have hsign := isNegative_decimalValue n e
  rw [ofBinary64_negIf hsign]
  obtain rfl | hpos := n.eq_zero_or_pos
  · rw [(decimalValue_eq_zero_iff hn hlow hhigh).mpr rfl]
    exact toBinary64?_ofDecimal_zero negative
  · have hnearest := isNearest_decimalValue hn (isFinite_decimalValue hn hhigh)
    obtain ⟨hshort, hdecimal⟩ :=
      Binary64.shortest_displayed hsign hnearest ⟨hpos, hn⟩ ⟨hlow, hhigh⟩
    have hdenotes := denotes_ofDecimal hshort negative
    obtain ⟨y, hread, hyneg, hy⟩ :=
      exists_ofParts? hdenotes.significand_lt hdenotes.place.1 hdenotes.place.2
    rw [hdenotes.value] at hy
    obtain rfl := hdecimal.eq hy (hsign.trans hyneg.symm)
    refine ⟨hdenotes.written, ?_⟩
    rw [toBinary64?_eq (hdenotes.significand_lt.trans (by decide)), hread, negative_ofDecimal]
    rfl

end Numeral

end Multimeter
