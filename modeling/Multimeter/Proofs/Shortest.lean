import Mathlib.Algebra.Order.Floor.Semifield
import Mathlib.Data.Rat.Floor
import Multimeter.Proofs.Interval

/-!
# Shortest decimals read back

The shortest decimal of a pattern is in its interval, and it has no more digits than any decimal
grid that meets the interval needs.

* `decimalScale_spec`: the power of ten above a fraction.
* `Binary64.candidate_sound`, `Binary64.isSome_candidate`: which decimals are candidates.
* `Decimal.toRat_stripZeros`: dropping zeros keeps the number.
* `Decimal.Short`: the decimals that a reader takes without rounding twice.
* **`Binary64.shortestMagnitude_spec`**: what the shortest decimal is and how many digits it has.
* **`Binary64.shortest_displayed`**: the shortest decimal of a number on a display.
-/

namespace Multimeter

/-! ## Powers of ten around a fraction -/

theorem decimalLength_spec {n : Nat} (hn : 0 < n) :
    1 ≤ decimalLength n ∧ 10 ^ (decimalLength n - 1) ≤ n ∧ n < 10 ^ decimalLength n := by
  have hpos : 0 < decimalLength n := Nat.length_toDigits_pos
  refine ⟨hpos, ?_, (Nat.length_toDigits_le_iff (by decide) hpos).mp le_rfl⟩
  by_contra hlt
  rw [Nat.not_le] at hlt
  obtain hone | hmore := Nat.eq_or_lt_of_le hpos
  · rw [← hone, Nat.sub_self, Nat.pow_zero] at hlt
    omega
  · have hle : decimalLength n ≤ decimalLength n - 1 :=
      (Nat.length_toDigits_le_iff (by decide) (by omega)).mpr hlt
    omega

/-- **The scale of a fraction** is the exponent of the next power of ten. -/
theorem decimalScale_spec {num den : Nat} (hnum : 0 < num) (hden : 0 < den) :
    (10 : ℚ) ^ (decimalScale num den - 1) ≤ num / den ∧
      (num : ℚ) / den < 10 ^ decimalScale num den := by
  have hnum' : (0 : ℚ) < num := Nat.cast_pos.mpr hnum
  have hden' : (0 : ℚ) < den := Nat.cast_pos.mpr hden
  have hten : (0 : ℚ) < 10 := by norm_num
  unfold decimalScale
  dsimp only
  split_ifs with hle hexact
  · -- from one up the length of the quotient counts, below one that of the inverse
    obtain ⟨hpos, hlow, hhigh⟩ := decimalLength_spec (Nat.div_pos hle hden)
    generalize decimalLength (num / den) = k at hpos hlow hhigh
    have hlow' : 10 ^ (k - 1) * den ≤ num := (Nat.le_div_iff_mul_le hden).mp hlow
    have hhigh' : num < 10 ^ k * den := (Nat.div_lt_iff_lt_mul hden).mp hhigh
    have hexponent : (k : ℤ) - 1 = (k - 1 : Nat) := by omega
    rw [le_div_iff₀ hden', div_lt_iff₀ hden', hexponent, zpow_natCast, zpow_natCast]
    exact ⟨by exact_mod_cast hlow', by exact_mod_cast hhigh'⟩
  all_goals
    rw [Nat.not_le] at hle
    obtain ⟨hpos, hlow, hhigh⟩ := decimalLength_spec (Nat.div_pos hle.le hnum)
    generalize decimalLength (den / num) = k at hpos hlow hhigh hexact ⊢
    have hlow' : num * 10 ^ (k - 1) ≤ den :=
      Nat.mul_comm num _ ▸ (Nat.le_div_iff_mul_le hnum).mp hlow
    have hhigh' : den < num * 10 ^ k := Nat.mul_comm num _ ▸ (Nat.div_lt_iff_lt_mul hnum).mp hhigh
    have hpred : (10 : ℚ) ^ (1 - (k : ℤ)) = 1 / 10 ^ (k - 1) := by
      rw [one_div, ← zpow_natCast, ← zpow_neg]
      congr 1
      omega
  · -- the inverse is a power of ten
    have hvalue : (num : ℚ) / den = 10 ^ (1 - (k : ℤ)) := by
      rw [hpred, div_eq_div_iff hden'.ne' (by positivity), one_mul]
      exact_mod_cast hexact.symm
    have hexponent : 2 - (k : ℤ) - 1 = 1 - k := by omega
    rw [hvalue, hexponent]
    exact ⟨le_rfl, zpow_lt_zpow_right₀ (by norm_num) (by omega)⟩
  · have hexponent : (10 : ℚ) ^ (1 - (k : ℤ) - 1) = 1 / 10 ^ k := by
      rw [one_div, ← zpow_natCast, ← zpow_neg]
      congr 1
      omega
    have hne : num * 10 ^ (k - 1) < den := hlow'.lt_of_ne (Ne.symm hexact)
    rw [hexponent, hpred, div_le_div_iff₀ (by positivity) hden',
      div_lt_div_iff₀ hden' (by positivity), one_mul]
    exact ⟨by exact_mod_cast hhigh'.le, by exact_mod_cast hne⟩

/-! ## Candidates -/

namespace Binary64

/-- The exponent of the next power of ten above a magnitude. -/
def decimalTop (m : Nat) (q : ℤ) : ℤ :=
  decimalScale (m * Nat.pow 2 q.toNat) (Nat.pow 2 (-q).toNat)

/-- The number of units below a magnitude, in the last of `n` digits. -/
def unitsBelow (m : Nat) (q : ℤ) (n : Nat) : Nat :=
  m * Nat.pow 2 q.toNat * Nat.pow 10 (-(decimalTop m q - n)).toNat
    / (Nat.pow 2 (-q).toNat * Nat.pow 10 (decimalTop m q - n).toNat)

variable {m : Nat} {q : ℤ} {n : Nat}

theorem decimalTop_spec (hm : 0 < m) :
    (10 : ℚ) ^ (decimalTop m q - 1) ≤ m * 2 ^ q ∧ (m : ℚ) * 2 ^ q < 10 ^ decimalTop m q := by
  rw [← ratio_eq]
  exact decimalScale_spec (Nat.mul_pos hm (Nat.pow_pos two_pos)) (Nat.pow_pos two_pos)

theorem unitsBelow_spec (m : Nat) (q : ℤ) (n : Nat) :
    unitsBelow m q n * (10 : ℚ) ^ (decimalTop m q - n) ≤ m * 2 ^ q ∧
      (m : ℚ) * 2 ^ q < (unitsBelow m q n + 1) * 10 ^ (decimalTop m q - n) := by
  have hunit : (0 : ℚ) < 10 ^ (decimalTop m q - n) := zpow_pos (by norm_num) _
  have hfloor : unitsBelow m q n = ⌊(m : ℚ) * 2 ^ q / 10 ^ (decimalTop m q - n)⌋₊ := by
    rw [unitsBelow, ← Nat.floor_div_eq_div (K := ℚ), ← ratio_eq, ten_zpow_eq_div]
    congr 1
    push_cast
    field_simp
  rw [← le_div_iff₀ hunit, ← div_lt_iff₀ hunit, hfloor]
  exact ⟨Nat.floor_le (by positivity), Nat.lt_floor_add_one _⟩

theorem unitsBelow_lt (hm : 0 < m) : unitsBelow m q n < 10 ^ n := by
  have hlow := (unitsBelow_spec m q n).1
  have hhigh := (decimalTop_spec (q := q) hm).2
  have hlt : (unitsBelow m q n : ℚ) * 10 ^ (decimalTop m q - n) <
      (10 ^ n : Nat) * 10 ^ (decimalTop m q - n) := by
    refine (hlow.trans_lt hhigh).trans_le ?_
    rw [Nat.cast_pow, Nat.cast_ofNat, ← zpow_natCast, ← zpow_add₀ (by norm_num), add_sub_cancel]
  exact_mod_cast lt_of_mul_lt_mul_right hlt (zpow_nonneg (by norm_num) _)

theorem candidate_sound {d : Decimal} (h : candidate m q n = some d) :
    readsBack m q d = true ∧
      (d = ⟨unitsBelow m q n, decimalTop m q - n⟩ ∨
        d = ⟨unitsBelow m q n + 1, decimalTop m q - n⟩) := by
  unfold candidate at h
  dsimp only at h
  split at h
  · cases h
  case h_2 hlow _ =>
    obtain rfl := Option.some.inj h
    exact ⟨hlow, .inl rfl⟩
  case h_3 _ hhigh =>
    obtain rfl := Option.some.inj h
    exact ⟨hhigh, .inr rfl⟩
  case h_4 hlow hhigh =>
    split at h
    · obtain rfl := Option.some.inj h
      exact ⟨hhigh, .inr rfl⟩
    · obtain rfl := Option.some.inj h
      exact ⟨hlow, .inl rfl⟩
    · obtain rfl := Option.some.inj h
      split_ifs
      · exact ⟨hlow, .inl rfl⟩
      · exact ⟨hhigh, .inr rfl⟩

theorem isSome_candidate_of_readsBack
    (h : readsBack m q ⟨unitsBelow m q n, decimalTop m q - n⟩ = true ∨
      readsBack m q ⟨unitsBelow m q n + 1, decimalTop m q - n⟩ = true) :
    (candidate m q n).isSome = true := by
  unfold candidate
  dsimp only
  split
  case h_1 hlow hhigh =>
    exact (h.elim (fun h => Bool.false_ne_true (hlow.symm.trans h))
      fun h => Bool.false_ne_true (hhigh.symm.trans h)).elim
  case h_4 => split <;> rfl
  all_goals rfl

/-- **There is a candidate when the grid meets the interval**: the neighbour on that side lies
between the magnitude and the point of the grid. -/
theorem isSome_candidate (hm : 0 < m) {s : Nat}
    (h : Rounds m q (s * 10 ^ (decimalTop m q - n))) : (candidate m q n).isSome = true := by
  have hunit : (0 : ℚ) < 10 ^ (decimalTop m q - n) := zpow_pos (by norm_num) _
  obtain ⟨hbelow, habove⟩ := unitsBelow_spec m q n
  refine isSome_candidate_of_readsBack ?_
  rw [readsBack_iff hm, readsBack_iff hm, Decimal.toRat, Decimal.toRat]
  obtain hle | hlt := Nat.lt_or_ge (unitsBelow m q n) s
  · right
    refine (rounds_self m q).convex h ?_ ?_
    · push_cast
      exact habove.le
    · exact mul_le_mul_of_nonneg_right (by exact_mod_cast hle) hunit.le
  · left
    exact h.convex (rounds_self m q) (mul_le_mul_of_nonneg_right (by exact_mod_cast hlt) hunit.le)
      hbelow

end Binary64

/-! ## Zeros at the end -/

namespace Decimal

variable (d : Decimal) (fuel : Nat)

theorem toRat_stripZeros : (d.stripZeros fuel).toRat = d.toRat := by
  induction fuel generalizing d with
  | zero => rfl
  | succ fuel ih =>
    rw [stripZeros]
    split_ifs with hzero
    · rw [ih, toRat, toRat, zpow_add_one₀ (by norm_num)]
      have hdigits : (d.digits : ℚ) = (d.digits / 10 : Nat) * 10 := by
        exact_mod_cast (Nat.div_mul_cancel (Nat.dvd_of_mod_eq_zero hzero.2)).symm
      rw [hdigits]
      ring
    · rfl

theorem digits_stripZeros_le : (d.stripZeros fuel).digits ≤ d.digits := by
  induction fuel generalizing d with
  | zero => exact le_rfl
  | succ fuel ih =>
    rw [stripZeros]
    split_ifs
    · exact (ih _).trans (Nat.div_le_self _ _)
    · exact le_rfl

theorem exponent_le_stripZeros : d.exponent ≤ (d.stripZeros fuel).exponent := by
  induction fuel generalizing d with
  | zero => exact le_rfl
  | succ fuel ih =>
    rw [stripZeros]
    split_ifs
    · exact (Int.le_add_one le_rfl).trans (ih _)
    · exact le_rfl

/-- The digits fit a significand even with a zero behind the point, and the exponent is that of an
exact power of ten. -/
structure Short (d : Decimal) : Prop where
  digits_pos : 0 < d.digits
  digits_lt : d.digits * 10 ^ (d.exponent + 1).toNat < 2 ^ 53
  exponent_ge : -22 ≤ d.exponent

end Decimal

/-! ## The shortest decimal -/

namespace Binary64

variable {m : Nat} {q : ℤ} {k : Nat}

/-- **The shortest decimal reads back**, and it has no more digits than a grid that meets the
interval. -/
theorem shortestMagnitude_spec (hm : 0 < m) (hk : 1 ≤ k ∧ k ≤ 17) {s : Nat}
    (h : Rounds m q (s * 10 ^ (decimalTop m q - k))) :
    Rounds m q (shortestMagnitude m q).toRat ∧ (shortestMagnitude m q).digits ≤ 10 ^ k ∧
      decimalTop m q - k ≤ (shortestMagnitude m q).exponent := by
  have hinitial : List.range' 1 k <+: List.range' 1 17 :=
    ⟨List.range' (1 + k) (17 - k), by rw [List.range'_append_1, Nat.add_sub_cancel' hk.2]⟩
  have hsome : ((List.range' 1 k).findSome? (candidate m q)).isSome = true :=
    List.findSome?_isSome_iff.mpr ⟨k, List.mem_range'_1.mpr (by omega), isSome_candidate hm h⟩
  obtain ⟨d, hd⟩ := Option.isSome_iff_exists.mp hsome
  have hshortest : shortestMagnitude m q = d.stripZeros 400 := by
    rw [shortestMagnitude, hinitial.findSome?_eq_some hd]
    rfl
  obtain ⟨n, hn, hcandidate⟩ := List.exists_of_findSome?_eq_some hd
  obtain ⟨hreads, hneighbour⟩ := candidate_sound hcandidate
  have hn : n ≤ k := by
    have hrange := List.mem_range'_1.mp hn
    omega
  have hlt := (unitsBelow_lt (q := q) (n := n) hm).trans_le (Nat.pow_le_pow_right (by decide) hn)
  have hdigits : d.digits ≤ 10 ^ k := by
    obtain rfl | rfl := hneighbour
    · exact hlt.le
    · exact hlt
  have hexponent : decimalTop m q - k ≤ d.exponent := by
    obtain rfl | rfl := hneighbour
    · exact Int.sub_le_sub_left (by omega) _
    · exact Int.sub_le_sub_left (by omega) _
  rw [hshortest, Decimal.toRat_stripZeros]
  exact ⟨(readsBack_iff hm d).mp hreads, (d.digits_stripZeros_le 400).trans hdigits,
    hexponent.trans (d.exponent_le_stripZeros 400)⟩

/-! ## Numbers on a display -/

theorem exists_twoPow {e : ℤ} (he : -1022 ≤ e ∧ e ≤ 1023) :
    ∃ y : Binary64, y.IsFinite ∧ y.toRat = 2 ^ e := by
  obtain ⟨k, hk⟩ := Int.eq_ofNat_of_zero_le (show 0 ≤ e + 1022 by omega)
  have hfits : (k + 1) * 0x10000000000000 < infinity.magnitude := by
    rw [magnitude_infinity]
    omega
  have hfinite : IsFinite ⟨UInt64.ofNat ((k + 1) * 0x10000000000000)⟩ := by
    rwa [isFinite_iff, magnitude_ofNat_bits hfits]
  refine ⟨_, hfinite, ?_⟩
  rw [toRat_packed (j := k) (m := 2 ^ 52) (by decide) (.inr le_rfl) hfinite
    (isNegative_ofNat_bits hfits) (by rw [magnitude_ofNat_bits hfits]; omega)]
  rw [Nat.cast_pow, Nat.cast_ofNat, ← zpow_natCast, ← zpow_add₀ two_ne_zero]
  congr 1
  omega

section

variable {x y : Binary64} {r : ℚ}

theorem IsNearest.le_toRat (h : x.IsNearest r) (hy : y.IsFinite) (hle : y.toRat ≤ r) :
    y.toRat ≤ x.toRat := by
  have hnear := h.le y hy
  rw [abs_of_nonpos (by linarith : y.toRat - r ≤ 0)] at hnear
  linarith [neg_abs_le (x.toRat - r)]

theorem IsNearest.toRat_le (h : x.IsNearest r) (hy : y.IsFinite) (hle : r ≤ y.toRat) :
    x.toRat ≤ y.toRat := by
  have hnear := h.le y hy
  rw [abs_of_nonneg (by linarith : 0 ≤ y.toRat - r)] at hnear
  linarith [le_abs_self (x.toRat - r)]

end

section

variable {x : Binary64} {n : Nat} {e : ℤ} (hpositive : x.isNegative = false)
  (h : x.IsNearest (n * 10 ^ e)) (hn : 1 ≤ n ∧ n ≤ 99999) (he : -12 ≤ e ∧ e ≤ 6)

include h hn he

theorem displayed_bounds : (2 : ℚ) ^ (-40 : ℤ) ≤ x.toRat ∧ x.toRat ≤ 2 ^ (37 : ℤ) := by
  obtain ⟨y, hy, hlow⟩ := exists_twoPow (e := -40) (by decide)
  obtain ⟨z, hz, hhigh⟩ := exists_twoPow (e := 37) (by decide)
  have hpos : (0 : ℚ) < 10 ^ e := zpow_pos (by norm_num) e
  have hleast : (2 : ℚ) ^ (-40 : ℤ) ≤ n * 10 ^ e := by
    calc (2 : ℚ) ^ (-40 : ℤ) ≤ 10 ^ (-12 : ℤ) := by norm_num
      _ ≤ 10 ^ e := zpow_le_zpow_right₀ (by norm_num) he.1
      _ ≤ n * 10 ^ e := le_mul_of_one_le_left hpos.le (by exact_mod_cast hn.1)
  have hgreatest : n * (10 : ℚ) ^ e ≤ 2 ^ (37 : ℤ) := by
    calc n * (10 : ℚ) ^ e ≤ 99999 * 10 ^ (6 : ℤ) := by
          refine mul_le_mul (by exact_mod_cast hn.2) ?_ hpos.le (by norm_num)
          exact zpow_le_zpow_right₀ (by norm_num) he.2
      _ ≤ 2 ^ (37 : ℤ) := by norm_num
  constructor
  · rw [← hlow]
    exact h.le_toRat hy (hlow.trans_le hleast)
  · rw [← hhigh]
    exact h.toRat_le hz (hgreatest.trans_eq hhigh.symm)

include hpositive

theorem exists_displayed_significand : ∃ m j, x.significand? = some (m, (j : ℤ) - 1074) ∧
    x.toRat = m * 2 ^ ((j : ℤ) - 1074) ∧ 2 ^ 52 ≤ m ∧
    ∀ s, Rounds m ((j : ℤ) - 1074) s ↔ x.IsNearest s := by
  obtain ⟨j, m, hm, hnormal, hmagnitude⟩ := x.exists_packed
  obtain ⟨hlow, hhigh⟩ := displayed_bounds h hn he
  have hvalue := toRat_packed hm.le hnormal h.finite hpositive hmagnitude
  have hunit : (0 : ℚ) < 2 ^ ((j : ℤ) - 1074) := zpow_pos two_pos _
  -- a subnormal number lies far below what a display shows
  have hwide : 2 ^ 52 ≤ m := by
    by_contra hlt
    obtain rfl : j = 0 := hnormal.resolve_right hlt
    have hm : (m : ℚ) ≤ 2 ^ (52 : ℤ) := by exact_mod_cast (Nat.not_le.mp hlt).le
    have hsmall : x.toRat < 2 ^ (-40 : ℤ) := by
      calc x.toRat = m * 2 ^ (((0 : Nat) : ℤ) - 1074) := hvalue
        _ ≤ 2 ^ (52 : ℤ) * 2 ^ (((0 : Nat) : ℤ) - 1074) := mul_le_mul_of_nonneg_right hm hunit.le
        _ = 2 ^ (-1022 : ℤ) := (zpow_add₀ two_ne_zero _ _).symm
        _ < 2 ^ (-40 : ℤ) := zpow_lt_zpow_right₀ one_lt_two (by decide)
    exact hsmall.not_ge hlow
  have hj : j ≤ 1059 := by
    have hle : (2 : ℚ) ^ (52 + ((j : ℤ) - 1074)) ≤ 2 ^ (37 : ℤ) := by
      calc (2 : ℚ) ^ (52 + ((j : ℤ) - 1074)) = 2 ^ (52 : ℤ) * 2 ^ ((j : ℤ) - 1074) :=
            zpow_add₀ two_ne_zero _ _
        _ ≤ m * 2 ^ ((j : ℤ) - 1074) :=
            mul_le_mul_of_nonneg_right (by exact_mod_cast hwide) hunit.le
        _ = x.toRat := hvalue.symm
        _ ≤ 2 ^ (37 : ℤ) := hhigh
    have hexponent := (zpow_le_zpow_iff_right₀ (one_lt_two (α := ℚ))).mp hle
    omega
  refine ⟨m, j, significand?_packed h.finite hm hnormal hmagnitude, hvalue, hwide, fun s => ?_⟩
  refine rounds_iff_isNearest h.finite hpositive hm hnormal hmagnitude (by omega) ?_
  rw [magnitude_infinity]
  omega

omit hpositive h hn he in
/-- **The grid of five digits** around a displayed number is fine enough for it: the value is off by
much less than the digits leave room for. -/
theorem decimalTop_le {m : Nat} {q : ℤ} (hn : n ≤ 99999) (hm : 2 ^ 52 ≤ m)
    (hrounds : Rounds m q (n * 10 ^ e)) : decimalTop m q ≤ e + 5 := by
  have hunit : (0 : ℚ) < 2 ^ q := zpow_pos two_pos q
  have hten : (0 : ℚ) < 10 ^ e := zpow_pos (by norm_num) e
  have hm' : (2 : ℚ) ^ 52 ≤ m := by exact_mod_cast hm
  have hlow : ((m : ℚ) - 1 / 2) * 2 ^ q ≤ n * 10 ^ e := by
    refine le_trans (mul_le_mul_of_nonneg_right ?_ hunit.le) hrounds.low
    unfold lowEnd
    split_ifs <;> linarith
  have hnumber : (n : ℚ) * 10 ^ e ≤ 99999 * 10 ^ e :=
    mul_le_mul_of_nonneg_right (by exact_mod_cast hn) hten.le
  have hrelative : (2 : ℚ) ^ 52 * 2 ^ q ≤ m * 2 ^ q := mul_le_mul_of_nonneg_right hm' hunit.le
  have hlt : (m : ℚ) * 2 ^ q < 10 ^ (e + 5) := by
    rw [zpow_add₀ (by norm_num)]
    norm_num at hrelative ⊢
    linarith
  have hexponent : decimalTop m q - 1 < e + 5 :=
    (zpow_lt_zpow_iff_right₀ (by norm_num : (1 : ℚ) < 10)).mp
      ((decimalTop_spec (by omega)).1.trans_lt hlt)
  omega

omit hpositive h hn he in
theorem short_of_rounds {m : Nat} {q : ℤ} {d : Decimal} (hm : 2 ^ 52 ≤ m)
    (hdigits : d.digits ≤ 10 ^ 5) (hrounds : Rounds m q d.toRat) (hgreatest : (m : ℚ) * 2 ^ q ≤ 2 ^ (37 : ℤ))
    (hexponent : -22 ≤ d.exponent) : d.Short := by
  have hunit : (0 : ℚ) < 2 ^ q := zpow_pos two_pos q
  have hm' : (2 : ℚ) ^ 52 ≤ m := by exact_mod_cast hm
  refine ⟨?_, ?_, hexponent⟩
  · have hlow : 0 < lowEnd m q := by
      unfold lowEnd
      split_ifs <;> linarith
    have hpos : 0 < d.toRat := (mul_pos hlow hunit).trans_le hrounds.low
    rw [Decimal.toRat] at hpos
    exact Nat.cast_pos.mp (pos_of_mul_pos_left hpos (zpow_nonneg (by norm_num) _))
  · obtain hneg | hnonneg := lt_or_ge d.exponent 0
    · rw [Int.toNat_of_nonpos (by omega)]
      omega
    · obtain ⟨k, hk⟩ := Int.eq_ofNat_of_zero_le hnonneg
      have hhigh : d.toRat ≤ 2 ^ 38 := by
        refine hrounds.high.trans ?_
        norm_num at hgreatest ⊢
        nlinarith
      rw [Decimal.toRat, hk, zpow_natCast] at hhigh
      have hnat : d.digits * 10 ^ k ≤ 2 ^ 38 := by exact_mod_cast hhigh
      rw [hk, Int.toNat_natCast_add_one, Nat.pow_succ, ← Nat.mul_assoc]
      omega

/-- **The shortest decimal of a displayed number** is one to which the value is nearest, and it has
few digits. -/
theorem shortest_displayed : x.shortest.Short ∧ x.IsNearest x.shortest.toRat := by
  obtain ⟨m, j, hsignificand, hvalue, hm, hrounds⟩ := exists_displayed_significand hpositive h hn he
  obtain ⟨hleast, hgreatest⟩ := displayed_bounds h hn he
  generalize (j : ℤ) - 1074 = q at hsignificand hvalue hrounds
  have hpos : 0 < m := by omega
  have hunit : (0 : ℚ) < 2 ^ q := zpow_pos two_pos q
  have htop := decimalTop_le hn.2 hm ((hrounds _).mpr h)
  have hgrid : ((n * 10 ^ (e + 5 - decimalTop m q).toNat : Nat) : ℚ) *
      10 ^ (decimalTop m q - (5 : Nat)) = n * 10 ^ e := by
    rw [Nat.cast_mul, Nat.cast_pow, Nat.cast_ofNat, ← zpow_natCast, mul_assoc,
      ← zpow_add₀ (by norm_num)]
    congr 2
    omega
  obtain ⟨hshortest, hdigits, hexponent⟩ :=
    shortestMagnitude_spec hpos (k := 5) (by decide) (hgrid ▸ (hrounds _).mpr h)
  have heq : x.shortest = shortestMagnitude m q := by
    rw [shortest, hsignificand]
    exact if_neg hpos.ne'
  rw [heq]
  refine ⟨short_of_rounds hm hdigits hshortest ?_ ?_, (hrounds _).mp hshortest⟩
  · rwa [← hvalue]
  · have hlow : (10 : ℚ) ^ (-13 : ℤ) < 10 ^ decimalTop m q := by
      calc (10 : ℚ) ^ (-13 : ℤ) < 2 ^ (-40 : ℤ) := by norm_num
        _ ≤ m * 2 ^ q := hvalue ▸ hleast
        _ < 10 ^ decimalTop m q := (decimalTop_spec hpos).2
    have htop := (zpow_lt_zpow_iff_right₀ (by norm_num : (1 : ℚ) < 10)).mp hlow
    omega

end

end Binary64

end Multimeter
