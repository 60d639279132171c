import Multimeter.Decimal.Shortest
import Multimeter.Proofs.Rounding

/-!
# Rounding intervals

The numbers to which a pattern is nearest form an interval, and a decimal reads back as a pattern
when it lies in it.

* `Decimal.toRat`: what a decimal stands for.
* `Binary64.Rounds`: the interval of a significand and an exponent.
* `Binary64.readsBack_iff`: a decimal reads back when it is in the interval.
* **`Binary64.rounds_iff_isNearest`**: it holds the numbers to which the pattern is nearest.
-/

namespace Multimeter

namespace Decimal

def toRat (d : Decimal) : ℚ := d.digits * 10 ^ d.exponent

theorem compareRatio_eq (d : Decimal) (num : Nat) {den : Nat} (hden : 0 < den) :
    d.compareRatio num den = compare d.toRat (num / den) := by
  have hden' : (0 : ℚ) < den := Nat.cast_pos.mpr hden
  have hten : (0 : ℚ) < (Nat.pow 10 (-d.exponent).toNat : Nat) :=
    Nat.cast_pos.mpr (Nat.pow_pos (by decide))
  have hvalue : d.toRat =
      (d.digits * Nat.pow 10 d.exponent.toNat : Nat) / (Nat.pow 10 (-d.exponent).toNat : Nat) := by
    rw [toRat, Binary64.ten_zpow_eq_div]
    push_cast
    ring
  have hlt : d.digits * Nat.pow 10 d.exponent.toNat * den < num * Nat.pow 10 (-d.exponent).toNat ↔
      d.toRat < num / den := by
    rw [hvalue, div_lt_div_iff₀ hten hden']
    exact_mod_cast Iff.rfl
  have hgt : num * Nat.pow 10 (-d.exponent).toNat < d.digits * Nat.pow 10 d.exponent.toNat * den ↔
      num / den < d.toRat := by
    rw [hvalue, div_lt_div_iff₀ hden' hten]
    exact_mod_cast Iff.rfl
  unfold compareRatio
  obtain h | h | h := lt_trichotomy d.toRat (num / den)
  · rw [compare_lt_iff_lt.mpr h, Nat.compare_eq_lt.mpr (hlt.mpr h)]
  · have heq : d.digits * Nat.pow 10 d.exponent.toNat * den =
        num * Nat.pow 10 (-d.exponent).toNat :=
      le_antisymm (not_lt.mp fun hn => (hgt.mp hn).ne h.symm) (not_lt.mp fun hn => (hlt.mp hn).ne h)
    rw [compare_eq_iff_eq.mpr h, Nat.compare_eq_eq.mpr heq]
  · rw [compare_gt_iff_gt.mpr h, Nat.compare_eq_gt.mpr (hgt.mpr h)]

end Decimal

namespace Binary64

/-! ## The interval of a pattern -/

/-- Halfway to the pattern below, in units of the last place. Below a power of two the unit is half
as great, except at the bottom of the exponent range. -/
def lowEnd (m : Nat) (q : ℤ) : ℚ :=
  if m = 0x10000000000000 ∧ -1074 < q then m - 1 / 4 else m - 1 / 2

/-- The numbers from halfway to the pattern below to halfway to the pattern above; the ends belong to
even significands. -/
structure Rounds (m : Nat) (q : ℤ) (r : ℚ) : Prop where
  low : lowEnd m q * 2 ^ q ≤ r
  high : r ≤ (m + 1 / 2) * 2 ^ q
  even : r = lowEnd m q * 2 ^ q ∨ r = (m + 1 / 2) * 2 ^ q → m % 2 = 0

variable {m : Nat} {q : ℤ} {r s t : ℚ}

theorem Rounds.convex (hr : Rounds m q r) (ht : Rounds m q t) (hrs : r ≤ s) (hst : s ≤ t) :
    Rounds m q s where
  low := hr.low.trans hrs
  high := hst.trans ht.high
  even := by
    rintro (hs | hs)
    · exact hr.even (.inl (le_antisymm (hrs.trans hs.le) hr.low))
    · exact ht.even (.inr (le_antisymm ht.high (hs.ge.trans hst)))

theorem lowEnd_lt (m : Nat) (q : ℤ) : lowEnd m q < m := by
  unfold lowEnd
  split_ifs <;> linarith

theorem rounds_self (m : Nat) (q : ℤ) : Rounds m q (m * 2 ^ q) := by
  have hunit : (0 : ℚ) < 2 ^ q := zpow_pos two_pos q
  have hlow : lowEnd m q * 2 ^ q < m * 2 ^ q := mul_lt_mul_of_pos_right (lowEnd_lt m q) hunit
  have hhigh : (m : ℚ) * 2 ^ q < (m + 1 / 2) * 2 ^ q :=
    mul_lt_mul_of_pos_right (by linarith) hunit
  exact ⟨hlow.le, hhigh.le, fun h => by rcases h with h | h <;> linarith⟩

theorem Rounds.abs_sub_le (h : Rounds m q r) : |(m : ℚ) - r / 2 ^ q| ≤ 1 / 2 := by
  have hunit : (0 : ℚ) < 2 ^ q := zpow_pos two_pos q
  have hlow : lowEnd m q ≤ r / 2 ^ q := (le_div_iff₀ hunit).mpr h.low
  have hhigh : r / 2 ^ q ≤ m + 1 / 2 := (div_le_iff₀ hunit).mpr h.high
  have hend : (m : ℚ) - 1 / 2 ≤ lowEnd m q := by
    unfold lowEnd
    split_ifs <;> linarith
  exact abs_le.mpr ⟨by linarith, by linarith⟩

theorem Rounds.even_of_half (h : Rounds m q r) (htie : |(m : ℚ) - r / 2 ^ q| = 1 / 2) :
    m % 2 = 0 := by
  have hunit : (0 : ℚ) < 2 ^ q := zpow_pos two_pos q
  obtain htie | htie := eq_or_eq_neg_of_abs_eq htie
  · have hlow : lowEnd m q ≤ r / 2 ^ q := (le_div_iff₀ hunit).mpr h.low
    have hend : r / 2 ^ q = lowEnd m q := by
      unfold lowEnd at hlow ⊢
      split_ifs at hlow ⊢ <;> linarith
    exact h.even (.inl ((div_eq_iff hunit.ne').mp hend))
  · have hend : r / 2 ^ q = m + 1 / 2 := by linarith
    exact h.even (.inr ((div_eq_iff hunit.ne').mp hend))

/-- An end that is not passed is met, and then the significand is even. -/
theorem rounds_iff : Rounds m q r ↔
    (lowEnd m q * 2 ^ q < r ∨ m % 2 = 0 ∧ r = lowEnd m q * 2 ^ q) ∧
      (r < (m + 1 / 2) * 2 ^ q ∨ m % 2 = 0 ∧ r = (m + 1 / 2) * 2 ^ q) := by
  constructor
  · intro h
    refine ⟨h.low.lt_or_eq.imp_right fun hl => ?_, h.high.lt_or_eq.imp_right fun hh => ?_⟩
    · exact ⟨h.even (.inl hl.symm), hl.symm⟩
    · exact ⟨h.even (.inr hh), hh⟩
  · rintro ⟨hl, hh⟩
    refine ⟨hl.elim le_of_lt fun h => h.2.ge, hh.elim le_of_lt fun h => h.2.le, ?_⟩
    rintro (he | he)
    · exact (hl.resolve_left he.le.not_gt).1
    · exact (hh.resolve_left he.ge.not_gt).1

theorem cast_lowQuarters (hm : 0 < m) (q : ℤ) :
    ((if (m == 0x10000000000000 && decide (q > -1074)) = true then 4 * m - 1
      else 4 * m - 2 : Nat) : ℚ) / 4 = lowEnd m q := by
  unfold lowEnd
  by_cases hnarrow : m = 0x10000000000000 ∧ -1074 < q
  · obtain ⟨rfl, hq⟩ := hnarrow
    simp [hq]
    norm_num
  · rw [if_neg hnarrow, if_neg (by simpa using hnarrow), Nat.cast_sub (by omega)]
    push_cast
    ring

theorem readsBack_iff (hm : 0 < m) (d : Decimal) : readsBack m q d ↔ Rounds m q d.toRat := by
  have hden : 0 < 4 * Nat.pow 2 (-q).toNat := Nat.mul_pos (by decide) (Nat.pow_pos two_pos)
  have hscale (k : Nat) : ((k * Nat.pow 2 q.toNat : Nat) : ℚ) / (4 * Nat.pow 2 (-q).toNat : Nat) =
      k / 4 * 2 ^ q := by
    rw [zpow_eq_div two_ne_zero q]
    simp only [Nat.pow_eq]
    push_cast
    field_simp
  have hhigh : ((4 * m + 2 : Nat) : ℚ) / 4 = m + 1 / 2 := by
    push_cast
    ring
  unfold readsBack
  dsimp only
  rw [Decimal.compareRatio_eq _ _ hden, Decimal.compareRatio_eq _ _ hden, hscale, hscale,
    cast_lowQuarters hm, hhigh, rounds_iff]
  simp only [Bool.and_eq_true, Bool.or_eq_true, beq_iff_eq, compare_gt_iff_gt, compare_lt_iff_lt,
    compare_eq_iff_eq]

/-! ## Nearest patterns -/

theorem abs_sub_le_abs_sub_iff_le {a b : ℚ} (h : a < b) : |a - r| ≤ |b - r| ↔ r ≤ (a + b) / 2 := by
  rw [← sq_le_sq]
  constructor <;> intro <;> nlinarith

theorem abs_sub_le_abs_sub_iff_ge {a b : ℚ} (h : a < b) : |b - r| ≤ |a - r| ↔ (a + b) / 2 ≤ r := by
  rw [← sq_le_sq]
  constructor <;> intro <;> nlinarith

theorem abs_sub_midpoint (a b : ℚ) : |a - (a + b) / 2| = |b - (a + b) / 2| := by
  rw [← abs_neg (b - (a + b) / 2)]
  congr 1
  ring

/-- Below a power of two the patterns stand twice as close, and a quarter of a unit is half a finer
one. -/
theorem isNearest_below_power {x : Binary64} (hx : x.IsFinite) (heven : x.magnitude % 2 = 0)
    (hvalue : x.toRat = (0x10000000000000 : Nat) * 2 ^ q)
    (hlow : ((0x10000000000000 : Nat) : ℚ) - 1 / 4 ≤ r / 2 ^ q)
    (hbelow : r / 2 ^ q < (0x10000000000000 : Nat)) : x.IsNearest r := by
  have hunit : (0 : ℚ) < 2 ^ (q - 1) := zpow_pos two_pos _
  have hq : (2 : ℚ) ^ q = 2 ^ (q - 1) * 2 := by
    rw [← zpow_add_one₀ two_ne_zero, sub_add_cancel]
  have hfine : r / 2 ^ (q - 1) = r / 2 ^ q * 2 := by
    rw [hq]
    field_simp
  have hvalue : x.toRat = (0x20000000000000 : Nat) * 2 ^ (q - 1) := by
    rw [hvalue, hq]
    push_cast
    ring
  push_cast at hlow hbelow
  refine isNearest_of_multiple hx hvalue ?_ (fun _ => rfl) (fun _ => ?_) fun _ => heven
  · rw [hfine]
    push_cast
    exact abs_le.mpr ⟨by linarith, by linarith⟩
  · have hgreat : (2 : ℚ) ^ (52 : ℤ) ≤ r / 2 ^ (q - 1) := by
      rw [hfine]
      norm_num
      linarith
    rw [zpow_add₀ two_ne_zero, mul_comm]
    exact (le_div_iff₀ hunit).mp hgreat

section

variable {x : Binary64} {j : Nat} (hx : x.IsFinite) (hpositive : x.isNegative = false)
  (hm : m < 2 ^ 53) (hnormal : j = 0 ∨ 2 ^ 52 ≤ m)
  (hmagnitude : x.magnitude = j * 0x10000000000000 + m)

include hx hm hnormal hmagnitude

theorem significand?_packed : x.significand? = some (m, (j : ℤ) - 1074) := by
  rw [isFinite_iff, magnitude_infinity, hmagnitude] at hx
  by_cases hlt : m < 2 ^ 52
  · obtain rfl : j = 0 := by omega
    have hm : x.magnitude = m := by omega
    rw [significand?_of_lt (by omega), hm]
    rfl
  · obtain ⟨f, rfl⟩ := Nat.exists_eq_add_of_le (Nat.not_lt.mp hlt)
    have hnext := hmagnitude.trans (show _ = (j + 1) * 0x10000000000000 + f by omega)
    exact significand?_of_le (by omega) (by omega) hnext

include hpositive

/-- **A number in the interval has its pattern for the nearest one.** -/
theorem Rounds.isNearest (h : Rounds m ((j : ℤ) - 1074) r) : x.IsNearest r := by
  have hvalue := toRat_packed hm.le hnormal hx hpositive hmagnitude
  have hparity : m % 2 = 0 → x.magnitude % 2 = 0 := by omega
  have hgreater : -1074 < (j : ℤ) - 1074 → 2 ^ 52 ≤ m := by omega
  generalize (j : ℤ) - 1074 = q at h hvalue hgreater
  have hunit : (0 : ℚ) < 2 ^ q := zpow_pos two_pos q
  by_cases hnarrow : (m = 0x10000000000000 ∧ -1074 < q) ∧ r / 2 ^ q < m
  · obtain ⟨⟨rfl, hq⟩, hbelow⟩ := hnarrow
    have hlow : lowEnd 0x10000000000000 q ≤ r / 2 ^ q := (le_div_iff₀ hunit).mpr h.low
    rw [lowEnd, if_pos ⟨rfl, hq⟩] at hlow
    exact isNearest_below_power hx (hparity rfl) hvalue hlow hbelow
  · refine isNearest_of_multiple hx hvalue h.abs_sub_le h.even_of_half (fun hq => ?_) hparity
    have hgreat : (2 ^ 52 : ℚ) ≤ r / 2 ^ q := by
      obtain hm | hm := (hgreater hq).eq_or_lt
      · have hcast : (m : ℚ) = 2 ^ 52 := by exact_mod_cast hm.symm
        have hbelow : (m : ℚ) ≤ r / 2 ^ q := not_lt.mp fun hlt => hnarrow ⟨⟨hm.symm, hq⟩, hlt⟩
        exact hcast ▸ hbelow
      · have hcast : (2 ^ 52 : ℚ) + 1 ≤ m := by exact_mod_cast hm
        have hnear := (abs_le.mp h.abs_sub_le).2
        linarith
    rw [zpow_add₀ two_ne_zero, mul_comm]
    exact (le_div_iff₀ hunit).mp hgreat

omit hx hpositive in
theorem exists_above (hbelow : x.magnitude + 1 < infinity.magnitude) :
    ∃ y : Binary64, y.IsFinite ∧ y.toRat = (m + 1) * 2 ^ ((j : ℤ) - 1074) := by
  have hy : IsFinite ⟨UInt64.ofNat (x.magnitude + 1)⟩ := by
    rwa [isFinite_iff, magnitude_ofNat_bits hbelow]
  refine ⟨_, hy, ?_⟩
  have hvalue := toRat_packed (j := j) (m := m + 1) hm (by omega) hy (isNegative_ofNat_bits hbelow)
    (by rw [magnitude_ofNat_bits hbelow, hmagnitude, Nat.add_assoc])
  rwa [Nat.cast_add_one] at hvalue

omit hpositive in
theorem exists_below (hzero : 0 < m) : ∃ y : Binary64, y.IsFinite ∧
    y.toRat = (2 * lowEnd m ((j : ℤ) - 1074) - m) * 2 ^ ((j : ℤ) - 1074) := by
  have hbelow : x.magnitude - 1 < infinity.magnitude :=
    (Nat.sub_le _ _).trans_lt ((isFinite_iff x).mp hx)
  have hy : IsFinite ⟨UInt64.ofNat (x.magnitude - 1)⟩ := by
    rwa [isFinite_iff, magnitude_ofNat_bits hbelow]
  refine ⟨_, hy, ?_⟩
  by_cases hnarrow : m = 0x10000000000000 ∧ -1074 < (j : ℤ) - 1074
  · obtain ⟨k, rfl⟩ : ∃ k, j = k + 1 := ⟨j - 1, by omega⟩
    have hvalue := toRat_packed (j := k) (m := 2 ^ 53 - 1) (by decide) (Or.inr (by decide)) hy
      (isNegative_ofNat_bits hbelow) (by rw [magnitude_ofNat_bits hbelow]; omega)
    have hscale : (2 : ℚ) ^ ((k + 1 : Nat) - 1074 : ℤ) = 2 ^ ((k : ℤ) - 1074) * 2 := by
      rw [← zpow_add_one₀ two_ne_zero]
      congr 1
      omega
    rw [hvalue, lowEnd, if_pos hnarrow, hnarrow.1, hscale]
    norm_num
    ring
  · have hvalue := toRat_packed (j := j) (m := m - 1) (by omega) (by omega) hy
      (isNegative_ofNat_bits hbelow) (by rw [magnitude_ofNat_bits hbelow]; omega)
    rw [hvalue, lowEnd, if_neg hnarrow, Nat.cast_pred hzero]
    ring

/-- **The interval holds the numbers to which the pattern is nearest.** The patterns below and above
are as far away as the ends from the other side. -/
theorem rounds_iff_isNearest (hzero : 0 < m) (hbelow : x.magnitude + 1 < infinity.magnitude) :
    Rounds m ((j : ℤ) - 1074) r ↔ x.IsNearest r := by
  refine ⟨Rounds.isNearest hx hpositive hm hnormal hmagnitude, fun h => ?_⟩
  have hvalue := toRat_packed hm.le hnormal hx hpositive hmagnitude
  have hparity : x.magnitude % 2 = 0 → m % 2 = 0 := by omega
  obtain ⟨y, hy, hyvalue⟩ := exists_above hm hnormal hmagnitude hbelow
  obtain ⟨z, hz, hzvalue⟩ := exists_below hx hm hnormal hmagnitude hzero
  generalize (j : ℤ) - 1074 = q at hvalue hyvalue hzvalue ⊢
  have hunit : (0 : ℚ) < 2 ^ q := zpow_pos two_pos q
  have hlow : lowEnd m q * 2 ^ q < m * 2 ^ q := mul_lt_mul_of_pos_right (lowEnd_lt m q) hunit
  have hhigh : (x.toRat + y.toRat) / 2 = (m + 1 / 2) * 2 ^ q := by rw [hvalue, hyvalue]; ring
  have hend : (z.toRat + x.toRat) / 2 = lowEnd m q * 2 ^ q := by rw [hvalue, hzvalue]; ring
  have hxy : x.toRat < y.toRat := by linarith
  have hzx : z.toRat < x.toRat := by linarith
  refine ⟨?_, ?_, ?_⟩
  · rw [← hend]
    exact (abs_sub_le_abs_sub_iff_ge hzx).mp (h.le z hz)
  · rw [← hhigh]
    exact (abs_sub_le_abs_sub_iff_le hxy).mp (h.le y hy)
  · rw [← hend, ← hhigh]
    rintro (htie | htie)
    · exact hparity (h.even_of_tie z hz hzx.ne (by rw [htie]; exact abs_sub_midpoint _ _))
    · exact hparity (h.even_of_tie y hy hxy.ne' (by rw [htie]; exact (abs_sub_midpoint _ _).symm))

end

end Binary64

end Multimeter
