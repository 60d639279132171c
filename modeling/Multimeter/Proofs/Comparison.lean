import Multimeter.Proofs.Shortest
import Multimeter.Proofs.Sign

/-!
# Comparing values

Values are compared by their patterns, sign and magnitude; of finite values this is the order of the
numbers they stand for. A closed circuit is told from an open one by two comparisons with a rounded
value, and they say the same of the number that the display shows.

* **`Binary64.le_iff`**: the order of finite values.
* `add_le_of_lt_displayed`: numbers on a display keep a distance from a bound that they exceed.
* **`Es519xx.isClosed_iff`**: a displayed number of ohms is from 0 to 25.
-/

namespace Multimeter

/-! ## Finite values -/

namespace Binary64

variable {x y : Binary64}

theorem abs_toRat_le_iff (hx : x.IsFinite) (hy : y.IsFinite) :
    |x.toRat| ≤ |y.toRat| ↔ x.magnitude ≤ y.magnitude := by
  constructor
  · intro h
    by_contra hlt
    exact (abs_toRat_lt_abs_toRat hx (Nat.not_le.mp hlt)).not_ge h
  · intro h
    obtain hlt | heq := Nat.lt_or_eq_of_le h
    · exact (abs_toRat_lt_abs_toRat hy hlt).le
    · exact (abs_toRat_congr hx hy heq).le

theorem abs_toRat_le_zero_iff (hx : x.IsFinite) : |x.toRat| ≤ 0 ↔ x.magnitude ≤ 0 := by
  have hzero : |zero.toRat| = 0 := by rw [toRat_zero, abs_zero]
  rw [← hzero]
  exact abs_toRat_le_iff hx ⟨rfl, rfl⟩

theorem orderKey_le_iff (hx : x.IsFinite) (hy : y.IsFinite) :
    x.orderKey ≤ y.orderKey ↔ x.toRat ≤ y.toRat := by
  have hle := abs_toRat_le_iff hx hy
  have hge := abs_toRat_le_iff hy hx
  have hx0 := abs_toRat_le_zero_iff hx
  have hy0 := abs_toRat_le_zero_iff hy
  have hxabs := abs_nonneg x.toRat
  have hyabs := abs_nonneg y.toRat
  rw [x.toRat_eq_ite_abs, y.toRat_eq_ite_abs, orderKey, orderKey]
  generalize |x.toRat| = a at *
  generalize |y.toRat| = b at *
  cases x.isNegative <;> cases y.isNegative
  · simpa using hle.symm
  · -- a number that is not negative in front of one that is not positive: both are zero
    simp only [Bool.false_eq_true, if_false, if_true]
    constructor
    · intro h
      have hxzero : x.magnitude ≤ 0 := by omega
      have hyzero : y.magnitude ≤ 0 := by omega
      linarith [hx0.mpr hxzero, hy0.mpr hyzero]
    · intro h
      have hxzero := hx0.mp (by linarith)
      have hyzero := hy0.mp (by linarith)
      omega
  · simp only [Bool.false_eq_true, if_false, if_true]
    exact iff_of_true (by omega) (by linarith)
  · simpa using hge.symm

/-- **Finite values are in the order of the numbers** they stand for. -/
theorem le_iff (hx : x.IsFinite) (hy : y.IsFinite) : x.le y = true ↔ x.toRat ≤ y.toRat := by
  rw [← orderKey_le_iff hx hy, le, hx.1, hy.1]
  simp

end Binary64

/-! ## Displayed numbers -/

/-- **A displayed number keeps its distance** from any whole number below it: a display has no more
than twelve decimals. -/
theorem add_le_of_lt_displayed {n b e : ℤ} (he : -12 ≤ e) (h : (b : ℚ) < n * 10 ^ e) :
    (b : ℚ) + 10 ^ (-12 : ℤ) ≤ n * 10 ^ e := by
  obtain ⟨k, hk⟩ := Int.eq_ofNat_of_zero_le (show 0 ≤ e + 12 by omega)
  have hunit : (0 : ℚ) < 10 ^ (-12 : ℤ) := by positivity
  have hn : (n : ℚ) * 10 ^ e = ((n * 10 ^ k : ℤ) : ℚ) * 10 ^ (-12 : ℤ) := by
    have hpower : (10 : ℚ) ^ e = 10 ^ k * 10 ^ (-12 : ℤ) := by
      rw [← zpow_natCast, ← zpow_add₀ (by norm_num)]
      congr 1
      omega
    rw [hpower]
    push_cast
    ring
  have hb : (b : ℚ) = ((b * 10 ^ 12 : ℤ) : ℚ) * 10 ^ (-12 : ℤ) := by
    push_cast
    norm_num
    ring
  rw [hn, hb] at h ⊢
  have hlt : b * 10 ^ 12 < n * 10 ^ k := by exact_mod_cast lt_of_mul_lt_mul_right h hunit.le
  have hsucc : ((b * 10 ^ 12 : ℤ) : ℚ) + 1 ≤ ((n * 10 ^ k : ℤ) : ℚ) := by exact_mod_cast hlt
  nlinarith

namespace Es519xx

/-- The least pattern above 25. -/
def aboveClosed : Binary64 := ⟨0x4039000000000001⟩

theorem isFinite_aboveClosed : aboveClosed.IsFinite := ⟨by decide, by decide⟩

theorem toRat_aboveClosed : aboveClosed.toRat = 25 + 2 ^ (-48 : ℤ) := by
  have hsignificand : aboveClosed.significand? = some (25 * 2 ^ 48 + 1, -48) := by decide
  have hpositive : aboveClosed.isNegative = false := by decide
  rw [Binary64.toRat, hsignificand, hpositive]
  norm_num

/-- **A circuit is closed from 0 to 25 ohm**, exactly: rounding never moves a displayed number
across a bound. -/
theorem isClosed_iff {value : Binary64} {n e : ℤ} (he : -12 ≤ e)
    (h : value.IsNearest (n * 10 ^ e)) :
    isClosed value = true ↔ (0 : ℚ) ≤ n * 10 ^ e ∧ (n : ℚ) * 10 ^ e ≤ 25 := by
  have hzero : Binary64.zero.IsFinite := ⟨by decide, by decide⟩
  obtain ⟨hfinite, h25⟩ := Binary64.toRat_ofNat (n := 25) (by decide)
  rw [isClosed, Bool.and_eq_true_iff, Binary64.le_iff hzero h.finite,
    Binary64.le_iff h.finite hfinite, Binary64.toRat_zero, h25]
  refine and_congr ⟨fun hle => ?_, fun hle => ?_⟩ ⟨fun hle => ?_, fun hle => ?_⟩
  · by_contra hneg
    -- a negative number is read as no more than the greatest negative pattern
    have hlt : ((0 : ℤ) : ℚ) < (-n : ℤ) * 10 ^ e := by
      push_cast
      linarith
    have hgap := add_le_of_lt_displayed he hlt
    have hvalue : leastPositive.neg.toRat = -2 ^ (-1074 : ℤ) := by
      rw [Binary64.toRat_neg, toRat_leastPositive]
    have hsmall : (2 : ℚ) ^ (-1074 : ℤ) ≤ 10 ^ (-12 : ℤ) :=
      (zpow_le_zpow_right₀ one_le_two (by decide : (-1074 : ℤ) ≤ -40)).trans (by norm_num)
    have hunit : (0 : ℚ) < 2 ^ (-1074 : ℤ) := zpow_pos two_pos _
    push_cast at hgap
    have hnear := h.toRat_le ((Binary64.isFinite_neg _).mpr isFinite_leastPositive)
      (by rw [hvalue]; linarith)
    linarith
  · exact Binary64.toRat_zero ▸ h.le_toRat hzero (Binary64.toRat_zero ▸ hle)
  · by_contra hgreat
    have hlt : ((25 : ℤ) : ℚ) < n * 10 ^ e := by
      push_cast at hgreat ⊢
      linarith
    have hgap := add_le_of_lt_displayed he hlt
    have hnear := h.le_toRat isFinite_aboveClosed (by
      rw [toRat_aboveClosed]
      norm_num at hgap ⊢
      linarith)
    have hunit : (0 : ℚ) < 2 ^ (-48 : ℤ) := zpow_pos two_pos _
    rw [toRat_aboveClosed] at hnear
    push_cast at hle
    linarith
  · rw [← h25]
    exact h.toRat_le hfinite (by rw [h25]; exact_mod_cast hle)

end Es519xx

end Multimeter
