import Mathlib.Tactic.FieldSimp
import Multimeter.Proofs.Nearest

/-!
# Rounding

The nearest pattern to a fraction is found among the multiples of its unit in the last place: every
pattern with a finer unit is too small to be nearer.

* `Binary64.abs_roundDiv_sub`: rounding to an integer.
* `Binary64.nearest_finite`: the nearest multiple is a nearest number.
* **`Binary64.isNearest_ofRatio`**, **`Binary64.isNearest_scale10`**: what is found is nearest.
-/

namespace Multimeter.Binary64

/-! ## Rounding to an integer -/

section

variable {n d : Nat}

/-- **Rounding to an integer** is off by a half at most, and by a half only at an even integer. -/
theorem abs_roundDiv_sub (hd : 0 < d) : |(roundDiv n d : ℚ) - n / d| ≤ 1 / 2 ∧
    (|(roundDiv n d : ℚ) - n / d| = 1 / 2 → roundDiv n d % 2 = 0) := by
  have hd' : (0 : ℚ) < d := Nat.cast_pos.mpr hd
  have hvalue : (n : ℚ) / d = (n / d : Nat) + (n % d : Nat) / d := by
    rw [div_eq_iff hd'.ne', add_mul, div_mul_cancel₀ _ hd'.ne']
    exact_mod_cast (Nat.div_add_mod' n d).symm
  have hrest : (0 : ℚ) ≤ (n % d : Nat) / d ∧ ((n % d : Nat) : ℚ) / d < 1 :=
    ⟨div_nonneg (Nat.cast_nonneg _) hd'.le,
      (div_lt_one hd').mpr (Nat.cast_lt.mpr (Nat.mod_lt n hd))⟩
  have hhalf : ((n % d : Nat) : ℚ) / d ≤ 1 / 2 ↔ 2 * (n % d) ≤ d := by
    rw [div_le_div_iff₀ hd' two_pos, one_mul, mul_comm]
    exact_mod_cast Iff.rfl
  have htie : ((n % d : Nat) : ℚ) / d = 1 / 2 ↔ 2 * (n % d) = d := by
    rw [div_eq_div_iff hd'.ne' two_ne_zero, one_mul, mul_comm]
    exact_mod_cast Iff.rfl
  rw [hvalue]
  unfold roundDiv
  dsimp only
  split_ifs with hdown
  · have hdist : ((n / d : Nat) : ℚ) - ((n / d : Nat) + (n % d : Nat) / d) =
        -((n % d : Nat) / d) := by ring
    rw [hdist, abs_neg, abs_of_nonneg hrest.1, hhalf, htie]
    omega
  · have hdist : ((n / d + 1 : Nat) : ℚ) - ((n / d : Nat) + (n % d : Nat) / d) =
        1 - (n % d : Nat) / d := by push_cast; ring
    rw [hdist, abs_of_pos (by linarith)]
    have hge : ¬ 2 * (n % d) < d := fun hlt => hdown (Or.inl hlt)
    constructor
    · -- the remainder is a half or more, so rounding up adds a half at most
      by_contra hfar
      have hle : 2 * (n % d) ≤ d := hhalf.mp (by linarith)
      have heq : ((n % d : Nat) : ℚ) / d = 1 / 2 := htie.mpr (by omega)
      rw [heq] at hfar
      exact hfar (by norm_num)
    · intro hhalf
      have heq : 2 * (n % d) = d := htie.mp (by linarith)
      omega

end

/-! ## The multiples of a unit -/

section

variable {m : Nat} {q : ℤ} {r : ℚ}

theorem half_le_abs_sub {s : ℚ} (hround : |(m : ℚ) - s| ≤ 1 / 2) {j : ℤ} (hj : j ≠ m) :
    1 / 2 ≤ |(j : ℚ) - s| := by
  have hapart : (1 : ℚ) ≤ |(j : ℚ) - m| := by
    exact_mod_cast Int.one_le_abs (sub_ne_zero.mpr hj)
  have htriangle : |(j : ℚ) - m| ≤ |(j : ℚ) - s| + |(m : ℚ) - s| := by
    rw [abs_sub_comm (m : ℚ) s]
    exact abs_sub_le _ _ _
  linarith

/-- **The nearest multiple** of a unit comes from the nearest integer. -/
theorem nearest_multiple (hround : |(m : ℚ) - r / 2 ^ q| ≤ 1 / 2)
    (heven : |(m : ℚ) - r / 2 ^ q| = 1 / 2 → m % 2 = 0) (j : ℤ) :
    |m * 2 ^ q - r| ≤ |j * 2 ^ q - r| ∧
      (j * 2 ^ q ≠ (m : ℚ) * 2 ^ q → |j * 2 ^ q - r| = |m * 2 ^ q - r| → m % 2 = 0) := by
  have hunit : (0 : ℚ) < 2 ^ q := zpow_pos two_pos q
  have hscale (x : ℚ) : |x * 2 ^ q - r| = |x - r / 2 ^ q| * 2 ^ q := by
    rw [← abs_of_pos hunit, ← abs_mul, abs_of_pos hunit, sub_mul, div_mul_cancel₀ _ hunit.ne']
  rw [hscale, hscale]
  by_cases hj : j = m
  · subst hj
    exact ⟨le_refl _, fun hne => absurd rfl hne⟩
  · have hfar := half_le_abs_sub hround hj
    refine ⟨mul_le_mul_of_nonneg_right (hround.trans hfar) hunit.le, fun _ htie => heven ?_⟩
    have htie := mul_right_cancel₀ hunit.ne' htie
    linarith

/-- A finite pattern is a multiple of the unit, or the unit is coarser than its own and it is
small. -/
theorem IsFinite.multiple_or_lt {y : Binary64} (hy : y.IsFinite) (q : ℤ) :
    (∃ j : ℤ, y.toRat = j * 2 ^ q) ∨ -1074 < q ∧ y.toRat < 2 ^ (q + 52) := by
  obtain ⟨m, e, hsignificand, hm, he⟩ := hy.exists_significand
  have hvalue : y.toRat = m * 2 ^ e ∨ y.toRat = -(m * 2 ^ e) := by
    unfold toRat
    rw [hsignificand]
    dsimp only
    split_ifs
    · exact Or.inr rfl
    · exact Or.inl rfl
  -- a finer unit divides that of the number; of a coarser one its 53 bits are few
  by_cases hq : q ≤ e
  · left
    have hmultiple : (m : ℚ) * 2 ^ e = (m * 2 ^ (e - q).toNat : Nat) * 2 ^ q := by
      have hsplit : (2 : ℚ) ^ e = 2 ^ (e - q).toNat * 2 ^ q := by
        rw [← zpow_natCast, Int.toNat_of_nonneg (by omega), ← zpow_add₀ two_ne_zero]
        congr 1
        omega
      rw [hsplit]
      push_cast
      ring
    obtain hvalue | hvalue := hvalue
    · exact ⟨(m * 2 ^ (e - q).toNat : Nat), by rw [hvalue, hmultiple]; push_cast; rfl⟩
    · exact ⟨-(m * 2 ^ (e - q).toNat : Nat), by rw [hvalue, hmultiple]; push_cast; ring⟩
  · right
    refine ⟨by omega, ?_⟩
    have hsmall : (m : ℚ) * 2 ^ e < 2 ^ (q + 52) := by
      calc (m : ℚ) * 2 ^ e < 2 ^ (53 : ℤ) * 2 ^ e := by
            refine mul_lt_mul_of_pos_right ?_ (zpow_pos two_pos e)
            exact_mod_cast hm
        _ = 2 ^ (53 + e) := (zpow_add₀ two_ne_zero _ _).symm
        _ ≤ 2 ^ (q + 52) := zpow_le_zpow_right₀ one_le_two (by omega)
    have hnonneg : (0 : ℚ) ≤ m * 2 ^ e := mul_nonneg (Nat.cast_nonneg m) (zpow_pos two_pos e).le
    obtain hvalue | hvalue := hvalue
    · rwa [hvalue]
    · rw [hvalue]
      linarith

/-- **A nearest multiple is a nearest number.** Where the unit is not the least one, the number is
too great for the patterns that are no multiples. -/
theorem nearest_finite (hround : |(m : ℚ) - r / 2 ^ q| ≤ 1 / 2)
    (heven : |(m : ℚ) - r / 2 ^ q| = 1 / 2 → m % 2 = 0) (hgreat : -1074 < q → 2 ^ (q + 52) ≤ r)
    {y : Binary64} (hy : y.IsFinite) :
    |m * 2 ^ q - r| ≤ |y.toRat - r| ∧
      (y.toRat ≠ m * 2 ^ q → |y.toRat - r| = |m * 2 ^ q - r| → m % 2 = 0) := by
  obtain ⟨j, hj⟩ | ⟨hq, hsmall⟩ := hy.multiple_or_lt q
  · rw [hj]
    exact nearest_multiple hround heven j
  · have hr := hgreat hq
    have hbound : |m * 2 ^ q - r| ≤ |2 ^ (q + 52) - r| := by
      have hmultiple := (nearest_multiple hround heven (2 ^ 52)).1
      have hpower : ((2 ^ 52 : ℤ) : ℚ) * 2 ^ q = 2 ^ (q + 52) := by
        rw [zpow_add₀ two_ne_zero, mul_comm]
        norm_num
      rwa [hpower] at hmultiple
    have hfar : |m * 2 ^ q - r| < |y.toRat - r| := by
      rw [abs_of_nonpos (by linarith : (2 : ℚ) ^ (q + 52) - r ≤ 0)] at hbound
      rw [abs_of_nonpos (by linarith : y.toRat - r ≤ 0)]
      linarith
    exact ⟨hfar.le, fun _ htie => absurd htie hfar.ne'⟩

theorem isNearest_of_multiple {x : Binary64} (hx : x.IsFinite) (hvalue : x.toRat = m * 2 ^ q)
    (hround : |(m : ℚ) - r / 2 ^ q| ≤ 1 / 2) (heven : |(m : ℚ) - r / 2 ^ q| = 1 / 2 → m % 2 = 0)
    (hgreat : -1074 < q → 2 ^ (q + 52) ≤ r) (hparity : m % 2 = 0 → x.magnitude % 2 = 0) :
    x.IsNearest r := by
  refine ⟨hx, fun y hy => ?_, fun y hy hne htie => hparity ?_⟩
  · rw [hvalue]
    exact (nearest_finite hround heven hgreat hy).1
  · rw [hvalue] at hne htie
    exact (nearest_finite hround heven hgreat hy).2 hne htie

end

/-! ## Rounding a fraction -/

theorem zpow_eq_div {b : ℚ} (hb : b ≠ 0) (e : ℤ) : b ^ e = b ^ e.toNat / b ^ (-e).toNat := by
  rw [← zpow_natCast, ← zpow_natCast, ← zpow_sub₀ hb, Int.toNat_sub_toNat_neg]

section

variable {n d : Nat}

/-- The binary scale of a fraction: it lies between two powers of two. -/
theorem binaryScale_spec (hn : n ≠ 0) (hd : d ≠ 0) :
    (2 : ℚ) ^ binaryScale n d ≤ n / d ∧ (n : ℚ) / d < 2 ^ (binaryScale n d + 1) := by
  have hd' : (0 : ℚ) < d := Nat.cast_pos.mpr (Nat.pos_of_ne_zero hd)
  have hnlow : (2 : ℚ) ^ (n.log2 : ℤ) ≤ n := by exact_mod_cast Nat.log2_self_le hn
  have hnhigh : (n : ℚ) < 2 ^ ((n.log2 : ℤ) + 1) := by exact_mod_cast Nat.lt_log2_self (n := n)
  have hdlow : (2 : ℚ) ^ (d.log2 : ℤ) ≤ d := by exact_mod_cast Nat.log2_self_le hd
  have hdhigh : (d : ℚ) < 2 ^ ((d.log2 : ℤ) + 1) := by exact_mod_cast Nat.lt_log2_self (n := d)
  unfold binaryScale
  dsimp only
  set e : ℤ := (n.log2 : ℤ) - d.log2 with he
  have hlow : (2 : ℚ) ^ (e - 1) ≤ n / d := by
    rw [le_div_iff₀ hd']
    calc (2 : ℚ) ^ (e - 1) * d ≤ 2 ^ (e - 1) * 2 ^ ((d.log2 : ℤ) + 1) :=
          mul_le_mul_of_nonneg_left hdhigh.le (zpow_pos two_pos _).le
      _ = 2 ^ (n.log2 : ℤ) := by rw [← zpow_add₀ two_ne_zero]; congr 1; omega
      _ ≤ n := hnlow
  have hhigh : (n : ℚ) / d < 2 ^ (e + 1) := by
    rw [div_lt_iff₀ hd']
    calc (n : ℚ) < 2 ^ ((n.log2 : ℤ) + 1) := hnhigh
      _ = 2 ^ (e + 1) * 2 ^ (d.log2 : ℤ) := by rw [← zpow_add₀ two_ne_zero]; congr 1; omega
      _ ≤ 2 ^ (e + 1) * d := mul_le_mul_of_nonneg_left hdlow (zpow_pos two_pos _).le
  have hcompare : n * Nat.pow 2 (-e).toNat < d * Nat.pow 2 e.toNat ↔ (n : ℚ) / d < 2 ^ e := by
    rw [zpow_eq_div two_ne_zero e, div_lt_div_iff₀ hd' (pow_pos two_pos _),
      mul_comm (2 ^ _) (d : ℚ)]
    exact_mod_cast Iff.rfl
  split_ifs with h
  · rw [sub_add_cancel]
    exact ⟨hlow, hcompare.mp h⟩
  · exact ⟨not_lt.mp fun hlt => h (hcompare.mpr hlt), hhigh⟩

/-- The exponent of the unit in the last place of a rounded fraction. -/
def lastPlace (n d : Nat) : ℤ := max (binaryScale n d - 52) (-1074)

/-- The significand of a rounded fraction. -/
def rounded (n d : Nat) : Nat :=
  roundDiv (n * Nat.pow 2 (-lastPlace n d).toNat) (d * Nat.pow 2 (lastPlace n d).toNat)

/-- The magnitude bits of a rounded fraction, if it is finite. -/
def packed (n d : Nat) : Nat := (lastPlace n d + 1074).toNat * 0x10000000000000 + rounded n d

theorem ofRatio_eq (hn : n ≠ 0) : ofRatio n d =
    if packed n d < infinity.magnitude then ⟨UInt64.ofNat (packed n d)⟩ else infinity :=
  if_neg hn

theorem scaled_eq (n d : Nat) (q : ℤ) :
    ((n * Nat.pow 2 (-q).toNat : Nat) : ℚ) / (d * Nat.pow 2 q.toNat : Nat) = n / d / 2 ^ q := by
  rw [zpow_eq_div two_ne_zero q]
  simp only [Nat.pow_eq]
  push_cast
  field_simp

theorem abs_rounded_sub (hd : 0 < d) : |(rounded n d : ℚ) - n / d / 2 ^ lastPlace n d| ≤ 1 / 2 ∧
    (|(rounded n d : ℚ) - n / d / 2 ^ lastPlace n d| = 1 / 2 → rounded n d % 2 = 0) := by
  rw [← scaled_eq]
  exact abs_roundDiv_sub (Nat.mul_pos hd (Nat.pow_pos two_pos))

/-- A rounded significand has 53 bits, or carries; below the least normal number it has fewer. -/
theorem rounded_bounds (hn : n ≠ 0) (hd : 0 < d) : rounded n d ≤ 2 ^ 53 ∧
    ((lastPlace n d + 1074).toNat = 0 ∨ 2 ^ 52 ≤ rounded n d) := by
  obtain ⟨hlow, hhigh⟩ := binaryScale_spec hn hd.ne'
  have hround := (abs_le.mp (abs_rounded_sub (n := n) hd).1)
  have hunit : (0 : ℚ) < 2 ^ lastPlace n d := zpow_pos two_pos _
  have hlt : (n : ℚ) / d / 2 ^ lastPlace n d < 2 ^ 53 := by
    rw [div_lt_iff₀ hunit]
    calc (n : ℚ) / d < 2 ^ (binaryScale n d + 1) := hhigh
      _ ≤ 2 ^ (53 + lastPlace n d) := by
          refine zpow_le_zpow_right₀ one_le_two ?_
          unfold lastPlace
          omega
      _ = 2 ^ 53 * 2 ^ lastPlace n d := by rw [zpow_add₀ two_ne_zero]; rfl
  constructor
  · have hle : (rounded n d : ℚ) < (2 ^ 53 + 1 : Nat) := by push_cast; linarith [hround.2]
    exact Nat.lt_succ_iff.mp (Nat.cast_lt.mp hle)
  · -- the last place is either the least one or the 53rd of the number
    by_cases hq : lastPlace n d = -1074
    · exact Or.inl (by rw [hq]; rfl)
    · right
      have hnormal : lastPlace n d = binaryScale n d - 52 := by
        unfold lastPlace at hq ⊢
        omega
      have hge : (2 : ℚ) ^ 52 ≤ n / d / 2 ^ lastPlace n d := by
        rw [le_div_iff₀ hunit, hnormal]
        calc (2 : ℚ) ^ 52 * 2 ^ (binaryScale n d - 52) = 2 ^ binaryScale n d := by
              rw [← zpow_natCast, ← zpow_add₀ two_ne_zero]
              congr 1
              omega
          _ ≤ n / d := hlow
      have hle : ((2 ^ 52 : Nat) : ℚ) < (rounded n d + 1 : Nat) := by push_cast; linarith [hround.1]
      exact Nat.lt_succ_iff.mp (Nat.cast_lt.mp hle)

theorem ofRatio_of_isFinite (hn : n ≠ 0) (h : (ofRatio n d).IsFinite) :
    packed n d < infinity.magnitude ∧ ofRatio n d = ⟨UInt64.ofNat (packed n d)⟩ := by
  rw [ofRatio_eq hn] at h ⊢
  split_ifs at h ⊢ with hpacked
  · exact ⟨hpacked, rfl⟩
  · exact absurd h.2 (by decide)

theorem ofRatio_zero (d : Nat) : ofRatio 0 d = zero := if_pos rfl

theorem isNegative_ofRatio (n d : Nat) : (ofRatio n d).isNegative = false := by
  by_cases hn : n = 0
  · rw [hn, ofRatio_zero]
    rfl
  · rw [ofRatio_eq hn]
    split_ifs with hpacked
    · exact isNegative_ofNat_bits hpacked
    · rfl

theorem toRat_ofRatio (hn : n ≠ 0) (hd : 0 < d) (h : (ofRatio n d).IsFinite) :
    (ofRatio n d).toRat = rounded n d * 2 ^ lastPlace n d ∧
      (ofRatio n d).magnitude % 2 = rounded n d % 2 := by
  obtain ⟨hpacked, heq⟩ := ofRatio_of_isFinite hn h
  obtain ⟨hbound, hnormal⟩ := rounded_bounds hn hd
  have hmagnitude : (ofRatio n d).magnitude = packed n d := by
    rw [heq, magnitude_ofNat_bits hpacked]
  have hplace : ((lastPlace n d + 1074).toNat : ℤ) - 1074 = lastPlace n d := by
    unfold lastPlace
    omega
  constructor
  · rw [toRat_packed hbound hnormal h (isNegative_ofRatio n d) hmagnitude, hplace]
  · rw [hmagnitude, packed]
    omega

/-- **The value of a fraction is nearest to it.** -/
theorem isNearest_ofRatio (hd : 0 < d) (h : (ofRatio n d).IsFinite) :
    (ofRatio n d).IsNearest (n / d) := by
  by_cases hn : n = 0
  · have hzero : (ofRatio n d).toRat = 0 := by rw [hn, ofRatio_zero, toRat_zero]
    have hr : (n : ℚ) / d = 0 := by rw [hn, Nat.cast_zero, zero_div]
    rw [hr]
    refine ⟨h, fun y _ => ?_, fun y _ hne htie => ?_⟩
    · rw [hzero, sub_zero, abs_zero]
      exact abs_nonneg _
    · rw [hzero, sub_zero, sub_zero, abs_zero, abs_eq_zero] at htie
      exact absurd (htie.trans hzero.symm) hne
  · obtain ⟨hvalue, hparity⟩ := toRat_ofRatio hn hd h
    obtain ⟨hround, heven⟩ := abs_rounded_sub (n := n) hd
    have hgreat : -1074 < lastPlace n d → (2 : ℚ) ^ (lastPlace n d + 52) ≤ n / d := by
      intro hplace
      have hscale : lastPlace n d + 52 = binaryScale n d := by
        unfold lastPlace at hplace ⊢
        omega
      rw [hscale]
      exact (binaryScale_spec hn hd.ne').1
    exact isNearest_of_multiple h hvalue hround heven hgreat hparity.trans

theorem isFinite_ofRatio (hd : 0 < d) (h : (n : ℚ) / d < 2 ^ (1023 : ℤ)) :
    (ofRatio n d).IsFinite := by
  by_cases hn : n = 0
  · rw [hn, ofRatio_zero]
    exact ⟨rfl, rfl⟩
  · have hscale : binaryScale n d < 1023 :=
      (zpow_lt_zpow_iff_right₀ one_lt_two).mp ((binaryScale_spec hn hd.ne').1.trans_lt h)
    have hbound := (rounded_bounds hn hd).1
    have hpacked : packed n d < infinity.magnitude := by
      rw [magnitude_infinity, packed]
      unfold lastPlace
      omega
    rw [ofRatio_eq hn, if_pos hpacked, isFinite_iff, magnitude_ofNat_bits hpacked]
    exact hpacked

/-- **Integers below `2 ^ 53` are exact.** -/
theorem toRat_ofNat (h : n < 2 ^ 53) : (ofNat n).IsFinite ∧ (ofNat n).toRat = n := by
  have hlt : (n : ℚ) / (1 : Nat) < 2 ^ (53 : ℤ) := by
    rw [Nat.cast_one, div_one]
    exact_mod_cast h
  have hfinite : (ofNat n).IsFinite :=
    isFinite_ofRatio Nat.one_pos (hlt.trans_le (zpow_le_zpow_right₀ one_le_two (by decide)))
  refine ⟨hfinite, ?_⟩
  by_cases hn : n = 0
  · rw [hn, ofNat, ofRatio_zero, toRat_zero, Nat.cast_zero]
  · have hscale : binaryScale n 1 < 53 :=
      (zpow_lt_zpow_iff_right₀ one_lt_two).mp
        ((binaryScale_spec hn Nat.one_ne_zero).1.trans_lt hlt)
    have hplace : lastPlace n 1 ≤ 0 := by
      unfold lastPlace
      omega
    have hexact : rounded n 1 = n * 2 ^ (-lastPlace n 1).toNat := by
      have hwhole (k : Nat) : roundDiv k 1 = k := by simpa using roundDiv_mul k 1 Nat.one_pos
      rw [rounded, Int.toNat_of_nonpos hplace]
      exact hwhole _
    rw [ofNat, (toRat_ofRatio hn Nat.one_pos hfinite).1, hexact]
    push_cast
    rw [← zpow_natCast, Int.toNat_of_nonneg (by omega), mul_assoc, ← zpow_add₀ two_ne_zero,
      neg_add_cancel, zpow_zero, mul_one]

end

/-! ## Scaling -/

theorem ratio_eq (m : Nat) (q : ℤ) :
    ((m * Nat.pow 2 q.toNat : Nat) : ℚ) / (Nat.pow 2 (-q).toNat : Nat) = m * 2 ^ q := by
  rw [zpow_eq_div two_ne_zero q, ← mul_div_assoc]
  simp only [Nat.pow_eq]
  push_cast
  rfl

theorem IsFinite.exists_ratio {x : Binary64} (h : x.IsFinite) : ∃ n d, x.ratio? = some (n, d) ∧
    0 < d ∧ x.toRat = if x.isNegative then -((n : ℚ) / d) else n / d := by
  obtain ⟨m, q, hsignificand, _⟩ := h.exists_significand
  refine ⟨m * Nat.pow 2 q.toNat, Nat.pow 2 (-q).toNat, ?_, Nat.pow_pos two_pos, ?_⟩
  · rw [ratio?, hsignificand]
    rfl
  · unfold toRat
    rw [hsignificand, ratio_eq]

theorem scale_of_ratio? {x : Binary64} {n d : Nat} (h : x.ratio? = some (n, d)) (num den : Nat) :
    x.scale num den = (ofRatio (n * num) (d * den)).negIf x.isNegative := by
  unfold scale
  rw [h]

/-- **Scaling a value rounds once.** -/
theorem isNearest_scale {x : Binary64} {num den : Nat} (hx : x.IsFinite) (hden : 0 < den)
    (h : (x.scale num den).IsFinite) : (x.scale num den).IsNearest (x.toRat * (num / den)) := by
  obtain ⟨n, d, hratio, hd, hvalue⟩ := hx.exists_ratio
  have hproduct : ((n * num : Nat) : ℚ) / (d * den : Nat) = n / d * (num / den) := by
    push_cast
    exact mul_div_mul_comm _ _ _ _
  rw [scale_of_ratio? hratio] at h ⊢
  rw [hvalue]
  unfold negIf at h ⊢
  split_ifs at h ⊢
  · have hnearest := isNearest_ofRatio (Nat.mul_pos hd hden) ((isFinite_neg _).mp h)
    rw [hproduct] at hnearest
    rw [neg_mul]
    exact hnearest.neg
  · have hnearest := isNearest_ofRatio (Nat.mul_pos hd hden) h
    rwa [hproduct] at hnearest

theorem ten_zpow_eq_div (e : ℤ) :
    (10 : ℚ) ^ e = (Nat.pow 10 e.toNat : Nat) / (Nat.pow 10 (-e).toNat : Nat) := by
  rw [zpow_eq_div (by norm_num) e]
  simp only [Nat.pow_eq]
  push_cast
  rfl

/-- **Scaling by a power of ten rounds once.** -/
theorem isNearest_scale10 {x : Binary64} {e : ℤ} (hx : x.IsFinite) (h : (x.scale10 e).IsFinite) :
    (x.scale10 e).IsNearest (x.toRat * 10 ^ e) := by
  rw [ten_zpow_eq_div]
  exact isNearest_scale hx (Nat.pow_pos (by decide)) h

theorem scale_of_not_isFinite {x : Binary64} (hx : ¬ x.IsFinite) (num den : Nat) :
    x.scale num den = x := by
  have hratio : x.ratio? = none := by
    rw [ratio?, significand?_of_not_isFinite hx, Option.map_none]
  unfold scale
  rw [hratio]

theorem scale_neg (x : Binary64) (num den : Nat) : x.neg.scale num den = (x.scale num den).neg := by
  by_cases hx : x.IsFinite
  · have hratio : x.neg.ratio? = x.ratio? := by rw [ratio?, ratio?, significand?_neg]
    obtain ⟨n, d, hx, _⟩ := hx.exists_ratio
    rw [scale_of_ratio? hx, scale_of_ratio? (hratio.trans hx), isNegative_neg]
    cases x.isNegative with
    | true => rw [Bool.not_true, negIf_false, negIf_true, neg_neg]
    | false => rw [Bool.not_false, negIf_false, negIf_true]
  · rw [scale_of_not_isFinite hx, scale_of_not_isFinite (x.isFinite_neg.not.mpr hx)]

theorem scale10_negIf (x : Binary64) (condition : Bool) (e : ℤ) :
    (x.negIf condition).scale10 e = (x.scale10 e).negIf condition := by
  cases condition with
  | true => rw [negIf_true, negIf_true, scale10, scale_neg, scale10]
  | false => rw [negIf_false, negIf_false]

theorem scale_zero (num den : Nat) : zero.scale num den = zero := by
  obtain ⟨n, d, hratio, hd, hvalue⟩ := IsFinite.exists_ratio (x := zero) ⟨rfl, rfl⟩
  have hn : n = 0 := by
    have hzero : (n : ℚ) / d = 0 := hvalue.symm.trans toRat_zero
    rw [div_eq_zero_iff, Nat.cast_eq_zero, Nat.cast_eq_zero] at hzero
    omega
  rw [scale_of_ratio? hratio, hn, Nat.zero_mul, ofRatio_zero]
  rfl

theorem isNegative_scale (x : Binary64) (num den : Nat) :
    (x.scale num den).isNegative = x.isNegative := by
  by_cases hx : x.IsFinite
  · obtain ⟨n, d, hratio, _⟩ := hx.exists_ratio
    rw [scale_of_ratio? hratio]
    cases x.isNegative with
    | true => rw [negIf_true, isNegative_neg, isNegative_ofRatio, Bool.not_false]
    | false => rw [negIf_false, isNegative_ofRatio]
  · rw [scale_of_not_isFinite hx]

theorem isFinite_scale {x : Binary64} {num den : Nat} (hx : x.IsFinite) (hden : 0 < den)
    (h : |x.toRat| * (num / den) < 2 ^ (1023 : ℤ)) : (x.scale num den).IsFinite := by
  obtain ⟨n, d, hratio, hd, hvalue⟩ := hx.exists_ratio
  have hmagnitude : |x.toRat| = n / d := by
    have hnonneg : (0 : ℚ) ≤ n / d := div_nonneg (Nat.cast_nonneg n) (Nat.cast_nonneg d)
    rw [hvalue]
    split_ifs
    · rw [abs_neg, abs_of_nonneg hnonneg]
    · rw [abs_of_nonneg hnonneg]
  rw [hmagnitude, ← mul_div_mul_comm] at h
  rw [scale_of_ratio? hratio, isFinite_negIf]
  refine isFinite_ofRatio (Nat.mul_pos hd hden) ?_
  rwa [Nat.cast_mul, Nat.cast_mul]

theorem isFinite_scale10 {x : Binary64} {e : ℤ} (hx : x.IsFinite)
    (h : |x.toRat| * 10 ^ e < 2 ^ (1023 : ℤ)) : (x.scale10 e).IsFinite := by
  rw [ten_zpow_eq_div] at h
  exact isFinite_scale hx (Nat.pow_pos (by decide)) h

end Multimeter.Binary64
