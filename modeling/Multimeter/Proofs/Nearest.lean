import Mathlib.Algebra.Order.Field.Basic
import Mathlib.Algebra.Order.Field.Power
import Mathlib.Data.Rat.Cast.Order
import Mathlib.Tactic.Linarith
import Mathlib.Tactic.Ring
import Multimeter.Proofs.Measurement

/-!
# Exact values

A finite pattern stands for a rational number, and the magnitude bits order the patterns as their
values do. So two patterns with an even last bit have another one between them, and only one value
is nearest to a number.

* `Binary64.toRat`: the exact value of a pattern.
* `Binary64.IsNearest`: no finite pattern is nearer to a number, and in a tie the pattern is even.
* `Binary64.toRat_packed`: the value of a significand and an exponent that are packed.
* `Binary64.abs_toRat_lt_abs_toRat`: a greater magnitude is a greater distance from zero.
* **`Binary64.IsNearest.toRat_eq`**, `Binary64.IsNearest.eq`: there is one nearest value.
-/

namespace Multimeter.Binary64

/-! ## The exact value of a pattern -/

/-- The exact value of a finite pattern; zero for the others. -/
def toRat (x : Binary64) : ℚ :=
  match x.significand? with
  | some (m, q) => if x.isNegative then -(m * 2 ^ q) else m * 2 ^ q
  | none => 0

/-- No finite pattern is nearer to `r`, and in a tie the last bit is zero. This leaves one value:
`IsNearest.toRat_eq`. -/
structure IsNearest (x : Binary64) (r : ℚ) : Prop where
  finite : x.IsFinite
  le : ∀ y : Binary64, y.IsFinite → |x.toRat - r| ≤ |y.toRat - r|
  even_of_tie : ∀ y : Binary64, y.IsFinite → y.toRat ≠ x.toRat →
    |y.toRat - r| = |x.toRat - r| → x.magnitude % 2 = 0

theorem isFinite_iff (x : Binary64) : x.IsFinite ↔ x.magnitude < infinity.magnitude := by
  rw [IsFinite, isNaN, isInfinite, decide_eq_false_iff_not, beq_eq_false_iff_ne]
  omega

theorem not_isFinite_infinity : ¬ infinity.IsFinite := fun h => absurd h.2 (by decide)

theorem not_isFinite_notNumber : ¬ notNumber.IsFinite := fun h => absurd h.1 (by decide)

theorem magnitude_infinity : infinity.magnitude = 2047 * 0x10000000000000 := rfl

theorem magnitude_lt (x : Binary64) : x.magnitude < 2 ^ 63 := Nat.mod_lt _ (by decide)

theorem IsFinite.exists_significand {x : Binary64} (h : x.IsFinite) :
    ∃ m q, x.significand? = some (m, q) ∧ m < 2 ^ 53 ∧ -1074 ≤ q := by
  have hmagnitude := (isFinite_iff x).mp h
  rw [magnitude_infinity] at hmagnitude
  unfold significand?
  dsimp only
  split_ifs with htop hzero
  · omega
  · exact ⟨_, _, rfl, by omega, le_refl _⟩
  · exact ⟨_, _, rfl, by omega, by omega⟩

theorem significand?_of_not_isFinite {x : Binary64} (h : ¬ x.IsFinite) :
    x.significand? = none := by
  have hlt := x.magnitude_lt
  rw [isFinite_iff, magnitude_infinity, Nat.not_lt] at h
  have hfield : x.magnitude / 0x10000000000000 = 2047 :=
    Nat.div_eq_of_lt_le h (hlt.trans_le (by decide))
  unfold significand?
  rw [hfield]
  exact if_pos rfl

/-! ## Signs -/

section

variable (x : Binary64)

theorem neg_bits : x.neg.bits.toNat = x.bits.toNat ^^^ 2 ^ 63 := UInt64.toNat_xor _ _

@[simp] theorem magnitude_neg : x.neg.magnitude = x.magnitude := by
  have hmod : x.neg.bits.toNat % 2 ^ 63 = x.bits.toNat % 2 ^ 63 := by
    rw [neg_bits, Nat.xor_mod_two_pow, Nat.mod_self, Nat.xor_zero]
  exact hmod

@[simp] theorem isNegative_neg : x.neg.isNegative = !x.isNegative := by
  have hdiv : x.neg.bits.toNat / 2 ^ 63 = x.bits.toNat / 2 ^ 63 ^^^ 1 := by
    rw [neg_bits, Nat.xor_div_two_pow]
    rfl
  have hlt := x.bits.toNat_lt
  unfold isNegative
  obtain h | h : x.bits.toNat / 2 ^ 63 = 0 ∨ x.bits.toNat / 2 ^ 63 = 1 := by omega
  · have hneg : x.neg.bits.toNat / 2 ^ 63 = 1 := by rw [hdiv, h]; rfl
    rw [decide_eq_true (by omega), decide_eq_false (by omega)]
    rfl
  · have hneg : x.neg.bits.toNat / 2 ^ 63 = 0 := by rw [hdiv, h]; rfl
    rw [decide_eq_false (by omega), decide_eq_true (by omega)]
    rfl

@[simp] theorem isFinite_neg : x.neg.IsFinite ↔ x.IsFinite := by
  rw [isFinite_iff, isFinite_iff, magnitude_neg]

theorem significand?_neg : x.neg.significand? = x.significand? := by
  unfold significand?
  rw [magnitude_neg]

@[simp] theorem toRat_neg : x.neg.toRat = -x.toRat := by
  unfold toRat
  rw [significand?_neg, isNegative_neg]
  cases x.significand? with
  | none => exact neg_zero.symm
  | some mq => cases x.isNegative <;> simp

end

@[simp] theorem negIf_true (x : Binary64) : x.negIf true = x.neg := rfl

@[simp] theorem negIf_false (x : Binary64) : x.negIf false = x := rfl

@[simp] theorem isFinite_negIf (x : Binary64) (condition : Bool) :
    (x.negIf condition).IsFinite ↔ x.IsFinite := by
  cases condition with
  | true => rw [negIf_true, isFinite_neg]
  | false => rw [negIf_false]

theorem IsNearest.neg {x : Binary64} {r : ℚ} (h : x.IsNearest r) : x.neg.IsNearest (-r) := by
  have hdist (y : Binary64) : |y.toRat - -r| = |y.neg.toRat - r| := by
    rw [toRat_neg, ← abs_neg (-y.toRat - r)]
    congr 1
    ring
  refine ⟨x.isFinite_neg.mpr h.finite, fun y hy => ?_, fun y hy hne htie => ?_⟩
  · rw [hdist, hdist, neg_neg]
    exact h.le y.neg (y.isFinite_neg.mpr hy)
  · rw [hdist, hdist, neg_neg] at htie
    rw [magnitude_neg]
    refine h.even_of_tie y.neg (y.isFinite_neg.mpr hy) (fun heq => hne ?_) htie
    rw [toRat_neg] at heq ⊢
    linarith

/-! ## Packed patterns -/

section

variable {k : Nat} (hfinite : k < infinity.magnitude)

include hfinite

theorem toNat_ofNat_bits : (UInt64.ofNat k).toNat = k := by
  rw [magnitude_infinity] at hfinite
  rw [UInt64.toNat_ofNat']
  omega

theorem magnitude_ofNat_bits : magnitude ⟨UInt64.ofNat k⟩ = k := by
  rw [magnitude, toNat_ofNat_bits hfinite]
  rw [magnitude_infinity] at hfinite
  omega

theorem isNegative_ofNat_bits : isNegative ⟨UInt64.ofNat k⟩ = false := by
  rw [isNegative, toNat_ofNat_bits hfinite]
  rw [magnitude_infinity] at hfinite
  exact decide_eq_false (by omega)

end

theorem significand?_of_lt {x : Binary64} (h : x.magnitude < 0x10000000000000) :
    x.significand? = some (x.magnitude, -1074) := by
  have he : x.magnitude / 0x10000000000000 = 0 := Nat.div_eq_of_lt h
  have hf : x.magnitude % 0x10000000000000 = x.magnitude := Nat.mod_eq_of_lt h
  unfold significand?
  rw [he, hf]
  rfl

theorem significand?_of_le {x : Binary64} {e f : Nat} (hf : f < 0x10000000000000)
    (he : e + 1 < 2047) (h : x.magnitude = (e + 1) * 0x10000000000000 + f) :
    x.significand? = some (0x10000000000000 + f, (e : ℤ) - 1074) := by
  have hfield : x.magnitude / 0x10000000000000 = e + 1 := by omega
  have hfraction : x.magnitude % 0x10000000000000 = f := by omega
  have hq : ((e + 1 : Nat) : ℤ) - 1075 = e - 1074 := by omega
  unfold significand?
  rw [hfield, hfraction]
  dsimp only
  rw [if_neg he.ne, if_neg (Nat.succ_ne_zero e), hq]

theorem toRat_zero : zero.toRat = 0 := by
  have hsignificand : zero.significand? = some (0, -1074) := rfl
  unfold toRat
  rw [hsignificand]
  simp

/-- **The value of a packed significand and exponent.** A significand of `2 ^ 53` carries into the
exponent field, which is the same value. -/
theorem toRat_packed {x : Binary64} {j m : Nat} (hm : m ≤ 2 ^ 53) (hnormal : j = 0 ∨ 2 ^ 52 ≤ m)
    (hfinite : x.IsFinite) (hpositive : x.isNegative = false)
    (hx : x.magnitude = j * 0x10000000000000 + m) : x.toRat = m * 2 ^ ((j : ℤ) - 1074) := by
  rw [isFinite_iff, magnitude_infinity, hx] at hfinite
  unfold toRat
  rw [hpositive]
  -- subnormal, normal, or carried into the next exponent
  obtain hsub | ⟨hle, hlt⟩ | hcarry : m < 2 ^ 52 ∨ (2 ^ 52 ≤ m ∧ m < 2 ^ 53) ∨ m = 2 ^ 53 := by
    omega
  · obtain rfl : j = 0 := by omega
    have hmagnitude : x.magnitude = m := by omega
    rw [significand?_of_lt (by omega), hmagnitude]
    rfl
  · obtain ⟨f, rfl⟩ := Nat.exists_eq_add_of_le hle
    have hmagnitude := hx.trans (show _ = (j + 1) * 0x10000000000000 + f by omega)
    rw [significand?_of_le (by omega) (by omega) hmagnitude]
    rfl
  · have hscale : (2 : ℚ) ^ ((j + 1 : Nat) - 1074 : ℤ) = 2 ^ ((j : ℤ) - 1074) * 2 := by
      rw [← zpow_add_one₀ two_ne_zero]
      congr 1
      omega
    have hmagnitude := hx.trans (show _ = (j + 1 + 1) * 0x10000000000000 + 0 by omega)
    rw [significand?_of_le (by decide) (by omega) hmagnitude]
    dsimp only
    rw [if_neg Bool.false_ne_true, hscale, hcarry]
    push_cast
    ring

/-! ## The order of patterns -/

theorem toRat_eq_ite_abs (x : Binary64) :
    x.toRat = if x.isNegative then -|x.toRat| else |x.toRat| := by
  cases hsignificand : x.significand? with
  | none => simp [toRat, hsignificand]
  | some mq =>
    have hnonneg : (0 : ℚ) ≤ mq.1 * 2 ^ mq.2 :=
      mul_nonneg (Nat.cast_nonneg _) (zpow_pos two_pos _).le
    cases hsign : x.isNegative <;> simp [toRat, hsignificand, hsign, abs_of_nonneg hnonneg]

theorem abs_toRat_packed {x : Binary64} {j m : Nat} (hm : m ≤ 2 ^ 53)
    (hnormal : j = 0 ∨ 2 ^ 52 ≤ m) (hfinite : x.IsFinite)
    (hx : x.magnitude = j * 0x10000000000000 + m) : |x.toRat| = m * 2 ^ ((j : ℤ) - 1074) := by
  have hnonneg : (0 : ℚ) ≤ m * 2 ^ ((j : ℤ) - 1074) :=
    mul_nonneg (Nat.cast_nonneg _) (zpow_pos two_pos _).le
  cases hsign : x.isNegative with
  | false => rw [toRat_packed hm hnormal hfinite hsign hx, abs_of_nonneg hnonneg]
  | true =>
    have hneg := toRat_packed (x := x.neg) hm hnormal (x.isFinite_neg.mpr hfinite)
      (by rw [isNegative_neg, hsign]; rfl) (x.magnitude_neg.trans hx)
    rw [← abs_neg, ← toRat_neg, hneg, abs_of_nonneg hnonneg]

theorem exists_packed (x : Binary64) : ∃ j m, m < 2 ^ 53 ∧ (j = 0 ∨ 2 ^ 52 ≤ m) ∧
    x.magnitude = j * 0x10000000000000 + m :=
  ⟨x.magnitude / 0x10000000000000 - 1,
    x.magnitude - (x.magnitude / 0x10000000000000 - 1) * 0x10000000000000,
    by omega, by omega, by omega⟩

theorem abs_toRat_congr {x y : Binary64} (hx : x.IsFinite) (hy : y.IsFinite)
    (h : x.magnitude = y.magnitude) : |x.toRat| = |y.toRat| := by
  obtain ⟨j, m, hm, hnormal, hmagnitude⟩ := x.exists_packed
  rw [abs_toRat_packed hm.le hnormal hx hmagnitude,
    abs_toRat_packed hm.le hnormal hy (h.symm.trans hmagnitude)]

theorem abs_toRat_lt_of_succ {x y : Binary64} (hy : y.IsFinite)
    (h : y.magnitude = x.magnitude + 1) : |x.toRat| < |y.toRat| := by
  have hx : x.IsFinite := by
    rw [isFinite_iff] at hy ⊢
    omega
  obtain ⟨j, m, hm, hnormal, hmagnitude⟩ := x.exists_packed
  have hnext : y.magnitude = j * 0x10000000000000 + (m + 1) := by
    rw [h, hmagnitude, Nat.add_assoc]
  rw [abs_toRat_packed hm.le hnormal hx hmagnitude,
    abs_toRat_packed hm (hnormal.imp_right Nat.le_succ_of_le) hy hnext]
  exact mul_lt_mul_of_pos_right (Nat.cast_lt.mpr (Nat.lt_succ_self m)) (zpow_pos two_pos _)

theorem exists_of_lt_magnitude {y : Binary64} (hy : y.IsFinite) {k : Nat} (hk : k < y.magnitude) :
    ∃ z : Binary64, z.IsFinite ∧ z.magnitude = k ∧ z.isNegative = y.isNegative := by
  have hfinite : k < infinity.magnitude := hk.trans ((isFinite_iff y).mp hy)
  have hmagnitude := magnitude_ofNat_bits hfinite
  have hpositive := isNegative_ofNat_bits hfinite
  refine ⟨negIf ⟨UInt64.ofNat k⟩ y.isNegative, ?_, ?_, ?_⟩
  · rw [isFinite_negIf, isFinite_iff, hmagnitude]
    exact hfinite
  · cases y.isNegative with
    | true => rw [negIf_true, magnitude_neg, hmagnitude]
    | false => rw [negIf_false, hmagnitude]
  · cases y.isNegative with
    | true => rw [negIf_true, isNegative_neg, hpositive]; rfl
    | false => rw [negIf_false, hpositive]

theorem abs_toRat_lt_abs_toRat {x y : Binary64} (hy : y.IsFinite)
    (h : x.magnitude < y.magnitude) : |x.toRat| < |y.toRat| := by
  obtain ⟨d, hd⟩ := Nat.exists_eq_add_of_lt h
  induction d generalizing y with
  | zero => exact abs_toRat_lt_of_succ hy hd
  | succ d ih =>
    obtain ⟨z, hz, hmagnitude, _⟩ :=
      exists_of_lt_magnitude hy (k := x.magnitude + d + 1) (by omega)
    exact (ih hz (by omega) hmagnitude).trans (abs_toRat_lt_of_succ hy (by omega))

/-! ## One nearest value -/

section

variable {x y : Binary64} {r : ℚ}

theorem exists_between_of_lt (hy : y.IsFinite) (hxeven : x.magnitude % 2 = 0)
    (hyeven : y.magnitude % 2 = 0) (h : x.magnitude < y.magnitude) : ∃ z : Binary64, z.IsFinite ∧
      (x.toRat < z.toRat ∧ z.toRat < y.toRat ∨ y.toRat < z.toRat ∧ z.toRat < x.toRat) := by
  obtain ⟨z, hz, hmagnitude, hsign⟩ :=
    exists_of_lt_magnitude hy (k := y.magnitude - 1) (by omega)
  have hlow := abs_toRat_lt_abs_toRat hz (x := x) (by omega)
  have hhigh := abs_toRat_lt_abs_toRat hy (x := z) (by omega)
  have hzvalue := z.toRat_eq_ite_abs
  have hyvalue := y.toRat_eq_ite_abs
  rw [hsign] at hzvalue
  refine ⟨z, hz, ?_⟩
  cases hnegative : y.isNegative with
  | true =>
    rw [hnegative, if_pos rfl] at hzvalue hyvalue
    right
    constructor <;> linarith [neg_abs_le x.toRat]
  | false =>
    rw [hnegative, if_neg Bool.false_ne_true] at hzvalue hyvalue
    left
    constructor <;> linarith [le_abs_self x.toRat]

/-- **Even patterns are not neighbours.** -/
theorem exists_between (hx : x.IsFinite) (hy : y.IsFinite) (hxeven : x.magnitude % 2 = 0)
    (hyeven : y.magnitude % 2 = 0) (hne : x.toRat ≠ y.toRat) : ∃ z : Binary64, z.IsFinite ∧
      (x.toRat < z.toRat ∧ z.toRat < y.toRat ∨ y.toRat < z.toRat ∧ z.toRat < x.toRat) := by
  obtain hlt | heq | hgt := lt_trichotomy x.magnitude y.magnitude
  · exact exists_between_of_lt hy hxeven hyeven hlt
  · obtain hsame | hmirrored := abs_eq_abs.mp (abs_toRat_congr hx hy heq)
    · exact absurd hsame hne
    · refine ⟨zero, ⟨rfl, rfl⟩, ?_⟩
      rw [toRat_zero]
      obtain hlt | hgt := hne.lt_or_gt
      · exact Or.inl ⟨by linarith, by linarith⟩
      · exact Or.inr ⟨by linarith, by linarith⟩
  · obtain ⟨z, hz, hbetween⟩ := exists_between_of_lt hx hyeven hxeven hgt
    exact ⟨z, hz, hbetween.symm⟩

/-- **There is one nearest value.** Two of them would be at the same distance on either side, and
both even. -/
theorem IsNearest.toRat_eq (hx : x.IsNearest r) (hy : y.IsNearest r) : x.toRat = y.toRat := by
  by_contra hne
  have htie := le_antisymm (hx.le y hy.finite) (hy.le x hx.finite)
  have hxeven := hx.even_of_tie y hy.finite (Ne.symm hne) htie.symm
  have hyeven := hy.even_of_tie x hx.finite hne htie
  obtain ⟨z, hz, hbetween⟩ := exists_between hx.finite hy.finite hxeven hyeven hne
  have hnear := hx.le z hz
  obtain hsame | hmirrored := abs_eq_abs.mp htie
  · exact hne (by linarith)
  obtain ⟨hlow, hhigh⟩ | ⟨hlow, hhigh⟩ := hbetween
  · rw [abs_of_neg (by linarith : x.toRat - r < 0)] at hnear
    exact hnear.not_gt (abs_lt.mpr ⟨by linarith, by linarith⟩)
  · rw [abs_of_pos (by linarith : 0 < x.toRat - r)] at hnear
    exact hnear.not_gt (abs_lt.mpr ⟨by linarith, by linarith⟩)

theorem eq_of_magnitude_eq (hmagnitude : x.magnitude = y.magnitude)
    (hsign : x.isNegative = y.isNegative) : x = y := by
  obtain ⟨a⟩ := x
  obtain ⟨b⟩ := y
  have ha := a.toNat_lt
  have hb := b.toNat_lt
  rw [isNegative, isNegative, decide_eq_decide] at hsign
  unfold magnitude at hmagnitude
  dsimp only at hmagnitude hsign
  exact congrArg mk (UInt64.toNat_inj.mp (by omega))

/-- **There is one nearest pattern of either sign.** -/
theorem IsNearest.eq (hx : x.IsNearest r) (hy : y.IsNearest r)
    (hsign : x.isNegative = y.isNegative) : x = y := by
  have hvalue : |x.toRat| = |y.toRat| := congrArg abs (hx.toRat_eq hy)
  refine eq_of_magnitude_eq ?_ hsign
  obtain hlt | heq | hgt := lt_trichotomy x.magnitude y.magnitude
  · exact absurd hvalue (abs_toRat_lt_abs_toRat hy.finite hlt).ne
  · exact heq
  · exact absurd hvalue (abs_toRat_lt_abs_toRat hx.finite hgt).ne'

end

end Multimeter.Binary64
