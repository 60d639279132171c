import Mathlib.Tactic.SplitIfs
import Multimeter.Report.Basic

/-!
# Measurements of a report

A report writes a finite value as a number and names any other value. Nothing of a reading is lost
but the payload of a NaN.

* `Binary64.IsFinite`, `Binary64.nan_or_infinite_or_finite`; `Binary64.cases_infinite`: there are two
  infinities.
* `Reading.Alike`: the same reading, up to the payload of a NaN.
* `Report.Measurement.FiniteOrNamed`: a finite value or a name in its place, and never both.
* **`Report.Measurement.finiteOrNamed_ofReading`**, **`Report.Measurement.alike_toReading_ofReading`**:
  what becomes of a reading.
-/

namespace Multimeter

namespace Binary64

/-- The pattern stands for a number that is no infinity. -/
def IsFinite (x : Binary64) : Prop := x.isNaN = false ∧ x.isInfinite = false

theorem cases_infinite {x : Binary64} (h : x.isInfinite = true) :
    x = if x.isNegative then negInfinity else infinity := by
  obtain ⟨bits⟩ := x
  have hmagnitude : bits.toNat % 0x8000000000000000 = 0x7ff0000000000000 := beq_iff_eq.mp h
  have hbits := bits.toNat_lt
  split_ifs with hsign
  · have hnegative : 0x8000000000000000 ≤ bits.toNat := of_decide_eq_true hsign
    refine congrArg mk (UInt64.toNat_inj.mp ?_)
    rw [show (0xfff0000000000000 : UInt64).toNat = 0xfff0000000000000 from rfl]
    omega
  · have hpositive : ¬ 0x8000000000000000 ≤ bits.toNat := fun hle => hsign (decide_eq_true hle)
    refine congrArg mk (UInt64.toNat_inj.mp ?_)
    rw [show (0x7ff0000000000000 : UInt64).toNat = 0x7ff0000000000000 from rfl]
    omega

theorem nan_or_infinite_or_finite (x : Binary64) :
    x.isNaN = true ∨ x.isInfinite = true ∨ x.IsFinite := by
  cases hnan : x.isNaN with
  | true => exact Or.inl rfl
  | false =>
    cases hinfinite : x.isInfinite with
    | true => exact Or.inr (Or.inl rfl)
    | false => exact Or.inr (Or.inr ⟨hnan, hinfinite⟩)

theorem isNaN_eq_false_of_isInfinite {x : Binary64} (h : x.isInfinite = true) :
    x.isNaN = false := by
  rw [isNaN, beq_iff_eq.mp h]
  exact decide_eq_false (Nat.lt_irrefl _)

end Binary64

/-- The same reading, up to the payload of a NaN. -/
def Reading.Alike (r s : Reading) : Prop :=
  r = s ∨ r.value.isNaN = true ∧ s.value.isNaN = true ∧ { r with value := s.value } = s

namespace Report

/-! ## Names of values -/

theorem specialName?_of_isNaN {x : Binary64} (h : x.isNaN = true) :
    specialName? x = some "nan" := by
  rw [specialName?, if_pos h]

theorem specialName?_of_isInfinite {x : Binary64} (h : x.isInfinite = true) :
    specialName? x = some (if x.isNegative then "-inf" else "inf") := by
  rw [specialName?, Binary64.isNaN_eq_false_of_isInfinite h, if_neg Bool.false_ne_true, if_pos h]

theorem specialName?_of_isFinite {x : Binary64} (h : x.IsFinite) : specialName? x = none := by
  rw [specialName?, if_neg (Bool.eq_false_iff.mp h.1), if_neg (Bool.eq_false_iff.mp h.2)]

namespace Measurement

/-- Either a finite value or the name of another one. -/
def FiniteOrNamed (m : Measurement) : Prop :=
  (∃ x, m.value = some x ∧ x.IsFinite ∧ m.special = none) ∨
    m.value = none ∧ ∃ name ∈ ["inf", "-inf", "nan"], m.special = some name

variable (index offset : UInt64) (r : Reading)

theorem finiteOrNamed_ofReading : (ofReading index offset r).FiniteOrNamed := by
  obtain hnan | hinfinite | hfinite := r.value.nan_or_infinite_or_finite
  · refine Or.inr ?_
    simp [ofReading, specialName?_of_isNaN hnan]
  · refine Or.inr ?_
    cases hsign : r.value.isNegative <;> simp [ofReading, specialName?_of_isInfinite hinfinite, hsign]
  · refine Or.inl ⟨r.value, ?_, hfinite, specialName?_of_isFinite hfinite⟩
    rw [ofReading, specialName?_of_isFinite hfinite]
    rfl

theorem toReading_ofReading : (ofReading index offset r).toReading =
    { r with value := if r.value.isNaN then .notNumber else r.value } := by
  have hvalue : (ofReading index offset r).toReading.value =
      if r.value.isNaN then .notNumber else r.value := by
    obtain hnan | hinfinite | hfinite := r.value.nan_or_infinite_or_finite
    · simp [toReading, ofReading, specialName?_of_isNaN hnan, hnan]
    · rw [Binary64.isNaN_eq_false_of_isInfinite hinfinite, if_neg Bool.false_ne_true]
      refine Eq.trans ?_ (Binary64.cases_infinite hinfinite).symm
      cases hsign : r.value.isNegative <;>
        simp [toReading, ofReading, specialName?_of_isInfinite hinfinite, hsign]
    · rw [hfinite.1, if_neg Bool.false_ne_true]
      simp [toReading, ofReading, specialName?_of_isFinite hfinite]
  rw [← hvalue]
  rfl

/-- **A reading can be told from its measurement.** -/
theorem alike_toReading_ofReading : (ofReading index offset r).toReading.Alike r := by
  rw [toReading_ofReading]
  cases hnan : r.value.isNaN with
  | true => exact Or.inr ⟨(by decide : Binary64.notNumber.isNaN = true), hnan, rfl⟩
  | false => exact Or.inl rfl

end Measurement

end Report

end Multimeter
