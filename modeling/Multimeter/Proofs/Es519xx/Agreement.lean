import Multimeter.Proofs.Es519xx.RangeRow

/-!
# Rows and quantities agree

The row of the range table and the measured quantity are chosen by two cascades that ask for the
modes in nearly opposite orders. They follow the same mode in every state that passes the check,
because such a state has at most one mode lit, and each range of a current has a row of its own,
because it has at most one multiplier lit.

* `Quantity.row?`: the row for a quantity, in the range of a current.
* `Annunciators.Shows.rangeRow?_eq_row?`, `Annunciators.no_row`: a lit mode with a row, and none.
* `Annunciators.currentRange_row`: the row of a current, off the multipliers and the range lamp.
* **`Annunciators.rows_agree`**: the two cascades agree in every consistent state.
-/

namespace Multimeter

/-- The row for a quantity, in this range if it is a current. Duty cycles have a placeholder;
temperatures and plain numbers have no row. -/
def Quantity.row? (range : CurrentRange) : Quantity → Option RangeRow
  | voltage => some .voltage
  | current => some range.row
  | resistance | continuity => some .resistance
  | capacitance => some .capacitance
  | frequency => some .frequency
  | dutyCycle => some .dutyCycle
  | rpm => some .rpm
  | diode => some .diode
  | temperature | gain => none

theorem Quantity.row?_eq_none_iff {range : CurrentRange} {q : Quantity} :
    q.row? range = none ↔ q = .temperature ∨ q = .gain := by
  cases q <;> simp [row?]

theorem Es519xx.Mode.row?_quantity (range : CurrentRange) (m : Mode) :
    m.quantity.row? range = m.row? range := by
  cases m <;> rfl

namespace Es519xx.Annunciators

variable {a : Annunciators}

/-! ## Both cascades -/

theorem Shows.rangeRow?_eq_row? {m : Mode} (h : a.Shows m) (hm : m ≠ .temperature)
    (value : Binary64) : a.rangeRow? = (classify a value).1.row? a.currentRange := by
  rw [h.rangeRow?_eq, classify_of_shows h hm, Mode.row?_quantity]

/-- **Without a mode but temperature there is no row**, and a temperature or a plain number is
measured. -/
theorem no_row (h : ∀ m, m ≠ .temperature → a.lit m = false) (value : Binary64) :
    a.rangeRow? = none ∧
      ((classify a value).1 = .temperature ∨ (classify a value).1 = .gain) := by
  refine ⟨rangeRow?_eq_none h, ?_⟩
  have hmodes : a.modes = Mode.all.map fun m => decide (m = .temperature) && a.lit m := by
    rw [modes_eq_map]
    refine List.map_congr_left fun m _ => ?_
    by_cases hm : m = .temperature <;> simp [hm, h]
  simp [modes, Mode.all] at hmodes
  simp only [classify, hmodes, if_neg Bool.false_ne_true]
  split_ifs <;> simp

/-! ## The ranges of a current -/

/-- The row of a current, off the lamps. A state with both multipliers lit would have two. -/
theorem currentRange_row (h : ¬ (a.micro = true ∧ a.milli = true)) :
    (a.currentRange.row = .microamp ↔ a.micro = true) ∧
    (a.currentRange.row = .milliamp ↔ a.milli = true) ∧
    (a.currentRange.row = .amp ↔ a.micro = false ∧ a.milli = false ∧ a.auto = true) ∧
    (a.currentRange.row = .manualAmp ↔ a.micro = false ∧ a.milli = false ∧ a.auto = false) := by
  revert h
  unfold currentRange
  cases a.micro <;> cases a.milli <;> cases a.auto <;> decide

/-- **Rows and quantities agree in every consistent state.** The row is the one for the quantity,
there is none just for temperatures and plain numbers, and each range of a current has the row of
its lamps. -/
theorem rows_agree (h : a.check = .ok ()) (value : Binary64) :
    a.rangeRow? = (classify a value).1.row? a.currentRange ∧
    (a.rangeRow? = none ↔
      (classify a value).1 = .temperature ∨ (classify a value).1 = .gain) ∧
    ((classify a value).1 = .current →
      (a.rangeRow? = some .microamp ↔ a.micro = true) ∧
      (a.rangeRow? = some .milliamp ↔ a.milli = true) ∧
      (a.rangeRow? = some .amp ↔ a.micro = false ∧ a.milli = false ∧ a.auto = true) ∧
      (a.rangeRow? = some .manualAmp ↔
        a.micro = false ∧ a.milli = false ∧ a.auto = false)) := by
  have hrow : a.rangeRow? = (classify a value).1.row? a.currentRange := by
    -- temperature has no row, like a dark state
    by_cases hdark : ∀ m, m ≠ .temperature → a.lit m = false
    · obtain ⟨hnone, hquantity⟩ := no_row hdark value
      rw [hnone, Quantity.row?_eq_none_iff.mpr hquantity]
    · simp only [not_forall, Bool.not_eq_false] at hdark
      obtain ⟨m, hm, hlit⟩ := hdark
      exact (shows_of_lit (check_eq_ok_iff.mp h).2.1 hlit).rangeRow?_eq_row? hm value
  refine ⟨hrow, ?_, fun hcurrent => ?_⟩
  · rw [hrow, Quantity.row?_eq_none_iff]
  · rw [hrow, hcurrent]
    simpa only [Quantity.row?, Option.some.injEq] using
      currentRange_row (check_eq_ok_iff.mp h).1

/-- A manual current, a duty cycle, and a temperature without its unit. -/
theorem rows_agree_three :
    let manual : Annunciators := { current := true, dc := true }
    let duty : Annunciators := { dutyCycle := true, micro := true }
    let temperature : Annunciators := { temperature := true, auto := true }
    (manual.check = .ok () ∧ (classify manual .one).1 = .current ∧
      manual.rangeRow? = some .manualAmp) ∧
    (duty.check = .ok () ∧ (classify duty .one).1 = .dutyCycle ∧
      duty.rangeRow? = some .dutyCycle) ∧
    (temperature.check = .ok () ∧ (classify temperature .one).1 = .gain ∧
      temperature.rangeRow? = none) := by
  intro manual duty temperature
  have hmanual := rows_agree (a := manual) (by decide) .one
  have hduty := rows_agree (a := duty) (by decide) .one
  have htemperature := rows_agree (a := temperature) (by decide) .one
  exact ⟨⟨by decide, rfl, (hmanual.2.2 rfl).2.2.2.mpr ⟨rfl, rfl, rfl⟩⟩, ⟨by decide, rfl, hduty.1⟩,
    ⟨by decide, rfl, htemperature.2.1.mpr (Or.inr rfl)⟩⟩

end Es519xx.Annunciators

end Multimeter
