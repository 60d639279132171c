import Mathlib.Data.List.Basic
import Multimeter.Proofs.Checks
import Multimeter.Es519xx.Decode

/-!
# The mode of a digit meter

A consistent state has at most one mode lit. The row of the range table and the measured quantity
are chosen by two cascades that ask for the modes in different orders; while a single mode is lit
the order does not matter.

* `Mode`: what can be lit; `Annunciators.lit`, `Annunciators.Shows`.
* `Annunciators.check_eq_ok_iff`: when a state is consistent.
* **`Annunciators.shows_of_lit`**: a lit mode of a consistent state is the only one.
* `Annunciators.exists_shows`: a state with a row in the range table shows a mode.
* **`classify_of_shows`**: what is measured is what the mode stands for.
-/

namespace Multimeter.Es519xx

/-- What the meter is switched to. -/
inductive Mode where
  | voltage
  | current
  | resistance
  | frequency
  | capacitance
  | temperature
  | continuity
  | diode
  | rpm
  | dutyCycle
deriving DecidableEq, Repr

namespace Mode

def all : List Mode :=
  [voltage, current, resistance, frequency, capacitance, temperature, continuity, diode, rpm,
    dutyCycle]

theorem mem_all (m : Mode) : m ∈ all := by cases m <;> decide

/-- What a meter in the mode measures. -/
def quantity : Mode → Quantity
  | voltage => .voltage
  | current => .current
  | resistance => .resistance
  | frequency => .frequency
  | capacitance => .capacitance
  | temperature => .temperature
  | continuity => .continuity
  | diode => .diode
  | rpm => .rpm
  | dutyCycle => .dutyCycle

/-- The unit of a reading in the mode; a temperature may also be in Fahrenheit. -/
def unit : Mode → PhysicalUnit
  | voltage => .volt
  | current => .ampere
  | resistance => .ohm
  | frequency => .hertz
  | capacitance => .farad
  | temperature => .celsius
  | continuity => .boolean
  | diode => .volt
  | rpm => .revolutionsPerMinute
  | dutyCycle => .percentage

theorem quantity_inj {m n : Mode} : m.quantity = n.quantity ↔ m = n := by
  cases m <;> cases n <;> decide

end Mode

namespace Annunciators

def lit (a : Annunciators) : Mode → Bool
  | .voltage => a.voltage
  | .current => a.current
  | .resistance => a.resistance
  | .frequency => a.frequency
  | .capacitance => a.capacitance
  | .temperature => a.temperature
  | .continuity => a.continuity
  | .diode => a.diode
  | .rpm => a.rpm
  | .dutyCycle => a.dutyCycle

/-- The mode is lit, and no other one is. -/
def Shows (a : Annunciators) (m : Mode) : Prop := ∀ n, a.lit n = decide (n = m)

variable {a : Annunciators}

theorem check_eq_ok_iff : a.check = .ok () ↔
    ¬ (a.micro = true ∧ a.milli = true) ∧ a.modeCount ≤ 1 ∧ ¬ (a.ac = true ∧ a.dc = true) := by
  simp only [check, ite_error_eq_ok_iff, Nat.not_lt, Bool.and_eq_true_iff, and_true]

theorem modes_eq_map (a : Annunciators) : a.modes = Mode.all.map a.lit := rfl

/-- **A lit mode of a consistent state is the only one.** -/
theorem shows_of_lit {m : Mode} (h : a.modeCount ≤ 1) (hm : a.lit m = true) : a.Shows m := by
  have hcount : (Mode.all.filter a.lit).length ≤ 1 := by
    rwa [modeCount, modes_eq_map, List.countP_map, List.countP_eq_length_filter] at h
  have hmem : m ∈ Mode.all.filter a.lit := List.mem_filter.mpr ⟨m.mem_all, hm⟩
  obtain ⟨only, honly⟩ :=
    List.length_eq_one_iff.mp (Nat.le_antisymm hcount (List.length_pos_of_mem hmem))
  rw [honly, List.mem_singleton] at hmem
  intro n
  rw [Bool.eq_iff_iff, decide_eq_true_eq]
  constructor
  · intro hn
    have hmem' : n ∈ Mode.all.filter a.lit := List.mem_filter.mpr ⟨n.mem_all, hn⟩
    rw [honly, List.mem_singleton] at hmem'
    rw [hmem', hmem]
  · rintro rfl
    exact hm

theorem Shows.modes_eq {m : Mode} (h : a.Shows m) :
    a.modes = Mode.all.map fun n => decide (n = m) := by
  rw [modes_eq_map]
  exact List.map_congr_left fun n _ => h n

theorem rangeRow?_eq_none (h : ∀ m, m ≠ .temperature → a.lit m = false) : a.rangeRow? = none := by
  have hvoltage : a.voltage = false := h .voltage (by decide)
  have hcurrent : a.current = false := h .current (by decide)
  have hrpm : a.rpm = false := h .rpm (by decide)
  have hresistance : a.resistance = false := h .resistance (by decide)
  have hcontinuity : a.continuity = false := h .continuity (by decide)
  have hfrequency : a.frequency = false := h .frequency (by decide)
  have hcapacitance : a.capacitance = false := h .capacitance (by decide)
  have hdiode : a.diode = false := h .diode (by decide)
  have hdutyCycle : a.dutyCycle = false := h .dutyCycle (by decide)
  simp [rangeRow?, hvoltage, hcurrent, hrpm, hresistance, hcontinuity, hfrequency, hcapacitance,
    hdiode, hdutyCycle]

theorem exists_shows (h : a.check = .ok ()) {row : RangeRow} (hrow : a.rangeRow? = some row) :
    ∃ m, m ≠ .temperature ∧ a.Shows m := by
  by_contra hdark
  have hnone : a.rangeRow? = none := rangeRow?_eq_none fun m hm => by
    by_contra hlit
    rw [Bool.not_eq_false] at hlit
    exact hdark ⟨m, hm, shows_of_lit (check_eq_ok_iff.mp h).2.1 hlit⟩
  exact nomatch hnone.symm.trans hrow

end Annunciators

/-- **What is measured is what the mode stands for**, in the unit of the mode. -/
theorem classify_of_shows {a : Annunciators} {m : Mode} (h : a.Shows m) (hm : m ≠ .temperature)
    (value : Binary64) :
    classify a value = (m.quantity, m.unit,
      if m = .continuity then (if isClosed value then .one else .zero) else value) := by
  have hmodes := h.modes_eq
  cases m with
  | temperature => exact absurd rfl hm
  | _ =>
    simp [Annunciators.modes, Mode.all] at hmodes
    simp [classify, hmodes, Mode.quantity, Mode.unit]

end Multimeter.Es519xx
