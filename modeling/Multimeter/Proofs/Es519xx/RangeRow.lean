import Multimeter.Proofs.Conflicts
import Multimeter.Proofs.Es519xx.Dependence
import Multimeter.Proofs.Value

/-!
# Rows of the range tables

A range table has nine rows. What the fifth one is for depends on the chip: at 2400 baud it counts
revolutions, at 19200 baud it is for manual currents. The row of a reading is chosen without a look
at the chip, so the two need not fit together.

* `CurrentRange`, `RangeRow.isFor`: which readings a row is for.
* `Variant.rows`, `Variant.assignedRow?`: what the table of a format assigns to a reading.
* `Annunciators.tableRow?`: the row that the exponent is looked up in; `of_tableRow?`.
* **`Annunciators.Shows.rangeRow?_eq`**: the row is chosen by the mode and the range of a current.
* `Annunciators.packetSize_of_rpm`: which packets show revolutions.
* **`Variant.rows_as_assigned`**: every row is used for what it is for, but for revolutions at
  19200 baud; **`Variant.not_forall_assignedRow?`**: these read the row of manual currents.
-/

namespace Multimeter

inductive CurrentRange where
  | micro
  | milli
  | automatic
  | manual
deriving DecidableEq, Repr

def CurrentRange.row : CurrentRange → RangeRow
  | micro => .microamp
  | milli => .milliamp
  | automatic => .amp
  | manual => .manualAmp

/-- Whether a row is for a quantity, in this range if it is a current. A continuity test counts as a
resistance, and the placeholder of duty cycles is for nothing. -/
def RangeRow.isFor (quantity : Quantity) (range : CurrentRange) : RangeRow → Bool
  | voltage => quantity = .voltage
  | microamp => quantity = .current ∧ range = .micro
  | milliamp => quantity = .current ∧ range = .milli
  | amp => quantity = .current ∧ range = .automatic
  | manualAmp => quantity = .current ∧ range = .manual
  | rpm => quantity = .rpm
  | resistance => quantity = .resistance ∨ quantity = .continuity
  | frequency => quantity = .frequency
  | capacitance => quantity = .capacitance
  | diode => quantity = .diode
  | dutyCycle => false

namespace Variant

/-- What the rows of the range table are for, from the first to the last. -/
def rows (v : Variant) : List RangeRow :=
  [.voltage, .microamp, .milliamp, .amp,
    if v.profile.baudRate = 2400 then .rpm else .manualAmp,
    .resistance, .frequency, .capacitance, .diode]

/-- The position of the row that the table has for a quantity, if it has one. -/
def assignedRow? (v : Variant) (quantity : Quantity) (range : CurrentRange) : Option Nat :=
  v.rows.findIdx? (RangeRow.isFor quantity range)

end Variant

namespace Es519xx

def Mode.row? (range : CurrentRange) : Mode → Option RangeRow
  | voltage => some .voltage
  | current => some range.row
  | resistance | continuity => some .resistance
  | frequency => some .frequency
  | capacitance => some .capacitance
  | temperature => none
  | diode => some .diode
  | rpm => some .rpm
  | dutyCycle => some .dutyCycle

namespace Annunciators

variable {profile : Profile} {p : Packet} {a : Annunciators}

/-- The range of a current, off the multipliers and the lamp of automatic ranges. -/
def currentRange (a : Annunciators) : CurrentRange :=
  if a.micro then .micro
  else if a.milli then .milli
  else if a.auto then .automatic
  else .manual

/-- The row that the exponent is looked up in. It does not come from the table while the bar is lit,
and for duty cycles. -/
def tableRow? (a : Annunciators) : Option RangeRow :=
  if a.vbar || a.dutyCycle then none else a.rangeRow?

/-! ## The row of a state -/

theorem Shows.rangeRow?_eq {m : Mode} (h : a.Shows m) : a.rangeRow? = m.row? a.currentRange := by
  have hmodes := h.modes_eq
  cases m with
  | current =>
    simp [modes, Mode.all] at hmodes
    simp only [rangeRow?, currentRange, hmodes, Mode.row?]
    cases a.micro <;> cases a.milli <;> cases a.auto <;> rfl
  | _ =>
    simp [modes, Mode.all] at hmodes
    simp [rangeRow?, hmodes, Mode.row?]

theorem tableRow?_eq_some_iff {row : RangeRow} : a.tableRow? = some row ↔
    (a.vbar = false ∧ a.dutyCycle = false) ∧ a.rangeRow? = some row := by
  rw [tableRow?, ite_eq_iff, Bool.or_eq_true, not_or, Bool.not_eq_true, Bool.not_eq_true]
  simp

theorem of_tableRow? {row : RangeRow} {e : Int} (hrow : a.tableRow? = some row)
    (he : exponent profile p a = .ok e) : ∃ range, p.rangeIndex = .ok range ∧
      (profile.rangeTable >>= (·.exponent? row.index range)) = some e := by
  obtain ⟨⟨hvbar, hduty⟩, hrow⟩ := tableRow?_eq_some_iff.mp hrow
  obtain ⟨range, hrange, he⟩ := bind_eq_ok_iff.mp he
  obtain ⟨function, _, he⟩ := bind_eq_ok_iff.mp he
  refine ⟨range, hrange, ?_⟩
  rw [hrow, hvbar, hduty] at he
  dsimp only at he
  rw [if_neg Bool.false_ne_true, if_neg Bool.false_ne_true] at he
  split at he
  · rename_i e' he'
    rw [he', Except.ok.inj he]
  · exact nomatch he

/-! ## Revolutions -/

/-- The judge bit of a 14-byte packet turns frequency into duty cycle. -/
theorem frequencyMode_ne_rpm (judge : Bool) {packetSize : Nat} (h : packetSize = 14) :
    frequencyMode judge packetSize ≠ .rpm := by
  cases judge <;> simp [frequencyMode, h]

theorem packetSize_of_rpm (h : ofPacket profile p = .ok a)
    (hrpm : (a.corrected profile).lit .rpm = true) : profile.packetSize ≠ 14 := by
  intro hsize
  suffices hdark : (a.corrected profile).lit .rpm = false from nomatch hrpm.symm.trans hdark
  have hselected (b : Annunciators) (hb : b.lit .rpm = false) :
      (b.selectFrequencyMode profile.packetSize).lit .rpm = false := by
    rw [lit_selectFrequencyMode, hb, Bool.false_or]
    exact decide_eq_false (frequencyMode_ne_rpm b.judge hsize)
  refine corrected_induction (motive := fun b => b.lit .rpm = false) (fun c hc b _ hb => ?_) ?_
  · obtain rfl | rfl | rfl := Correction.mem_all_iff.mp hc
    · exact hselected _ hb
    · exact hb
    · exact hb
  · obtain ⟨status, lit, function, _, hlit, _, rfl⟩ := ofPacket_eq_ok_iff.mp h
    have hb : lit.lit .rpm = false := (dark_readOptions hlit).lit_eq .rpm
    cases FunctionCode.ofByte? profile.alternateFunctions function with
    | none => exact hb
    | some code =>
      cases code with
      | frequencyByJudge => exact hselected lit hb
      | _ => exact hb

end Annunciators

end Es519xx

/-! ## The rows of the formats -/

namespace Variant

open Es519xx (Annunciators Mode)

variable {v : Variant} {frame : List UInt8} {r : Reading}

theorem assignedRow?_rpm (v : Variant) (range : CurrentRange) :
    v.assignedRow? .rpm range =
      if v.profile.baudRate = 2400 then some RangeRow.rpm.index else none := by
  unfold assignedRow? rows
  split_ifs <;> rfl

theorem assignedRow?_of_row? {m : Mode} {range : CurrentRange} {row : RangeRow}
    (hrow : m.row? range = some row) (hrpm : m ≠ .rpm) (hduty : m ≠ .dutyCycle)
    (hmanual : m = .current → range = .manual → v.profile.baudRate ≠ 2400) :
    v.assignedRow? m.quantity range = some row.index := by
  unfold assignedRow? rows
  cases m with
  | current =>
    obtain rfl := Option.some.inj hrow
    cases range with
    | manual =>
      rw [if_neg (hmanual rfl rfl)]
      rfl
    | _ => rfl
  | temperature => exact nomatch hrow
  | rpm => exact absurd rfl hrpm
  | dutyCycle => exact absurd rfl hduty
  | _ =>
    obtain rfl := Option.some.inj hrow
    split_ifs <;> rfl

theorem index_eq_four_iff {m : Mode} {range : CurrentRange} {row : RangeRow}
    (hrow : m.row? range = some row)
    (hmanual : m = .current → range = .manual → v.profile.baudRate ≠ 2400) :
    row.index = 4 ↔ m.quantity = .rpm ∨
      (m.quantity = .current ∧ range = .manual ∧ v.profile.baudRate ≠ 2400) := by
  cases m with
  | current =>
    obtain rfl := Option.some.inj hrow
    cases range with
    | manual => simpa [CurrentRange.row, RangeRow.index, Mode.quantity] using hmanual rfl rfl
    | _ => simp [CurrentRange.row, RangeRow.index, Mode.quantity]
  | temperature => cases hrow
  | _ =>
    obtain rfl := Option.some.inj hrow
    simp [RangeRow.index, Mode.quantity]

theorem baudRate_ne_of_manual {a : Annunciators} (h : a.Coherent v.profile)
    (hcurrent : a.current = true) (hmanual : a.currentRange = .manual) :
    v.profile.baudRate ≠ 2400 := by
  intro hslow
  have hauto := h.auto_of_current hslow hcurrent
  unfold Annunciators.currentRange at hmanual
  split_ifs at hmanual

/-- **Every row is used for what the table has it for, but for revolutions at 19200 baud.** The
exponent of a reading is looked up in the table unless the bar is lit or a duty cycle is read. The
row is then the one that the table assigns to the quantity and the range of the current, and nothing
but revolutions and manual currents reads the fifth one. Manual currents do so at 19200 baud only,
but revolutions at any baud rate, where the packets have 11 bytes; at 19200 baud no row is theirs. -/
theorem rows_as_assigned (hv : v.profile.family = .es519xx) (h : v.decode frame = .ok r) :
    ∃ a e, Es519xx.decodeAnnunciators v.profile frame = .ok a ∧ v.exponent frame = .ok e ∧
      r.digits = displayDigits e ∧
      (a.tableRow? = none ↔ a.vbar = true ∨ r.quantity = .dutyCycle) ∧
      ∀ row, a.tableRow? = some row →
        (∃ range, (v.packet frame).rangeIndex = .ok range ∧
          (v.profile.rangeTable >>= (·.exponent? row.index range)) = some e) ∧
        v.assignedRow? r.quantity a.currentRange =
          (if r.quantity = .rpm ∧ v.profile.baudRate ≠ 2400 then none else some row.index) ∧
        (row.index = 4 ↔ r.quantity = .rpm ∨
          (r.quantity = .current ∧ a.currentRange = .manual ∧ v.profile.baudRate ≠ 2400)) ∧
        (r.quantity = .rpm → v.profile.packetSize = 11) := by
  rw [decode_of_es519xx frame hv, mapError_eq_ok_iff] at h
  obtain ⟨a, shown, e, ha, _, he, rfl⟩ := Es519xx.decode_eq_ok_iff.mp h
  obtain ⟨_, lit, hlit, hcorrected, hcheck⟩ := Es519xx.decodeAnnunciators_eq_ok_iff.mp ha
  have hexponent : v.exponent frame = .ok e := by
    simp only [exponent, hv, ha]
    exact mapError_eq_ok_iff.mpr he
  obtain ⟨row, hrow⟩ := Es519xx.exists_rangeRow_of_exponent he
  obtain ⟨m, hm, hshows⟩ := Annunciators.exists_shows hcheck hrow
  have hmode : m.row? a.currentRange = some row := hshows.rangeRow?_eq.symm.trans hrow
  have hduty : a.dutyCycle = true ↔ m = .dutyCycle := by
    rw [show a.dutyCycle = _ from hshows .dutyCycle, decide_eq_true_eq, eq_comm]
  -- the quantity of the reading is the one of the mode
  have hquantity (n : Mode) : m.quantity = n.quantity ↔ m = n := Mode.quantity_inj
  simp only [Es519xx.classify_of_shows hshows hm]
  refine ⟨a, e, ha, hexponent, rfl, ?_, fun row' hrow' => ?_⟩
  · rw [Annunciators.tableRow?, ite_eq_iff, hrow, Bool.or_eq_true, hduty]
    simp [show m.quantity = .dutyCycle ↔ _ from hquantity .dutyCycle]
  · obtain ⟨⟨_, hnotDuty⟩, hrow'⟩ := Annunciators.tableRow?_eq_some_iff.mp hrow'
    obtain rfl : row = row' := Option.some.inj (hrow.symm.trans hrow')
    have hmanual : m = .current → a.currentRange = .manual → v.profile.baudRate ≠ 2400 := by
      rintro rfl
      exact baudRate_ne_of_manual (coherent_of_decodeAnnunciators ha)
        ((hshows .current).trans (decide_eq_true rfl))
    refine ⟨Annunciators.of_tableRow? ‹_› he, ?_, index_eq_four_iff hmode hmanual, fun hrpm => ?_⟩
    · by_cases hrpm : m = .rpm
      · subst hrpm
        obtain rfl := Option.some.inj hmode
        rw [show Mode.rpm.quantity = .rpm from rfl, assignedRow?_rpm]
        by_cases hslow : v.profile.baudRate = 2400 <;> simp [hslow]
      · rw [if_neg fun h => hrpm (Mode.quantity_inj.mp h.1)]
        exact assignedRow?_of_row? hmode hrpm (fun hm => by simp [hduty.mpr hm] at hnotDuty) hmanual
    · obtain rfl : m = .rpm := Mode.quantity_inj.mp hrpm
      subst hcorrected
      exact (packetSize_es519xx hv).resolve_right
        (Annunciators.packetSize_of_rpm hlit ((hshows .rpm).trans (decide_eq_true rfl)))

/-- Revolutions at 2400 baud and a manual current at 19200 baud, which both read the fifth row. -/
theorem rows_as_assigned_fifth :
    let revolutions : List UInt8 :=
      [0x31, 0x30, 0x31, 0x32, 0x33, 0x32, 0x38, 0x30, 0x30, 0x0d, 0x0a]
    let manual : List UInt8 := [0x32, 0x31, 0x32, 0x33, 0x34, 0x39, 0x30, 0x30, 0x38, 0x0d, 0x0a]
    let speed : Reading := ⟨.rpm, .revolutionsPerMinute, ⟨0x00⟩, ⟨0x40c8060000000000⟩, -2⟩
    let current : Reading := ⟨.current, .ampere, ⟨0x02⟩, ⟨0x4028ae147ae147ae⟩, 2⟩
    (slow11.decode (revolutions ++ revolutions) = .ok speed ∧
      ∃ a, Es519xx.decodeAnnunciators slow11.profile (revolutions ++ revolutions) = .ok a ∧
        a.tableRow? = some .rpm ∧ slow11.assignedRow? .rpm a.currentRange = some 4) ∧
    (fast11FiveDigits.decode (manual ++ manual) = .ok current ∧
      ∃ a, Es519xx.decodeAnnunciators fast11FiveDigits.profile (manual ++ manual) = .ok a ∧
        a.tableRow? = some .manualAmp ∧
        fast11FiveDigits.assignedRow? .current a.currentRange = some 4) := by
  intro revolutions manual speed current
  have hspeed : slow11.decode (revolutions ++ revolutions) = .ok speed := by decide +kernel
  have hcurrent : fast11FiveDigits.decode (manual ++ manual) = .ok current := by decide +kernel
  have hrow : (Es519xx.decodeAnnunciators slow11.profile (revolutions ++ revolutions)).map
      (·.tableRow?) = .ok (some .rpm) := by decide +kernel
  have hrow' : (Es519xx.decodeAnnunciators fast11FiveDigits.profile (manual ++ manual)).map
      (·.tableRow?) = .ok (some .manualAmp) := by decide +kernel
  obtain ⟨a, _, ha, _, _, _, hrows⟩ := rows_as_assigned rfl hspeed
  obtain ⟨a', _, ha', _, _, _, hrows'⟩ := rows_as_assigned rfl hcurrent
  rw [ha] at hrow
  rw [ha'] at hrow'
  have hrow := Except.ok.inj hrow
  have hrow' := Except.ok.inj hrow'
  exact ⟨⟨hspeed, a, ha, hrow, (hrows _ hrow).2.1⟩, hcurrent, a', ha', hrow', (hrows' _ hrow').2.1⟩

/-- **Not every reading is scaled by a row that is for it.** Revolutions at 19200 baud read the row
that the table has for manual currents. -/
theorem not_forall_assignedRow? :
    ¬ ∀ (v : Variant) (frame : List UInt8) (r : Reading) (a : Annunciators) (row : RangeRow),
      v.profile.family = .es519xx → v.decode frame = .ok r →
      Es519xx.decodeAnnunciators v.profile frame = .ok a → a.tableRow? = some row →
      v.assignedRow? r.quantity a.currentRange = some row.index ∧
      (row.index = 4 → if v.profile.baudRate = 2400 then r.quantity = .rpm
        else r.quantity = .current ∧ a.currentRange = .manual) := by
  let packet : List UInt8 := [0x30, 0x31, 0x32, 0x33, 0x34, 0x32, 0x38, 0x30, 0x30, 0x0d, 0x0a]
  let speed : Reading := ⟨.rpm, .revolutionsPerMinute, ⟨0x00⟩, ⟨0x3fbf972474538ef3⟩, 4⟩
  let lit : Annunciators := { judge := true, rpm := true }
  have hdecode : fast11FiveDigits.decode (packet ++ packet) = .ok speed := by decide +kernel
  have hlit : Es519xx.decodeAnnunciators fast11FiveDigits.profile (packet ++ packet) = .ok lit := by
    decide +kernel
  intro h
  exact nomatch (h fast11FiveDigits (packet ++ packet) speed lit .rpm rfl hdecode hlit rfl).1

end Variant

end Multimeter
