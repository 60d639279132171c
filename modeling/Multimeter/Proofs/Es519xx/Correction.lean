import Multimeter.Proofs.Es519xx.Lamps

/-!
# Corrected states

A correction that applies puts one mode in the place of another, or one multiplier, and leaves the
indicators alone. A packet lights at most one mode and one multiplier, so no correction of it is
contradictory.

* `Annunciators.corrected_induction`: what every correction preserves holds behind all of them.
* `Annunciators.Single`: at most one mode and at most one multiplier is lit.
* `Annunciators.single_ofPacket`, **`Annunciators.Single.apply`**, `Annunciators.Single.corrected`.
* `Annunciators.indicators_corrected`: corrections leave the indicators alone.
* `Annunciators.auto_corrected`: chips at 2400 baud have no manual current range.
-/

namespace Multimeter.Es519xx

theorem Correction.mem_all_iff {c : Correction} :
    c ∈ all ↔ c = selectorFrequency ∨ c = selectorVoltage ∨ c = slowCurrent := by
  simp [all]

namespace Annunciators

variable {profile : Profile} {p : Packet} {a b : Annunciators}

/-- **What every correction preserves holds of the corrected state.** -/
theorem corrected_induction {motive : Annunciators → Prop}
    (step : ∀ c ∈ Correction.all, ∀ a, c.applies profile a = true → motive a →
      motive (c.apply profile a))
    (h : motive a) : motive (a.corrected profile) := by
  unfold corrected
  -- the induction is on any list of corrections that preserve the property
  generalize Correction.all = rules at step
  induction rules generalizing a with
  | nil => exact h
  | cons c rest ih =>
    rw [List.foldl_cons]
    refine ih ?_ fun c' hc' => step c' (List.mem_cons_of_mem c hc')
    split_ifs with happlies
    · exact step c List.mem_cons_self a happlies h
    · exact h

/-! ## One mode and one multiplier -/

/-- At most one mode is lit. -/
def AtMostOneMode (a : Annunciators) : Prop := (∀ m, a.lit m = false) ∨ ∃ m, a.Shows m

theorem AtMostOneMode.modeCount_le (h : a.AtMostOneMode) : a.modeCount ≤ 1 := by
  rw [modeCount]
  obtain hdark | ⟨m, hm⟩ := h
  · have hmodes : a.modes = Mode.all.map fun _ => false :=
      a.modes_eq_map.trans (List.map_congr_left fun m _ => hdark m)
    rw [hmodes]
    decide
  · rw [hm.modes_eq]
    cases m <;> decide

theorem AtMostOneMode.shows {m : Mode} (h : a.AtMostOneMode) (hm : a.lit m = true) : a.Shows m :=
  shows_of_lit h.modeCount_le hm

/-- At most one mode and at most one multiplier is lit. A microampere range is never manual: in a
manual range the correction of currents lights the other multiplier. -/
structure Single (a : Annunciators) : Prop where
  one_mode : a.AtMostOneMode
  one_multiplier : ¬ (a.micro = true ∧ a.milli = true)
  auto_of_micro : a.current = true → a.micro = true → a.auto = true

theorem multipliers_withFunction (a : Annunciators) (packetSize : Nat) (code : FunctionCode) :
    (a.withFunction packetSize code).micro = (a.micro || decide (code = .microAmp)) ∧
    (a.withFunction packetSize code).milli = (a.milli || decide (code = .milliAmp)) := by
  cases code with
  | frequencyByJudge =>
    unfold withFunction selectFrequencyMode
    split_ifs <;> simp
  | _ => simp [withFunction]

theorem Dark.single_withFunction? (h : a.Dark) (packetSize : Nat) (code : Option FunctionCode) :
    (a.withFunction? packetSize code).Single := by
  rcases code with _ | code
  · refine ⟨Or.inl h.lit_eq, ?_, ?_⟩ <;> simp [withFunction?, h.micro_eq]
  · obtain ⟨hmicro, hmilli⟩ := a.multipliers_withFunction packetSize code
    rw [h.micro_eq, Bool.false_or] at hmicro
    rw [h.milli_eq, Bool.false_or] at hmilli
    refine ⟨?_, ?_, ?_⟩
    · simp only [withFunction?, AtMostOneMode, Shows, lit_withFunction, h.lit_eq, Bool.false_or]
      cases code.mode? a.judge packetSize with
      | none => exact Or.inl fun m => rfl
      | some m => exact Or.inr ⟨m, fun n => by simp [eq_comm]⟩
    · rw [withFunction?, hmicro, hmilli, decide_eq_true_eq, decide_eq_true_eq]
      rintro ⟨rfl, h⟩
      exact nomatch h
    · rw [withFunction?, hmicro, decide_eq_true_eq]
      rintro - rfl
      rfl

theorem single_ofPacket (h : ofPacket profile p = .ok a) : a.Single := by
  obtain ⟨status, lit, function, _, hlit, _, rfl⟩ := ofPacket_eq_ok_iff.mp h
  exact (dark_readOptions hlit).single_withFunction? _ _

/-! ## One case for each correction -/

namespace Single

/-- The selected frequency takes the place of the voltage or current: behind the blanked lamps it is
lit like the mode of a function byte. -/
theorem selectorFrequency (h : a.Single)
    (happlies : Correction.selectorFrequency.applies profile a = true) :
    (Correction.selectorFrequency.apply profile a).Single := by
  obtain ⟨m, hm, hshows⟩ : ∃ m, (m = .voltage ∨ m = .current) ∧ a.Shows m := by
    obtain hlit | hlit := Bool.or_eq_true_iff.mp (Bool.and_eq_true_iff.mp happlies).2
    · exact ⟨.voltage, Or.inl rfl, h.one_mode.shows hlit⟩
    · exact ⟨.current, Or.inr rfl, h.one_mode.shows hlit⟩
  have hdark :
      Dark { a with voltage := false, current := false, milli := false, micro := false } := by
    refine dark_of_lit rfl rfl fun n => ?_
    have hn : n ≠ .voltage → n ≠ .current → a.lit n = false := fun hvoltage hcurrent =>
      (hshows n).trans (decide_eq_false fun hnm => by obtain rfl | rfl := hm <;> contradiction)
    cases n with
    | voltage | current => rfl
    | _ => exact hn nofun nofun
  exact hdark.single_withFunction? profile.packetSize (some .frequencyByJudge)

theorem selectorVoltage (h : a.Single)
    (happlies : Correction.selectorVoltage.applies profile a = true) :
    (Correction.selectorVoltage.apply profile a).Single := by
  have hcurrent : a.lit .current = true :=
    (Bool.and_eq_true_iff.mp (Bool.and_eq_true_iff.mp happlies).1).1
  have hshows := h.one_mode.shows hcurrent
  refine ⟨Or.inr ⟨.voltage, fun n => ?_⟩, h.one_multiplier, fun hdark => nomatch hdark⟩
  have hn : n ≠ .current → a.lit n = false := fun hn => (hshows n).trans (decide_eq_false hn)
  cases n with
  | voltage | current => rfl
  | _ => exact hn nofun

theorem slowCurrent (h : a.Single)
    (happlies : Correction.slowCurrent.applies profile a = true) :
    (Correction.slowCurrent.apply profile a).Single := by
  obtain ⟨hslow, hmultiplier⟩ := Bool.and_eq_true_iff.mp happlies
  obtain ⟨_, hcurrent⟩ := Bool.and_eq_true_iff.mp hslow
  refine ⟨h.one_mode, ?_, fun _ _ => rfl⟩
  rintro ⟨hmicro, hmilli⟩
  have hmilli : a.milli = false := (Bool.not_eq_true' _).mp hmilli
  have hauto : a.auto = true := h.auto_of_micro hcurrent hmicro
  rw [hmilli, hauto] at hmultiplier
  exact nomatch hmultiplier

/-- **Every correction that applies leaves a single mode and a single multiplier.** -/
theorem apply {c : Correction} (hc : c ∈ Correction.all) (h : a.Single)
    (happlies : c.applies profile a = true) : (c.apply profile a).Single := by
  obtain rfl | rfl | rfl := Correction.mem_all_iff.mp hc
  · exact h.selectorFrequency happlies
  · exact h.selectorVoltage happlies
  · exact h.slowCurrent happlies

theorem corrected (h : a.Single) (profile : Profile) : (a.corrected profile).Single :=
  corrected_induction (fun _ hc _ happlies h => h.apply hc happlies) h

/-- **A state with a single mode and a single multiplier only fails by being both AC and DC.** -/
theorem check_eq (h : a.Single) :
    a.check = if a.ac && a.dc then .error .acAndDc else .ok () := by
  have hmodes : ¬ 1 < a.modeCount := Nat.not_lt.mpr h.one_mode.modeCount_le
  have hmultipliers : ¬ (a.micro && a.milli) = true := fun hboth =>
    h.one_multiplier (Bool.and_eq_true_iff.mp hboth)
  rw [check, if_neg hmultipliers, if_neg hmodes]

theorem check_eq_error (h : a.Single) {e : Error} (he : a.check = .error e) : e = .acAndDc := by
  rw [h.check_eq] at he
  split_ifs at he
  exact (Except.error.inj he).symm

end Single

/-! ## Indicators -/

theorem indicators_corrected (a : Annunciators) (profile : Profile) :
    (a.corrected profile).indicators = a.indicators := by
  refine corrected_induction (motive := fun b => b.indicators = a.indicators)
    (fun c hc b _ hb => Eq.trans ?_ hb) rfl
  obtain rfl | rfl | rfl := Correction.mem_all_iff.mp hc
  · exact indicators_selectFrequencyMode _ _
  · rfl
  · rfl

/-! ## Currents at 2400 baud -/

/-- **Chips at 2400 baud have no manual current range**: the last correction turns it into an
automatic one. -/
theorem auto_corrected (hbaud : profile.baudRate = 2400) (a : Annunciators)
    (hcurrent : (a.corrected profile).current = true) : (a.corrected profile).auto = true := by
  obtain ⟨b, hb⟩ : ∃ b, a.corrected profile = if Correction.slowCurrent.applies profile b then
      Correction.slowCurrent.apply profile b else b := ⟨_, rfl⟩
  rw [hb] at hcurrent ⊢
  split_ifs at hcurrent ⊢ with happlies
  · rfl
  · by_contra hauto
    refine happlies ?_
    have hmanual : (!b.auto) = true := by simpa using hauto
    simp [Correction.slowCurrent, hbaud, hcurrent, hmanual]

theorem exists_rangeRow?_of_current (hcurrent : a.current = true) (hauto : a.auto = true) :
    ∃ row, a.rangeRow? = some row ∧ row.index ≠ RangeRow.manualAmp.index := by
  unfold rangeRow?
  simp only [hcurrent, hauto, Bool.true_and, if_true]
  split_ifs
  · exact ⟨.voltage, rfl, by decide⟩
  · exact ⟨.microamp, rfl, by decide⟩
  · exact ⟨.milliamp, rfl, by decide⟩
  · exact ⟨.amp, rfl, by decide⟩

end Annunciators

end Multimeter.Es519xx
