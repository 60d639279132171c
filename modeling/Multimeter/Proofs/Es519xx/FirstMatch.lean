import Multimeter.Proofs.Es519xx.Correction

/-!
# The first correction that applies

Corrections are tried in order, each on the state that the earlier ones left, so one of them could
bring about the next. None does: the first two put out the current, and the last two ask for it.
So only the first correction whose condition holds to begin with takes effect.

* `Correction.taken`: the corrections that take effect; `Correction.foldl_taken`.
* **`Correction.taken_eq_find?`**: where no correction brings about a later one, only the first that
  applies takes effect; **`Correction.pairwise_all`**: so it is here.
* `Annunciators.modeCount_eq_sum`: the number of lit modes; **`Annunciators.modeCount_apply`**: a
  correction lights no more modes than it puts out, and leaves one lit.
* `Annunciators.withCorrectableOf`: the lamps that corrections may change.
* **`Annunciators.corrected_first_match`**: all of this for any state.
-/

namespace Multimeter.Es519xx

namespace Correction

variable {profile : Profile} {rules : List Correction} {a : Annunciators}

/-! ## The corrections that take effect -/

/-- The corrections of a list that take effect when they are tried in order, each on the state that
the earlier ones left. -/
def taken (profile : Profile) : List Correction → Annunciators → List Correction
  | [], _ => []
  | c :: rest, a =>
    if c.applies profile a then c :: taken profile rest (c.apply profile a)
    else taken profile rest a

theorem foldl_taken (profile : Profile) (rules : List Correction) (a : Annunciators) :
    rules.foldl (fun a c => if c.applies profile a then c.apply profile a else a) a =
      (taken profile rules a).foldl (fun a c => c.apply profile a) a := by
  induction rules generalizing a with
  | nil => rfl
  | cons c rest ih =>
    rw [List.foldl_cons, taken, ih]
    split_ifs <;> rfl

theorem taken_eq_nil (h : ∀ c ∈ rules, c.applies profile a = false) :
    taken profile rules a = [] := by
  induction rules with
  | nil => rfl
  | cons c rest ih =>
    obtain ⟨hc, hrest⟩ := List.forall_mem_cons.mp h
    rw [taken, hc, if_neg Bool.false_ne_true, ih hrest]

/-- **Where no correction brings about a later one, only the first that applies takes effect.** -/
theorem taken_eq_find? (h : rules.Pairwise fun c d =>
      ∀ a, c.applies profile a = true → d.applies profile (c.apply profile a) = false)
    (a : Annunciators) :
    taken profile rules a = (rules.find? (·.applies profile a)).toList := by
  induction rules with
  | nil => rfl
  | cons c rest ih =>
    obtain ⟨hc, hrest⟩ := List.pairwise_cons.mp h
    rw [taken]
    split_ifs with happlies
    · -- the rest is tried on what the first one left, where none of it applies
      rw [List.find?_cons, happlies, taken_eq_nil fun d hd => hc d hd a happlies]
      rfl
    · rw [List.find?_cons, Bool.eq_false_iff.mpr happlies, ih hrest]

/-! ## No correction brings about a later one -/

theorem current_apply {c : Correction} (hc : c = selectorFrequency ∨ c = selectorVoltage)
    (profile : Profile) (a : Annunciators) : (c.apply profile a).current = false := by
  obtain rfl | rfl := hc
  · simp only [selectorFrequency, Annunciators.selectFrequencyMode]
    split_ifs <;> rfl
  · rfl

theorem applies_of_not_current {c : Correction} (hc : c = selectorVoltage ∨ c = slowCurrent)
    (hcurrent : a.current = false) : c.applies profile a = false := by
  obtain rfl | rfl := hc <;> simp [selectorVoltage, slowCurrent, hcurrent]

/-- **No correction brings about a later one.** -/
theorem pairwise_all (profile : Profile) : all.Pairwise fun c d =>
    ∀ a, c.applies profile a = true → d.applies profile (c.apply profile a) = false := by
  refine List.pairwise_cons.mpr ⟨fun d hd a _ => ?_, List.pairwise_cons.mpr ⟨fun d hd a _ => ?_,
    List.pairwise_singleton _ _⟩⟩
  · exact applies_of_not_current (by simpa using hd) (current_apply (Or.inl rfl) profile a)
  · exact applies_of_not_current (Or.inr (List.mem_singleton.mp hd))
      (current_apply (Or.inr rfl) profile a)

end Correction

namespace Annunciators

variable {profile : Profile} {a : Annunciators} {c : Correction}

/-! ## The number of modes -/

theorem modeCount_eq_sum (a : Annunciators) : a.modeCount =
    a.voltage.toNat + a.current.toNat + a.frequency.toNat + a.rpm.toNat + a.dutyCycle.toNat +
      (a.resistance.toNat + a.capacitance.toNat + a.temperature.toNat + a.continuity.toNat +
        a.diode.toNat) := by
  have hone (b : Bool) : (if b = true then 1 else 0) = b.toNat := by cases b <;> rfl
  simp only [modeCount, modes, List.countP_cons, List.countP_nil, hone]
  omega

theorem modeCount_selectorFrequency
    (happlies : Correction.selectorFrequency.applies profile a = true) :
    (Correction.selectorFrequency.apply profile a).modeCount ≤ a.modeCount ∧
      0 < (Correction.selectorFrequency.apply profile a).modeCount := by
  have hsignal : 1 ≤ a.voltage.toNat + a.current.toNat := by
    obtain h | h := Bool.or_eq_true_iff.mp (Bool.and_eq_true_iff.mp happlies).2 <;> rw [h]
    · exact Nat.le_add_right 1 _
    · exact Nat.le_add_left 1 _
  simp only [Correction.selectorFrequency, selectFrequencyMode, modeCount_eq_sum]
  split_ifs <;> simp only [Bool.toNat_true, Bool.toNat_false] <;> omega

theorem modeCount_selectorVoltage
    (happlies : Correction.selectorVoltage.applies profile a = true) :
    (Correction.selectorVoltage.apply profile a).modeCount ≤ a.modeCount ∧
      0 < (Correction.selectorVoltage.apply profile a).modeCount := by
  have hcurrent : a.current = true :=
    (Bool.and_eq_true_iff.mp (Bool.and_eq_true_iff.mp happlies).1).1
  simp only [Correction.selectorVoltage, modeCount_eq_sum, hcurrent, Bool.toNat_true,
    Bool.toNat_false]
  omega

theorem modeCount_slowCurrent (happlies : Correction.slowCurrent.applies profile a = true) :
    (Correction.slowCurrent.apply profile a).modeCount ≤ a.modeCount ∧
      0 < (Correction.slowCurrent.apply profile a).modeCount := by
  have hcurrent : a.current = true :=
    (Bool.and_eq_true_iff.mp (Bool.and_eq_true_iff.mp happlies).1).2
  have hsame : (Correction.slowCurrent.apply profile a).modeCount = a.modeCount := rfl
  rw [hsame, modeCount_eq_sum, hcurrent, Bool.toNat_true]
  omega

/-- **A correction that applies lights no more modes than it puts out**, and leaves one lit. -/
theorem modeCount_apply (hc : c ∈ Correction.all) (happlies : c.applies profile a = true) :
    (c.apply profile a).modeCount ≤ a.modeCount ∧ 0 < (c.apply profile a).modeCount := by
  obtain rfl | rfl | rfl := Correction.mem_all_iff.mp hc
  · exact modeCount_selectorFrequency happlies
  · exact modeCount_selectorVoltage happlies
  · exact modeCount_slowCurrent happlies

/-! ## Lamps that stay -/

/-- The state with the lamps that corrections may change as they are in another state. -/
def withCorrectableOf (b a : Annunciators) : Annunciators :=
  { b with
    voltage := a.voltage, current := a.current, micro := a.micro, milli := a.milli, auto := a.auto
    frequency := a.frequency, rpm := a.rpm, dutyCycle := a.dutyCycle }

theorem withCorrectableOf_apply (hc : c ∈ Correction.all) (profile : Profile)
    (a b : Annunciators) :
    (c.apply profile b).withCorrectableOf a = b.withCorrectableOf a := by
  obtain rfl | rfl | rfl := Correction.mem_all_iff.mp hc
  · simp only [Correction.selectorFrequency, selectFrequencyMode]
    split_ifs <;> rfl
  · rfl
  · rfl

/-- **Corrections are a first-match rule**, on any state and for any format. At most one of them
takes effect: the first in order whose condition holds of the state before any of them, and if there
is none the state stays as it is. There are never more modes lit than before, and not none if there
were some. No lamp changes but those of voltage, current, frequency, revolutions and duty cycle, of
the two multipliers and of the automatic range. -/
theorem corrected_first_match (a : Annunciators) (profile : Profile) :
    Correction.taken profile Correction.all a =
      (Correction.all.find? (·.applies profile a)).toList ∧
    a.corrected profile =
      (Correction.all.find? (·.applies profile a)).elim a (fun c => c.apply profile a) ∧
    (a.corrected profile).modeCount ≤ a.modeCount ∧
    (0 < a.modeCount → 0 < (a.corrected profile).modeCount) ∧
    (a.corrected profile).withCorrectableOf a = a := by
  have htaken := Correction.taken_eq_find? (Correction.pairwise_all profile) a
  have hcorrected : a.corrected profile =
      (Correction.all.find? (·.applies profile a)).elim a (fun c => c.apply profile a) := by
    rw [corrected, Correction.foldl_taken, htaken]
    cases Correction.all.find? (·.applies profile a) <;> rfl
  have hcount : (a.corrected profile).modeCount ≤ a.modeCount ∧
      (0 < a.modeCount → 0 < (a.corrected profile).modeCount) := by
    refine corrected_induction (motive := fun b => b.modeCount ≤ a.modeCount ∧
      (0 < a.modeCount → 0 < b.modeCount)) (fun c hc b happlies hb => ?_) ⟨Nat.le_refl _, id⟩
    obtain ⟨hle, hpos⟩ := modeCount_apply hc happlies
    exact ⟨Nat.le_trans hle hb.1, fun _ => hpos⟩
  have hothers : (a.corrected profile).withCorrectableOf a = a :=
    corrected_induction (motive := fun b => b.withCorrectableOf a = a)
      (fun c hc b _ hb => (withCorrectableOf_apply hc profile a b).trans hb) rfl
  exact ⟨htaken, hcorrected, hcount.1, hcount.2, hothers⟩

/-- A milliampere reading at 2400 baud under both selectors meets all three conditions, and is read
as the frequency of the signal. -/
theorem corrected_first_match_of_three :
    let profile := Variant.slow11.profile
    let a : Annunciators :=
      { current := true, milli := true, auto := true, vahz := true, vasel := true }
    (∀ c ∈ Correction.all, c.applies profile a = true) ∧
      Correction.taken profile Correction.all a = [Correction.selectorFrequency] ∧
      a.corrected profile = { auto := true, vahz := true, vasel := true, frequency := true } ∧
      0 < a.modeCount ∧ 0 < (a.corrected profile).modeCount := by
  intro profile a
  obtain ⟨htaken, hcorrected, _, hpos, _⟩ := corrected_first_match a profile
  exact ⟨by decide, htaken, hcorrected, by decide, hpos (by decide)⟩

end Annunciators

end Multimeter.Es519xx
