import Multimeter.Proofs.Es519xx.Mode
import Multimeter.Proofs.Es519xx.Stages

/-!
# What a packet lights

The status byte and the option bytes light indicators and leave the modes dark; behind them the
function byte lights one mode, or none for an adapter and an unknown code.

* `Annunciators.Dark`: no mode and no multiplier is lit; **`Annunciators.dark_readOptions`**.
* `FunctionCode.mode?`: the mode of a function code; **`Annunciators.lit_withFunction`**.
* `Annunciators.indicators`: what only the status and the options say;
  `Annunciators.indicators_withFunction?`.
-/

namespace Multimeter.Es519xx

/-- The mode that the judge bit chooses, by the size of the packet. -/
def frequencyMode (judge : Bool) (packetSize : Nat) : Mode :=
  if !judge then .frequency else if packetSize = 14 then .dutyCycle else .rpm

/-- The mode that a function code lights; an adapter lights none. -/
def FunctionCode.mode? (judge : Bool) (packetSize : Nat) : FunctionCode → Option Mode
  | voltage => some .voltage
  | amp | microAmp | milliAmp | manualAmp => some .current
  | resistance => some .resistance
  | continuity => some .continuity
  | diode => some .diode
  | frequency => some .frequency
  | frequencyByJudge => some (frequencyMode judge packetSize)
  | capacitance => some .capacitance
  | temperature => some .temperature
  | adapter _ => none

namespace Annunciators

variable {profile : Profile} {p : Packet} {a b : Annunciators}

/-! ## Options leave the modes dark -/

/-- The lamps of the multipliers and the modes. -/
def functionLamps (a : Annunciators) : List Bool := [a.micro, a.milli] ++ a.modes

/-- No multiplier and no mode is lit. -/
def Dark (a : Annunciators) : Prop := ∀ lamp ∈ a.functionLamps, lamp = false

theorem Dark.micro_eq (h : a.Dark) : a.micro = false := h _ (by simp [functionLamps])

theorem Dark.milli_eq (h : a.Dark) : a.milli = false := h _ (by simp [functionLamps])

theorem Dark.lit_eq (h : a.Dark) (m : Mode) : a.lit m = false := by
  refine h _ (List.mem_append_right _ ?_)
  rw [modes_eq_map]
  exact List.mem_map_of_mem m.mem_all

theorem dark_of_lit (hmicro : a.micro = false) (hmilli : a.milli = false)
    (hlit : ∀ m, a.lit m = false) : a.Dark := by
  intro lamp hlamp
  rw [functionLamps, modes_eq_map, List.mem_append, List.mem_map] at hlamp
  obtain hlamp | ⟨m, _, rfl⟩ := hlamp
  · obtain rfl | rfl : lamp = a.micro ∨ lamp = a.milli := by simpa using hlamp
    · exact hmicro
    · exact hmilli
  · exact hlit m

theorem functionLamps_readOptions (h : a.readOptions profile p = .ok b) :
    b.functionLamps = a.functionLamps := by
  obtain ⟨_, o1, o2, o3, o4, _, _, _, _, rfl⟩ | ⟨_, _, o2, _, rfl⟩ | ⟨_, _, o1, o2, _, _, rfl⟩ :=
    readOptions_eq_ok_iff.mp h
  · unfold withOptions14
    split_ifs <;> rfl
  · rfl
  · unfold withSecondOption withFirstOption
    split_ifs <;> rfl

/-- **Status and options light neither a multiplier nor a mode.** -/
theorem dark_readOptions {alternate : Bool} {status : UInt8}
    (h : (ofStatus alternate status).readOptions profile p = .ok b) : b.Dark := by
  have hblank : (ofStatus alternate status).functionLamps = List.replicate 12 false := by
    cases alternate <;> rfl
  intro lamp hlamp
  rw [functionLamps_readOptions h, hblank] at hlamp
  exact List.eq_of_mem_replicate hlamp

/-! ## The function byte lights a mode -/

theorem lit_selectFrequencyMode (a : Annunciators) (packetSize : Nat) (m : Mode) :
    (a.selectFrequencyMode packetSize).lit m =
      (a.lit m || decide (frequencyMode a.judge packetSize = m)) := by
  unfold selectFrequencyMode frequencyMode
  split_ifs <;> cases m <;> simp [lit]

theorem lit_withFunction (a : Annunciators) (packetSize : Nat) (code : FunctionCode) (m : Mode) :
    (a.withFunction packetSize code).lit m =
      (a.lit m || decide (code.mode? a.judge packetSize = some m)) := by
  cases code with
  | frequencyByJudge =>
    rw [withFunction, lit_selectFrequencyMode]
    simp [FunctionCode.mode?]
  | _ => cases m <;> simp [withFunction, FunctionCode.mode?, lit]

/-! ## What only the status and the options say -/

/-- The state without what the function byte lights. -/
def indicators (a : Annunciators) : Annunciators :=
  { a with
    auto := false, micro := false, milli := false, voltage := false, current := false
    resistance := false, continuity := false, diode := false, frequency := false, rpm := false
    dutyCycle := false, capacitance := false, temperature := false, celsius := false
    fahrenheit := false, adapter := none }

theorem indicators_selectFrequencyMode (a : Annunciators) (packetSize : Nat) :
    (a.selectFrequencyMode packetSize).indicators = a.indicators := by
  unfold selectFrequencyMode
  split_ifs <;> rfl

theorem indicators_withFunction? (a : Annunciators) (packetSize : Nat)
    (code : Option FunctionCode) : (a.withFunction? packetSize code).indicators = a.indicators := by
  rcases code with _ | code
  · rfl
  · cases code with
    | frequencyByJudge => exact a.indicators_selectFrequencyMode packetSize
    | _ => rfl

theorem indicators_ofPacket (h : ofPacket profile p = .ok b) : ∃ status lit,
    (ofStatus profile.alternateFunctions status).readOptions profile p = .ok lit ∧
    b.indicators = lit.indicators := by
  obtain ⟨status, lit, function, _, hlit, _, rfl⟩ := ofPacket_eq_ok_iff.mp h
  exact ⟨status, lit, hlit, indicators_withFunction? lit _ _⟩

/-- The alternate layout has no AC bit: what is not DC is AC. -/
theorem ac_eq_not_dc_of_ofPacket (halternate : profile.alternateFunctions = true)
    (hsize : profile.packetSize ≠ 14) (h : ofPacket profile p = .ok b) : b.ac = !b.dc := by
  obtain ⟨status, lit, hlit, hsame⟩ := indicators_ofPacket h
  have hac : b.ac = lit.ac := (congrArg ac hsame :)
  have hdc : b.dc = lit.dc := (congrArg dc hsame :)
  rw [hac, hdc]
  obtain ⟨h14, _⟩ | ⟨_, _, o2, _, rfl⟩ | ⟨_, hlayout, _⟩ := readOptions_eq_ok_iff.mp hlit
  · exact absurd h14 hsize
  · rfl
  · exact absurd halternate hlayout

end Annunciators

end Multimeter.Es519xx
