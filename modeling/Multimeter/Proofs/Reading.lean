import Multimeter.Proofs.Es519xx.Mode
import Multimeter.Proofs.Es519xx.Stages

/-!
# Well-formed readings

A reading that comes out of a frame does not contradict itself: its unit is one of its quantity, and
its coupling is that of what is measured.

* `Quantity.units`: the units in which a quantity is given; `Reading.WellFormed`.
* `Bm25x.Packet.classify_cases`: what a segment packet can measure.
* `Bm25x.Packet.wellFormed_reading`, `Es519xx.wellFormed_of_decode`: the two families.
* **`Variant.decode_wellFormed`**: every reading of a frame is well formed.
-/

namespace Multimeter

/-- The units in which a quantity is given. -/
def Quantity.units : Quantity → List PhysicalUnit
  | voltage | diode => [.volt]
  | current => [.ampere]
  | resistance => [.ohm]
  | capacitance => [.farad]
  | frequency => [.hertz]
  | temperature => [.celsius, .fahrenheit]
  | continuity => [.boolean]
  | dutyCycle => [.percentage]
  | rpm => [.revolutionsPerMinute]
  | gain => [.unitless]

/-- The parts of a reading do not contradict each other. -/
structure Reading.WellFormed (r : Reading) : Prop where
  not_ac_and_dc : ¬ (r.qualifiers.has .ac = true ∧ r.qualifiers.has .dc = true)
  unit_mem : r.unit ∈ r.quantity.units
  /-- A continuity test reports exactly one or exactly zero. -/
  open_or_closed : r.quantity = .continuity → r.value = .zero ∨ r.value = .one
  diode_iff : r.qualifiers.has .diode = true ↔ r.quantity = .diode
  /-- A diode test counts as DC. -/
  diode_coupling : r.quantity = .diode → r.qualifiers.has .dc = true ∧ r.qualifiers.has .ac = false

/-! ## Segment packets -/

namespace Bm25x.Packet

theorem checkLamps_eq_ok_iff (p : Packet) : p.checkLamps = .ok () ↔
    p.modeCount ≤ 1 ∧ p.litScales.length ≤ 1 ∧ ¬ (p.isLit .ac = true ∧ p.isLit .dc = true) := by
  simp only [checkLamps, ite_error_eq_ok_iff, Nat.not_lt, Bool.and_eq_true_iff, and_true]

theorem decode_eq_ok_iff (p : Packet) {r : Reading} : p.decode = .ok r ↔
    p.checkFraming = .ok () ∧ p.checkLamps = .ok () ∧ r = p.reading := by
  unfold decode
  simp only [bind_eq_ok_iff]
  constructor
  · rintro ⟨_, hframing, _, hlamps, hr⟩
    exact ⟨hframing, hlamps, (Except.ok.inj hr).symm⟩
  · rintro ⟨hframing, hlamps, rfl⟩
    exact ⟨(), hframing, (), hlamps, rfl⟩

theorem temperatureUnit?_mem {p : Packet} {unit : PhysicalUnit} (h : p.temperatureUnit? = some unit) :
    unit ∈ Quantity.temperature.units := by
  unfold temperatureUnit? at h
  split at h
  · obtain rfl := Option.some.inj h
    decide
  · obtain rfl := Option.some.inj h
    decide
  · exact nomatch h

/-- What a segment packet can measure. Voltage has a coupling, and a diode test has none. -/
theorem classify_cases (p : Packet) :
    (∃ unit ∈ Quantity.temperature.units, p.classify = (.temperature, unit)) ∨
    (p.classify = (.voltage, .volt) ∧ (p.isLit .ac || p.isLit .dc) = true) ∨
    (p.classify = (.diode, .volt) ∧ (p.isLit .ac || p.isLit .dc) = false) ∨
    p.classify ∈ [(Quantity.current, PhysicalUnit.ampere), (.resistance, .ohm),
      (.capacitance, .farad), (.frequency, .hertz), (.gain, .unitless)] := by
  unfold classify
  cases hunit : p.temperatureUnit? with
  | some unit => exact Or.inl ⟨unit, temperatureUnit?_mem hunit, rfl⟩
  | none =>
    right
    dsimp only
    by_cases hvoltage : p.isLit .voltage = true
    · rw [if_pos hvoltage]
      cases hcoupling : p.isLit .ac || p.isLit .dc with
      | true => exact Or.inl ⟨rfl, rfl⟩
      | false => exact Or.inr (Or.inl ⟨rfl, rfl⟩)
    · rw [if_neg hvoltage]
      right; right
      split_ifs <;> simp

@[simp] theorem has_qualifiers_ac (p : Packet) : p.qualifiers.has .ac = p.isLit .ac := by
  unfold qualifiers
  split <;> simp [litQualifiers]

@[simp] theorem has_qualifiers_dc (p : Packet) :
    p.qualifiers.has .dc = (p.isLit .dc || decide (p.classify.1 = .diode)) := by
  unfold qualifiers
  split <;> simp_all [litQualifiers]

@[simp] theorem has_qualifiers_diode (p : Packet) :
    p.qualifiers.has .diode = decide (p.classify.1 = .diode) := by
  unfold qualifiers
  split <;> simp_all [litQualifiers]

theorem coupling_eq_decide {p : Packet} (h : p.classify.1 = .voltage ∨ p.classify.1 = .diode) :
    (p.isLit .ac || p.isLit .dc) = decide (p.classify.1 = .voltage) := by
  obtain ⟨unit, _, hp⟩ | ⟨hp, hlit⟩ | ⟨hp, hdark⟩ | hp := classify_cases p
  · simp [hp] at h
  · simp [hp, hlit]
  · simp [hp, hdark]
  · obtain hp | hp | hp | hp | hp := by simpa using hp
    all_goals simp [hp] at h

theorem dark_of_diode {p : Packet} (h : p.classify.1 = .diode) :
    p.isLit .ac = false ∧ p.isLit .dc = false := by
  have hdark := coupling_eq_decide (Or.inr h)
  rw [h] at hdark
  exact Bool.or_eq_false_iff.mp hdark

theorem unit_mem_and_measured (p : Packet) : p.classify.2 ∈ p.classify.1.units ∧
    p.classify.1 ∉ [Quantity.continuity, .dutyCycle, .rpm] := by
  obtain ⟨unit, hunit, hp⟩ | ⟨hp, _⟩ | ⟨hp, _⟩ | hp := classify_cases p
  · rw [hp]
    exact ⟨hunit, (by decide : Quantity.temperature ∉ _)⟩
  · rw [hp]
    decide
  · rw [hp]
    decide
  · revert hp
    generalize p.classify = measured
    revert measured
    decide

theorem coupling_of_voltage {p : Packet} (h : p.checkLamps = .ok ())
    (hvoltage : p.classify.1 = .voltage) : p.qualifiers.has .ac = !p.qualifiers.has .dc := by
  have hcoupling := ((checkLamps_eq_ok_iff p).mp h).2.2
  have hlit := coupling_eq_decide (Or.inl hvoltage)
  rw [has_qualifiers_ac, has_qualifiers_dc, hvoltage]
  cases hac : p.isLit .ac <;> cases hdc : p.isLit .dc <;> simp_all

/-- **The reading of a segment packet whose lamps do not contradict each other is well formed.** -/
theorem wellFormed_reading {p : Packet} (h : p.checkLamps = .ok ()) : p.reading.WellFormed := by
  have hcoupling := ((checkLamps_eq_ok_iff p).mp h).2.2
  obtain ⟨hunit, hmeasured⟩ := unit_mem_and_measured p
  refine ⟨?_, hunit, ?_, ?_, ?_⟩
  · rintro ⟨hac, hdc⟩
    rw [reading, has_qualifiers_ac] at hac
    rw [reading, has_qualifiers_dc, Bool.or_eq_true_iff, decide_eq_true_eq] at hdc
    obtain hdc | hdiode := hdc
    · exact hcoupling ⟨hac, hdc⟩
    · exact nomatch (dark_of_diode hdiode).1.symm.trans hac
  · intro hcontinuity
    rw [show p.classify.1 = .continuity from hcontinuity] at hmeasured
    exact absurd (by decide) hmeasured
  · rw [reading, has_qualifiers_diode, decide_eq_true_eq]
  · intro hdiode
    have hdiode : p.classify.1 = .diode := hdiode
    simp [reading, hdiode, (dark_of_diode hdiode).1]

end Bm25x.Packet

/-! ## Digit packets -/

namespace Es519xx

theorem has_qualifiers_ac (a : Annunciators) : (qualifiers a).has .ac = (a.ac && !a.diode) := by
  unfold qualifiers coupling
  cases a.diode <;> simp

theorem has_qualifiers_dc (a : Annunciators) : (qualifiers a).has .dc = (a.dc || a.diode) := by
  unfold qualifiers coupling
  cases a.diode <;> simp

theorem has_qualifiers_diode (a : Annunciators) : (qualifiers a).has .diode = a.diode := by
  unfold qualifiers coupling
  cases a.diode <;> simp

theorem Mode.unit_mem_units (m : Mode) : m.unit ∈ m.quantity.units := by
  cases m <;> decide

/-- **What a digit packet is read as** is what the one lit mode stands for. -/
theorem exists_shows_of_decode {profile : Profile} {frame : List UInt8} {r : Reading}
    (h : decode profile frame = .ok r) : ∃ a m value, m ≠ .temperature ∧ a.check = .ok () ∧
      a.Shows m ∧ r.quantity = m.quantity ∧ r.unit = m.unit ∧ r.qualifiers = qualifiers a ∧
      r.value = if m = .continuity then (if isClosed value then .one else .zero) else value := by
  obtain ⟨a, shown, e, ha, _, he, rfl⟩ := decode_eq_ok_iff.mp h
  obtain ⟨_, _, _, _, hcheck⟩ := decodeAnnunciators_eq_ok_iff.mp ha
  obtain ⟨row, hrow⟩ := exists_rangeRow_of_exponent he
  obtain ⟨m, hm, hshows⟩ := Annunciators.exists_shows hcheck hrow
  refine ⟨a, m, shown.scale10 e, hm, hcheck, hshows, ?_⟩
  simp only [classify_of_shows hshows hm, and_self]

theorem wellFormed_of_decode {profile : Profile} {frame : List UInt8} {r : Reading}
    (h : decode profile frame = .ok r) : r.WellFormed := by
  obtain ⟨a, m, value, _, hcheck, hshows, hquantity, hunit, hqualifiers, hvalue⟩ :=
    exists_shows_of_decode h
  have hcoupling := (Annunciators.check_eq_ok_iff.mp hcheck).2.2
  have hdiode : a.diode = decide (r.quantity = .diode) := by
    have hlit : a.diode = decide (Mode.diode = m) := hshows .diode
    have hmode : m.quantity = .diode ↔ m = .diode := Mode.quantity_inj (n := .diode)
    rw [hlit, hquantity, decide_eq_decide, hmode, eq_comm]
  refine ⟨?_, ?_, ?_, ?_, ?_⟩
  · rw [hqualifiers, has_qualifiers_ac, has_qualifiers_dc]
    rintro ⟨hac, hdc⟩
    rw [Bool.and_eq_true_iff, Bool.not_eq_true'] at hac
    rw [hac.2, Bool.or_false] at hdc
    exact hcoupling ⟨hac.1, hdc⟩
  · rw [hquantity, hunit]
    exact m.unit_mem_units
  · intro hcontinuity
    have hm : m = .continuity := Mode.quantity_inj.mp (hquantity.symm.trans hcontinuity)
    rw [hvalue, if_pos hm]
    split_ifs
    · exact Or.inr rfl
    · exact Or.inl rfl
  · rw [hqualifiers, has_qualifiers_diode, hdiode, decide_eq_true_eq]
  · intro hr
    rw [decide_eq_true hr] at hdiode
    rw [hqualifiers, has_qualifiers_ac, has_qualifiers_dc, hdiode, Bool.or_true, Bool.not_true,
      Bool.and_false]
    exact ⟨rfl, rfl⟩

end Es519xx

/-! ## All formats -/

namespace Variant

/-- **Every reading of a frame is well formed.** A segment packet knows no continuity, duty cycle and
revolutions, and its voltages are either AC or DC; a digit packet is never read as a gain or a
temperature. -/
theorem decode_wellFormed {v : Variant} {frame : List UInt8} {r : Reading}
    (h : v.decode frame = .ok r) :
    r.WellFormed ∧
    (v.profile.family = .bm25x →
      (r.quantity = .voltage → r.qualifiers.has .ac = !r.qualifiers.has .dc) ∧
        r.quantity ∉ [Quantity.continuity, .dutyCycle, .rpm]) ∧
    (v.profile.family = .es519xx → r.quantity ∉ [Quantity.gain, .temperature]) := by
  cases hv : v.profile.family with
  | bm25x =>
    rw [decode_of_bm25x frame hv, mapError_eq_ok_iff, Bm25x.Packet.decode_eq_ok_iff] at h
    obtain ⟨_, hlamps, rfl⟩ := h
    exact ⟨Bm25x.Packet.wellFormed_reading hlamps,
      fun _ => ⟨Bm25x.Packet.coupling_of_voltage hlamps,
        (Bm25x.Packet.unit_mem_and_measured ⟨frame⟩).2⟩,
      fun hne => nomatch hne⟩
  | es519xx =>
    rw [decode_of_es519xx frame hv, mapError_eq_ok_iff] at h
    refine ⟨Es519xx.wellFormed_of_decode h, fun hne => (nomatch hne), fun _ => ?_⟩
    obtain ⟨_, m, _, hm, _, _, hquantity, _⟩ := Es519xx.exists_shows_of_decode h
    rw [hquantity]
    revert hm
    cases m <;> decide

/-- A voltage from a segment packet, and a diode test during which a meter still lights AC. -/
theorem decode_wellFormed_volts_and_diode :
    let volts : List UInt8 := [0x02, 0x1c, 0x20, 0x30, 0x4a, 0x5a, 0x6d, 0x79, 0x8f, 0x94, 0xae,
      0xb0, 0xc0, 0xd0, 0xe4]
    let diode : List UInt8 :=
      [0x30, 0x30, 0x30, 0x31, 0x32, 0x35, 0x31, 0x30, 0x30, 0x30, 0x36, 0x30, 0x0d, 0x0a]
    let voltage : Reading := ⟨.voltage, .volt, ⟨0x06⟩, ⟨0x4028ae147ae147ae⟩, 2⟩
    let forward : Reading := ⟨.diode, .volt, ⟨0x86⟩, ⟨0x3f8999999999999a⟩, 4⟩
    (bm25x.decode volts = .ok voltage ∧ voltage.WellFormed ∧
      voltage.qualifiers.has .ac = !voltage.qualifiers.has .dc) ∧
    (fast14.decode diode = .ok forward ∧ forward.WellFormed ∧
      (forward.qualifiers.has .dc = true ∧ forward.qualifiers.has .ac = false) ∧
      forward.quantity ∉ [Quantity.gain, .temperature]) := by
  intro volts diode voltage forward
  have hvolts : bm25x.decode volts = .ok voltage := by decide +kernel
  have hdiode : fast14.decode diode = .ok forward := by decide +kernel
  obtain ⟨hvoltage, hsegments, _⟩ := decode_wellFormed hvolts
  obtain ⟨hforward, _, hdigits⟩ := decode_wellFormed hdiode
  exact ⟨⟨hvolts, hvoltage, (hsegments rfl).1 rfl⟩,
    hdiode, hforward, hforward.diode_coupling rfl, hdigits rfl⟩

end Variant

end Multimeter
