import Multimeter.Proofs.Es519xx.Correction
import Multimeter.Proofs.Reading
import Multimeter.Proofs.Verdict

/-!
# Conflicts of digit packets

The checks look for three contradictions. Whatever the bytes of a digit packet are, two of them
never come up behind the corrections, and without an AC bit the third does not either.

* `Es519xx.Annunciators.Coherent`: what holds of the state of any packet;
  **`Variant.coherent_of_ofPacket`**.
* `Variant.conflict_of_validate`: what a digit packet is rejected for.
* **`Variant.packets_coherent`**: states, rejections and readings of digit packets.
-/

namespace Multimeter

namespace Es519xx.Annunciators

/-- What holds of the corrected state of a packet, whatever its bytes are. -/
structure Coherent (profile : Profile) (a : Annunciators) : Prop where
  modeCount_le : a.modeCount ≤ 1
  one_multiplier : ¬ (a.micro = true ∧ a.milli = true)
  check_eq_error : ∀ e, a.check = .error e → e = .acAndDc
  ac_eq_not_dc : profile.alternateFunctions = true → a.ac = !a.dc
  auto_of_current : profile.baudRate = 2400 → a.current = true → a.auto = true
  /-- At 2400 baud no current reads the row of manual currents, which holds revolutions there. -/
  row_of_current : profile.baudRate = 2400 → a.current = true →
    ∃ row, a.rangeRow? = some row ∧ row.index ≠ RangeRow.manualAmp.index

theorem Coherent.check_eq_ok {profile : Profile} {a : Annunciators} (h : a.Coherent profile)
    (halternate : profile.alternateFunctions = true) : a.check = .ok () := by
  refine check_eq_ok_iff.mpr ⟨h.one_multiplier, h.modeCount_le, ?_⟩
  rintro ⟨hac, hdc⟩
  have hcoupling := h.ac_eq_not_dc halternate
  rw [hac, hdc] at hcoupling
  exact nomatch hcoupling

end Es519xx.Annunciators

theorem Es519xx.exists_current_of_decode {profile : Profile} {frame : List UInt8} {r : Reading}
    (h : decode profile frame = .ok r) (hcurrent : r.quantity = .current) :
    ∃ a, decodeAnnunciators profile frame = .ok a ∧ a.current = true := by
  obtain ⟨a, shown, e, ha, _, he, rfl⟩ := decode_eq_ok_iff.mp h
  obtain ⟨_, _, _, _, hcheck⟩ := decodeAnnunciators_eq_ok_iff.mp ha
  obtain ⟨row, hrow⟩ := exists_rangeRow_of_exponent he
  obtain ⟨m, hm, hshows⟩ := Annunciators.exists_shows hcheck hrow
  rw [classify_of_shows hshows hm] at hcurrent
  obtain rfl : m = .current := Mode.quantity_inj.mp hcurrent
  exact ⟨a, ha, (hshows .current).trans (decide_eq_true rfl)⟩

namespace Variant

open Es519xx (Annunciators)

variable {v : Variant} {frame : List UInt8}

/-- **The corrected state of a packet is coherent.** -/
theorem coherent_of_ofPacket {p : Es519xx.Packet} {a : Annunciators}
    (h : Annunciators.ofPacket v.profile p = .ok a) :
    (a.corrected v.profile).Coherent v.profile where
  modeCount_le := (Annunciators.single_ofPacket h).corrected v.profile |>.one_mode.modeCount_le
  one_multiplier := (Annunciators.single_ofPacket h).corrected v.profile |>.one_multiplier
  check_eq_error _ he :=
    (Annunciators.single_ofPacket h).corrected v.profile |>.check_eq_error he
  ac_eq_not_dc halternate := by
    have hsize : v.profile.packetSize ≠ 14 := by
      revert halternate
      cases v <;> decide
    have hsame := a.indicators_corrected v.profile
    have hac : (a.corrected v.profile).ac = a.ac := (congrArg Annunciators.ac hsame :)
    have hdc : (a.corrected v.profile).dc = a.dc := (congrArg Annunciators.dc hsame :)
    rw [hac, hdc]
    exact Annunciators.ac_eq_not_dc_of_ofPacket halternate hsize h
  auto_of_current hbaud := a.auto_corrected hbaud
  row_of_current hbaud hcurrent :=
    Annunciators.exists_rangeRow?_of_current hcurrent (a.auto_corrected hbaud hcurrent)

theorem coherent_of_decodeAnnunciators {a : Annunciators}
    (h : Es519xx.decodeAnnunciators v.profile frame = .ok a) : a.Coherent v.profile := by
  obtain ⟨_, lit, hlit, rfl, _⟩ := Es519xx.decodeAnnunciators_eq_ok_iff.mp h
  exact coherent_of_ofPacket hlit

theorem conflict_of_decodeAnnunciators (hv : v.profile.family = .es519xx) {e : Es519xx.Error}
    (he : Es519xx.decodeAnnunciators v.profile frame = .error e)
    (hconflict : e.reason.toClass = .conflict) :
    e = .acAndDc ∧ v.profile.alternateFunctions = false := by
  have hfails : FailsOnly (fun e => e.reason.toClass = .conflict →
      e = .acAndDc ∧ v.profile.alternateFunctions = false)
      (Es519xx.decodeAnnunciators v.profile frame) := by
    refine FailsOnly.bind ?_ fun _ hframing => ?_
    · intro e he hconflict
      exact nomatch (Es519xx.Packet.failsOnly_checkFraming _ e he).symm.trans hconflict
    · have hwhole : Es519xx.Packet.Whole ⟨frame, v.profile.packetSize⟩ :=
        Es519xx.Packet.whole_of_checkFraming (packetSize_es519xx hv) hframing
      obtain ⟨lit, hlit⟩ := Annunciators.exists_ofPacket hwhole rfl
      refine FailsOnly.bind (fun e he => nomatch hlit.symm.trans he) fun a ha => ?_
      refine FailsOnly.bind (fun e he _ => ?_) fun _ _ => failsOnly_ok _
      have hcoherent := coherent_of_ofPacket ha
      refine ⟨hcoherent.check_eq_error e he, Bool.eq_false_iff.mpr fun halternate => ?_⟩
      exact nomatch (hcoherent.check_eq_ok halternate).symm.trans he
  exact hfails e he hconflict

theorem conflict_of_validate (hv : v.profile.family = .es519xx) {e : PacketError}
    (he : v.validate frame = .error e) (hconflict : e.toClass = .conflict) :
    e = .es519xx .acAndDc ∧ v.profile.alternateFunctions = false := by
  rw [validate_of_es519xx frame hv] at he
  cases ha : Es519xx.decodeAnnunciators v.profile frame with
  | ok a =>
    rw [ha] at he
    exact nomatch he
  | error e' =>
    rw [ha] at he
    obtain rfl : PacketError.es519xx e' = e := Except.error.inj he
    obtain ⟨rfl, halternate⟩ := conflict_of_decodeAnnunciators hv ha hconflict
    exact ⟨rfl, halternate⟩

theorem validate_of_decode_conflict (hv : v.profile.family = .es519xx) {e : PacketError}
    (he : v.decode frame = .error e) (hconflict : e.toClass = .conflict) :
    v.validate frame = .error e := by
  cases v.verdict frame with
  | misaligned e' _ validated decoded _ =>
    rwa [← Except.error.inj (decoded.symm.trans he)]
  | contradictory e' _ validated decoded _ =>
    rwa [← Except.error.inj (decoded.symm.trans he)]
  | valid _ _ decoded =>
    have hlate : v.lateClass = .decode := by simp only [lateClass, hv]
    cases hconflict.symm.trans ((decoded e he).trans hlate)

/-- **No packet contradicts itself but by being both AC and DC.** From any bytes that reach up to
the last option a state is read, and it is coherent; no digit packet is rejected for several modes
or multipliers, and none for a contradiction on the format without an AC bit; and at 2400 baud no
current is scaled by the row of manual currents. -/
theorem packets_coherent (v : Variant) (hv : v.profile.family = .es519xx) :
    (∀ bytes : List UInt8,
      (∃ a, Annunciators.ofPacket v.profile ⟨bytes, v.profile.packetSize⟩ = .ok a) ↔
      v.profile.packetSize ≤ bytes.length + 2) ∧
    (∀ (bytes : List UInt8) (a : Annunciators),
      Annunciators.ofPacket v.profile ⟨bytes, v.profile.packetSize⟩ = .ok a →
      (a.corrected v.profile).Coherent v.profile) ∧
    (∀ (frame : List UInt8) (e : PacketError),
      v.validate frame = .error e ∨ v.decode frame = .error e →
      e ≠ .es519xx .multipleMultipliers ∧ (∀ n, e ≠ .es519xx (.multipleModes n)) ∧
      (v.profile.alternateFunctions = true → e.toClass ≠ .conflict)) ∧
    (v.profile.baudRate = 2400 → ∀ (frame : List UInt8) (r : Reading),
      v.decode frame = .ok r → r.quantity = .current →
      ∃ a row, Es519xx.decodeAnnunciators v.profile frame = .ok a ∧ a.auto = true ∧
        a.rangeRow? = some row ∧ row.index ≠ RangeRow.manualAmp.index) := by
  refine ⟨fun bytes => Annunciators.exists_ofPacket_iff (packetSize_es519xx hv) rfl,
    fun bytes a ha => coherent_of_ofPacket ha, fun frame e he => ?_,
    fun hbaud frame r hr hcurrent => ?_⟩
  · have honly : e.toClass = .conflict →
        e = .es519xx .acAndDc ∧ v.profile.alternateFunctions = false := fun hconflict =>
      he.elim (fun he => conflict_of_validate hv he hconflict) fun he =>
        conflict_of_validate hv (validate_of_decode_conflict hv he hconflict) hconflict
    refine ⟨?_, fun n => ?_, fun halternate hconflict => ?_⟩
    · rintro rfl
      exact nomatch (honly rfl).1
    · rintro rfl
      exact nomatch (honly rfl).1
    · exact nomatch halternate.symm.trans (honly hconflict).2
  · rw [decode_of_es519xx frame hv, mapError_eq_ok_iff] at hr
    obtain ⟨a, ha, hlit⟩ := Es519xx.exists_current_of_decode hr hcurrent
    have hcoherent := coherent_of_decodeAnnunciators ha
    obtain ⟨row, hrow, hindex⟩ := hcoherent.row_of_current hbaud hlit
    exact ⟨a, row, ha, hcoherent.auto_of_current hbaud hlit, hrow, hindex⟩

/-- A manual current at 2400 baud, as a packet without its terminator and as a frame, a frame in
which AC and DC are both lit, and a stray character on the format without an AC bit. -/
theorem packets_coherent_manual_current :
    let torn : List UInt8 := [0x30, 0x31, 0x32, 0x33, 0x34, 0x39, 0x30, 0x30, 0x38]
    let manual : List UInt8 := torn ++ [0x0d, 0x0a]
    let both : List UInt8 := [0x30, 0x31, 0x32, 0x33, 0x34, 0x39, 0x30, 0x30, 0x3c, 0x0d, 0x0a]
    let stray : List UInt8 := [0x30, 0x31, 0x32, 0x33, 0x3a, 0x3d, 0x30, 0x30, 0x38, 0x0d, 0x0a]
    let current : Reading := ⟨.current, .ampere, ⟨0x06⟩, ⟨0x3f8945b6c3760bf6⟩, 5⟩
    (slow11.profile.family = .es519xx ∧ slow11Alternate.profile.family = .es519xx) ∧
    (∃ a, Annunciators.ofPacket slow11.profile ⟨torn, 11⟩ = .ok a ∧
      (a.corrected slow11.profile).Coherent slow11.profile) ∧
    (slow11.decode (manual ++ manual) = .ok current ∧
      ∃ a row, Es519xx.decodeAnnunciators slow11.profile (manual ++ manual) = .ok a ∧
        a.auto = true ∧ a.rangeRow? = some row ∧ row.index ≠ RangeRow.manualAmp.index) ∧
    (slow11.validate (both ++ both) = .error (.es519xx .acAndDc) ∧
      PacketError.es519xx .acAndDc ≠ .es519xx .multipleMultipliers) ∧
    (slow11Alternate.decode (stray ++ stray) = .error (.es519xx (.invalidDigit 4 0x3a)) ∧
      (PacketError.es519xx (.invalidDigit 4 0x3a)).toClass ≠ .conflict) := by
  intro torn manual both stray current
  obtain ⟨hread, hcoherent, herrors, hslow⟩ := packets_coherent slow11 rfl
  obtain ⟨_, _, hrejected, _⟩ := packets_coherent slow11Alternate rfl
  have hcurrent : slow11.decode (manual ++ manual) = .ok current := by decide +kernel
  have hboth : slow11.validate (both ++ both) = .error (.es519xx .acAndDc) := by decide +kernel
  have hstray : slow11Alternate.decode (stray ++ stray) =
      .error (.es519xx (.invalidDigit 4 0x3a)) := by decide +kernel
  obtain ⟨a, ha⟩ := (hread torn).mpr (by decide)
  exact ⟨⟨rfl, rfl⟩, ⟨a, ha, hcoherent torn a ha⟩, ⟨hcurrent, hslow rfl _ _ hcurrent rfl⟩,
    ⟨hboth, (herrors _ _ (Or.inl hboth)).1⟩,
    ⟨hstray, (hrejected _ _ (Or.inr hstray)).2.2 rfl⟩⟩

end Variant

end Multimeter
