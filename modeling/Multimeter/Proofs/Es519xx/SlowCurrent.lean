import Multimeter.Proofs.Es519xx.RangeRow

/-!
# Currents at 2400 baud

The last correction exchanges the multipliers of currents at 2400 baud. It turns milliampere into
ampere and the manual range into milliampere. The code of amperes sets the lamp of automatic ranges,
so that the correction passes it by: amperes stay what they are, and two codes end in one row.

* `FunctionCode.slowRow?`: the row of a current code; `FunctionCode.index_eq_iff_of_slowRow?`.
* **`Annunciators.corrected_of_current`**: a current is only touched by the last correction.
* **`Annunciators.Dark.slow_current`**: the state of a current, by its code.
* `Variant.AgreeButFunction`: frames that differ in the function byte only.
* `Variant.ScaledBy`: the row that a frame is scaled by.
* **`Variant.slow_currents`**: which codes are scaled alike; **`Variant.not_forall_index_ne`**:
  amperes and milliamperes are.
-/

namespace Multimeter.Es519xx

namespace FunctionCode

/-- The row that a current is scaled by at 2400 baud. -/
def slowRow? : FunctionCode → Option RangeRow
  | microAmp => some .microamp
  | manualAmp => some .milliamp
  | amp | milliAmp => some .amp
  | _ => none

theorem index_eq_iff_of_slowRow? {c c' : FunctionCode} {row row' : RangeRow}
    (h : c.slowRow? = some row) (h' : c'.slowRow? = some row') :
    row.index = row'.index ↔
      c = c' ∨ (c = amp ∧ c' = milliAmp) ∨ (c = milliAmp ∧ c' = amp) := by
  cases c <;> cases h <;> cases c' <;> cases h' <;> decide

end FunctionCode

namespace Annunciators

variable {profile : Profile} {p p' : Packet} {a lit : Annunciators}

/-! ## The correction of currents -/

theorem frequencyMode_ne_current (judge : Bool) (packetSize : Nat) :
    frequencyMode judge packetSize ≠ .current := by
  unfold frequencyMode
  split_ifs <;> decide

theorem current_selectorFrequency (a : Annunciators) :
    (Correction.selectorFrequency.apply profile a).current = false :=
  (lit_selectFrequencyMode _ _ .current).trans (decide_eq_false (frequencyMode_ne_current _ _))

/-- **A current is only touched by the last correction.** Behind any other one it would not be a
current any more. -/
theorem corrected_of_current (h : (a.corrected profile).current = true) :
    a.current = true ∧ a.corrected profile =
      if Correction.slowCurrent.applies profile a then Correction.slowCurrent.apply profile a
      else a := by
  have hskip {c : Correction} (hc : ∀ b, (c.apply profile b).current = false) {b : Annunciators}
      (hb : (if c.applies profile b then c.apply profile b else b).current = true) :
      (if c.applies profile b then c.apply profile b else b) = b := by
    split_ifs at hb ⊢
    · exact nomatch (hc b).symm.trans hb
    · rfl
  have hlast {b : Annunciators}
      (hb : (if Correction.slowCurrent.applies profile b then
        Correction.slowCurrent.apply profile b else b).current = true) : b.current = true := by
    split_ifs at hb <;> exact hb
  unfold corrected Correction.all at h ⊢
  simp only [List.foldl_cons, List.foldl_nil] at h ⊢
  have hvoltage := hskip (c := .selectorVoltage) (fun _ => rfl) (hlast h)
  rw [hvoltage] at h ⊢
  have hfrequency := hskip (c := .selectorFrequency) current_selectorFrequency (hlast h)
  rw [hfrequency] at h ⊢
  exact ⟨hlast h, rfl⟩

/-- The corrected state of a current at 2400 baud, by its code. -/
def withSlowCurrent (lit : Annunciators) (c : FunctionCode) : Annunciators :=
  { lit with current := true, auto := true, micro := c = .microAmp, milli := c = .manualAmp }

theorem Dark.slow_current (hdark : lit.Dark) (hslow : profile.baudRate = 2400)
    {code : Option FunctionCode}
    (h : ((lit.withFunction? profile.packetSize code).corrected profile).current = true) :
    ∃ c row, code = some c ∧ c.slowRow? = some row ∧
      (lit.withFunction? profile.packetSize code).corrected profile = lit.withSlowCurrent c := by
  obtain ⟨hcurrent, hcorrected⟩ := corrected_of_current h
  rcases code with _ | c
  · exact nomatch (hdark.lit_eq .current).symm.trans hcurrent
  have hmode : c.mode? lit.judge profile.packetSize = some .current := by
    have hlit := lit_withFunction lit profile.packetSize c .current
    rw [hdark.lit_eq, Bool.false_or] at hlit
    exact of_decide_eq_true (hlit.symm.trans hcurrent)
  rw [hcorrected]
  -- the multipliers are those of the code
  have hmicro := hdark.micro_eq
  have hmilli := hdark.milli_eq
  cases c with
  | amp | microAmp | milliAmp | manualAmp =>
    refine ⟨_, _, rfl, rfl, ?_⟩
    simp [withFunction?, withFunction, withSlowCurrent, Correction.slowCurrent, hslow, hmicro,
      hmilli]
  | frequencyByJudge => exact absurd (Option.some.inj hmode) (frequencyMode_ne_current _ _)
  | _ => cases hmode

theorem vbar_readOptions (hslow : profile.baudRate = 2400) (hsize : profile.packetSize ≠ 14)
    {alternate : Bool} {status : UInt8}
    (h : (ofStatus alternate status).readOptions profile p = .ok lit) : lit.vbar = false := by
  obtain ⟨h14, _⟩ | ⟨_, _, o2, _, rfl⟩ | ⟨_, _, o1, o2, _, _, rfl⟩ := readOptions_eq_ok_iff.mp h
  · exact absurd h14 hsize
  · cases alternate <;> rfl
  · rw [withSecondOption, withFirstOption, if_pos hslow, if_pos hslow]
    cases alternate <;> rfl

theorem Dark.tableRow?_withSlowCurrent (hdark : lit.Dark) (hvbar : lit.vbar = false)
    {c : FunctionCode} {row : RangeRow} (h : c.slowRow? = some row) :
    (lit.withSlowCurrent c).tableRow? = some row := by
  have hvoltage : lit.voltage = false := hdark.lit_eq .voltage
  have hduty : lit.dutyCycle = false := hdark.lit_eq .dutyCycle
  rw [← h]
  cases c <;> cases h <;>
    simp [tableRow?, rangeRow?, withSlowCurrent, FunctionCode.slowRow?, hvbar, hvoltage, hduty]

end Annunciators

end Multimeter.Es519xx

namespace Multimeter.Variant

open Es519xx (Annunciators FunctionCode)

variable {v : Variant} {frame frame' : List UInt8} {r r' : Reading}

/-- What the function byte of a frame stands for. -/
def function? (v : Variant) (frame : List UInt8) : Option FunctionCode :=
  FunctionCode.ofByte? v.profile.alternateFunctions (v.packet frame).functionByte

/-- The exponent of the frame is looked up in the row. -/
def ScaledBy (v : Variant) (frame : List UInt8) (row : RangeRow) : Prop :=
  ∃ a, Es519xx.decodeAnnunciators v.profile frame = .ok a ∧ a.tableRow? = some row

/-- The frames are the same but for the function byte, in each copy of the packet. -/
structure AgreeButFunction (v : Variant) (frame frame' : List UInt8) : Prop where
  length_eq : frame'.length = frame.length
  getElem?_eq : ∀ i < frame.length, i % v.profile.packetSize ≠ (v.packet frame).functionOffset →
    frame'[i]? = frame[i]?

/-! ## Frames that differ in the function byte -/

theorem AgreeButFunction.read_eq (h : v.AgreeButFunction frame frame') {i : Nat}
    (hi : i % v.profile.packetSize ≠ (v.packet frame).functionOffset) :
    (v.packet frame').read i = (v.packet frame).read i := by
  have hlength := h.length_eq
  have hbyte : frame'[i]? = frame[i]? := by
    by_cases hlow : i < frame.length
    · exact h.getElem?_eq i hlow hi
    · rw [List.getElem?_eq_none (by omega), List.getElem?_eq_none (by omega)]
  unfold Es519xx.Packet.read
  rw [hbyte, hlength]

theorem packetSize_of_slow (hslow : v.profile.baudRate = 2400) :
    v.profile.family = .es519xx ∧ v.profile.packetSize = 11 := by
  revert hslow
  cases v <;> decide

section

variable (hslow : v.profile.baudRate = 2400)

include hslow

theorem exists_slow_current (h : v.decode frame = .ok r) (hcurrent : r.quantity = .current) :
    ∃ status lit c row shown e, (v.packet frame).status = .ok status ∧
      (Annunciators.ofStatus v.profile.alternateFunctions status).readOptions v.profile
        (v.packet frame) = .ok lit ∧
      v.function? frame = some c ∧ c.slowRow? = some row ∧
      Es519xx.decodeAnnunciators v.profile frame = .ok (lit.withSlowCurrent c) ∧
      (lit.withSlowCurrent c).tableRow? = some row ∧
      Es519xx.signedDisplay (v.packet frame) (lit.withSlowCurrent c) = .ok shown ∧
      Es519xx.exponent v.profile (v.packet frame) (lit.withSlowCurrent c) = .ok e ∧
      r = Es519xx.readingOf (lit.withSlowCurrent c) shown e := by
  obtain ⟨hv, hsize⟩ := packetSize_of_slow hslow
  rw [decode_of_es519xx frame hv, mapError_eq_ok_iff] at h
  obtain ⟨a, ha, hlamp⟩ := Es519xx.exists_current_of_decode h hcurrent
  obtain ⟨a', shown, e, ha', hshown, he, hr⟩ := Es519xx.decode_eq_ok_iff.mp h
  obtain rfl : a = a' := Except.ok.inj (ha.symm.trans ha')
  obtain ⟨hframing, _, hlit, rfl, _⟩ := Es519xx.decodeAnnunciators_eq_ok_iff.mp ha
  obtain ⟨status, lit, function, hstatus, hoptions, hfunction, rfl⟩ :=
    Annunciators.ofPacket_eq_ok_iff.mp hlit
  have hdark := Annunciators.dark_readOptions hoptions
  obtain ⟨c, row, hcode, hrow, hstate⟩ := hdark.slow_current hslow hlamp
  have hbyte : (v.packet frame).functionByte = function := by
    have hp := Es519xx.Packet.whole_of_checkFraming (packetSize_es519xx hv) hframing
    exact Except.ok.inj ((Es519xx.Packet.function_eq_ok hp).symm.trans hfunction)
  have hvbar := Annunciators.vbar_readOptions hslow (by omega) hoptions
  rw [hstate] at ha hshown he hr
  refine ⟨status, lit, c, row, shown, e, hstatus, hoptions, ?_, hrow, ha,
    hdark.tableRow?_withSlowCurrent hvbar hrow, hshown, he, hr⟩
  rw [function?, hbyte, hcode]

theorem AgreeButFunction.reads_eq (h : v.AgreeButFunction frame frame') :
    (v.packet frame').status = (v.packet frame).status ∧
    (∀ a : Annunciators, a.readOptions v.profile (v.packet frame') =
      a.readOptions v.profile (v.packet frame)) ∧
    (v.packet frame').digits = (v.packet frame).digits ∧
    (v.packet frame').rangeIndex = (v.packet frame).rangeIndex := by
  obtain ⟨_, hsize⟩ := packetSize_of_slow hslow
  have hdigits (frame : List UInt8) : (v.packet frame).digitCount = 4 := by
    simp [Es519xx.Packet.digitCount, hsize]
  have hread {i : Nat} (hi : i < 11) (hfunction : i ≠ 5) :
      (v.packet frame').read i = (v.packet frame).read i := by
    refine h.read_eq ?_
    rw [Es519xx.Packet.functionOffset, hdigits, hsize]
    omega
  refine ⟨?_, fun a => ?_, ?_, ?_⟩
  · rw [Es519xx.Packet.status, Es519xx.Packet.status, Es519xx.Packet.statusOffset,
      Es519xx.Packet.statusOffset, Es519xx.Packet.functionOffset, Es519xx.Packet.functionOffset,
      hdigits, hdigits]
    exact hread (by decide) (by decide)
  · have h14 : v.profile.packetSize ≠ 14 := by omega
    rw [Annunciators.readOptions, Annunciators.readOptions, if_neg h14, if_neg h14,
      hread (i := 7) (by decide) (by decide), hread (i := 8) (by decide) (by decide)]
  · rw [Es519xx.Packet.digits, Es519xx.Packet.digits, hdigits, hdigits]
    refine mapM_congr fun i hi => ?_
    rw [List.mem_range'_1] at hi
    rw [Es519xx.Packet.digit, Es519xx.Packet.digit, hread (by omega) (by omega)]
  · rw [Es519xx.Packet.rangeIndex, Es519xx.Packet.rangeIndex, hread (by decide) (by decide)]

/-- **Amperes and milliamperes are merged at 2400 baud, and no other two currents are.** Frames that
differ in the function byte only, and are both read as a current, are scaled by the rows of their
codes. The two rows are the same just for the same code and for amperes with milliamperes; and then
so are the readings. -/
theorem slow_currents (hframes : v.AgreeButFunction frame frame') (h : v.decode frame = .ok r)
    (h' : v.decode frame' = .ok r') (hcurrent : r.quantity = .current)
    (hcurrent' : r'.quantity = .current) :
    ∃ c c' row row', (v.function? frame = some c ∧ v.function? frame' = some c') ∧
      (c.slowRow? = some row ∧ c'.slowRow? = some row') ∧
      (v.ScaledBy frame row ∧ v.ScaledBy frame' row') ∧
      (row.index = row'.index ↔
        c = c' ∨ (c = .amp ∧ c' = .milliAmp) ∨ (c = .milliAmp ∧ c' = .amp)) ∧
      (row.index = row'.index → r = r') := by
  obtain ⟨hstatus, hoptions, hdigits, hrange⟩ := hframes.reads_eq hslow
  obtain ⟨status, lit, c, row, shown, e, hs, hlit, hc, hrow, ha, htable, hshown, he, rfl⟩ :=
    exists_slow_current hslow h hcurrent
  obtain ⟨status', lit', c', row', shown', e', hs', hlit', hc', hrow', ha', htable', hshown', he',
    rfl⟩ := exists_slow_current hslow h' hcurrent'
  -- status and options are the same
  obtain rfl : status = status' := Except.ok.inj (hs.symm.trans (hstatus.symm.trans hs'))
  obtain rfl : lit = lit' := Except.ok.inj (hlit.symm.trans ((hoptions _).symm.trans hlit'))
  have hindex := FunctionCode.index_eq_iff_of_slowRow? hrow hrow'
  refine ⟨c, c', row, row', ⟨hc, hc'⟩, ⟨hrow, hrow'⟩, ⟨⟨_, ha, htable⟩, ⟨_, ha', htable'⟩⟩, hindex,
    fun hsame => ?_⟩
  have hstate : lit.withSlowCurrent c' = lit.withSlowCurrent c := by
    obtain rfl | ⟨rfl, rfl⟩ | ⟨rfl, rfl⟩ := hindex.mp hsame <;> rfl
  rw [hstate] at hshown' he' ⊢
  obtain rfl : shown = shown' := Except.ok.inj (hshown.symm.trans
    ((Es519xx.signedDisplay_congr rfl rfl rfl hdigits).symm.trans hshown'))
  obtain ⟨range, hr, hentry⟩ := Annunciators.of_tableRow? htable he
  obtain ⟨range', hr', hentry'⟩ := Annunciators.of_tableRow? htable he'
  obtain rfl : range = range' := Except.ok.inj (hr.symm.trans (hrange.symm.trans hr'))
  rw [Option.some.inj (hentry.symm.trans hentry')]

end

/-- Amperes and milliamperes on the standard table, milliamperes and microamperes on the alternate
one. -/
theorem slow_currents_both_tables :
    let frame (function : UInt8) : List UInt8 :=
      let packet := [0x30, 0x31, 0x32, 0x33, 0x34, function, 0x30, 0x30, 0x38, 0x0d, 0x0a]
      packet ++ packet
    let ampere : Reading := ⟨.current, .ampere, ⟨0x06⟩, ⟨0x4028ae147ae147ae⟩, 2⟩
    let microampere : Reading := ⟨.current, .ampere, ⟨0x06⟩, ⟨0x3f202c9dedbc309d⟩, 7⟩
    ((slow11.decode (frame 0x30) = .ok ampere ∧ slow11.decode (frame 0x3f) = .ok ampere) ∧
      ∃ row row', slow11.ScaledBy (frame 0x30) row ∧ slow11.ScaledBy (frame 0x3f) row' ∧
        row.index = row'.index) ∧
    ((slow11Alternate.decode (frame 0x3d) = .ok ampere ∧
        slow11Alternate.decode (frame 0x3e) = .ok microampere) ∧
      ∃ row row', slow11Alternate.ScaledBy (frame 0x3d) row ∧
        slow11Alternate.ScaledBy (frame 0x3e) row' ∧ row.index ≠ row'.index) := by
  intro frame ampere microampere
  have hamp : slow11.decode (frame 0x30) = .ok ampere := by decide +kernel
  have hmilli : slow11.decode (frame 0x3f) = .ok ampere := by decide +kernel
  have hmilli' : slow11Alternate.decode (frame 0x3d) = .ok ampere := by decide +kernel
  have hmicro' : slow11Alternate.decode (frame 0x3e) = .ok microampere := by decide +kernel
  have hframes : slow11.AgreeButFunction (frame 0x30) (frame 0x3f) := ⟨rfl, by decide⟩
  have hframes' : slow11Alternate.AgreeButFunction (frame 0x3d) (frame 0x3e) := ⟨rfl, by decide⟩
  obtain ⟨c, c', row, row', ⟨hc, hc'⟩, _, ⟨hrow, hrow'⟩, hindex, _⟩ :=
    slow_currents rfl hframes hamp hmilli rfl rfl
  obtain ⟨d, d', line, line', ⟨hd, hd'⟩, _, ⟨hline, hline'⟩, hindex', _⟩ :=
    slow_currents rfl hframes' hmilli' hmicro' rfl rfl
  cases hc
  cases hc'
  cases hd
  cases hd'
  exact ⟨⟨⟨hamp, hmilli⟩, row, row', hrow, hrow', hindex.mpr (by decide)⟩, ⟨hmilli', hmicro'⟩,
    line, line', hline, hline', hindex'.not.mpr (by decide)⟩

/-- **Not every two current codes have rows of their own.** On the alternate table amperes and
milliamperes share the row of amperes. -/
theorem not_forall_index_ne :
    ¬ ∀ (v : Variant) (frame frame' : List UInt8) (r r' : Reading) (row row' : RangeRow),
      v.profile.baudRate = 2400 → v.AgreeButFunction frame frame' →
      v.decode frame = .ok r → v.decode frame' = .ok r' →
      r.quantity = .current → r'.quantity = .current → v.function? frame ≠ v.function? frame' →
      v.ScaledBy frame row → v.ScaledBy frame' row' → row.index ≠ row'.index := by
  let ampere : List UInt8 := [0x30, 0x31, 0x32, 0x33, 0x34, 0x3f, 0x30, 0x30, 0x38, 0x0d, 0x0a]
  let milliampere : List UInt8 :=
    [0x30, 0x31, 0x32, 0x33, 0x34, 0x3d, 0x30, 0x30, 0x38, 0x0d, 0x0a]
  let current : Reading := ⟨.current, .ampere, ⟨0x06⟩, ⟨0x4028ae147ae147ae⟩, 2⟩
  let lit : Annunciators := { dc := true, auto := true, current := true }
  have hdecode : slow11Alternate.decode (ampere ++ ampere) = .ok current := by decide +kernel
  have hdecode' : slow11Alternate.decode (milliampere ++ milliampere) = .ok current := by
    decide +kernel
  have hlit : Es519xx.decodeAnnunciators slow11Alternate.profile (ampere ++ ampere) = .ok lit := by
    decide +kernel
  have hlit' : Es519xx.decodeAnnunciators slow11Alternate.profile (milliampere ++ milliampere) =
      .ok lit := by decide +kernel
  intro h
  exact h slow11Alternate (ampere ++ ampere) (milliampere ++ milliampere) current current .amp .amp
    rfl ⟨rfl, by decide⟩ hdecode hdecode' rfl rfl (by decide) ⟨lit, hlit, rfl⟩ ⟨lit, hlit', rfl⟩ rfl

end Multimeter.Variant
