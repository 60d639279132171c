import Multimeter.Proofs.Es519xx.Correction
import Multimeter.Proofs.Verdict

/-!
# Refusals of digit packets

A framed digit packet is refused for one of six reasons, and the first of them decides. Behind the
framing checks no read fails, so the reasons can be read off the bytes and the corrected state.

* `Packet.strayDigit?`, `isSupported`: a byte on the display that is no digit, a function byte whose
  mode has exponents.
* `refusal?`: the first reason in order.
* `Packet.digits_of_strayDigit?`, `Packet.exists_digits`: when the display can be read.
* **`Annunciators.isSome_rangeRow?_iff`**: only a supported function has a row in the range table.
* `exponent_of_rangeRow?`, `exponent_of_bar`, `exists_exponent`: when there is an exponent.
* **`decode_refusal`**: a packet is refused for the first reason, and read when there is none.
-/

namespace Multimeter.Es519xx

/-! ## The reasons in order -/

namespace Packet

/-- The byte at an offset of the packet. -/
def byteAt (p : Packet) (offset : Nat) : UInt8 := p.bytes.getD offset 0

/-- The first offset on the display with a byte that is no digit. -/
def strayDigit? (p : Packet) : Option Nat :=
  (List.range' 1 p.digitCount).find? fun offset => !isDigit (p.byteAt offset)

/-- The range byte, one of the characters `0` to `7` in a sound packet. -/
def rangeByte (p : Packet) : UInt8 := p.byteAt 0

def functionByte (p : Packet) : UInt8 := p.byteAt p.functionOffset

end Packet

/-- Whether readings of the mode have an exponent. -/
def FunctionCode.isMeasured : FunctionCode → Bool
  | temperature | adapter _ => false
  | _ => true

/-- Whether a byte is a function code of the format whose readings have an exponent. -/
def isSupported (profile : Profile) (function : UInt8) : Bool :=
  (FunctionCode.ofByte? profile.alternateFunctions function).any FunctionCode.isMeasured

/-- Why a framed packet with the corrected state `a` is refused, if it is. The first reason
decides. -/
def refusal? (profile : Profile) (p : Packet) (a : Annunciators) : Option Error :=
  if a.ac && a.dc then some .acAndDc
  else
    match if a.overflow || a.underflow then none else p.strayDigit? with
    | some offset => some (.invalidDigit offset (p.byteAt offset))
    | none =>
      if p.rangeByte < '0'.toUInt8 || '7'.toUInt8 < p.rangeByte then
        some (.invalidRange p.rangeByte)
      else if !isSupported profile p.functionByte then some (.unsupportedMode p.functionByte)
      else if a.vbar && (a.micro || a.milli) && '1'.toUInt8 < p.rangeByte then
        some (.invalidRange p.rangeByte)
      else none

/-! ## Reading the bytes -/

namespace Packet

variable {p : Packet}

theorem read_eq_ok {i : Nat} (h : i < p.bytes.length) : p.read i = .ok (p.byteAt i) := by
  rw [read_eq_ok_iff, byteAt, List.getD_eq_getElem?_getD, List.getElem?_eq_getElem h]
  rfl

section

variable (hp : p.Whole)

include hp

theorem read_rangeByte : p.read 0 = .ok p.rangeByte := by
  have hdigits := hp.digitCount_le
  exact read_eq_ok (by omega)

theorem function_eq_ok : p.function = .ok p.functionByte := by
  have hdigits := hp.digitCount_le
  exact read_eq_ok (by unfold functionOffset; omega)

theorem digit_eq {i : Nat} (hi : i ∈ List.range' 1 p.digitCount) :
    p.digit i = if isDigit (p.byteAt i) then .ok (p.byteAt i - 48)
      else .error (.invalidDigit i (p.byteAt i)) := by
  have hdigits := hp.digitCount_le
  rw [List.mem_range'_1] at hi
  rw [digit, read_eq_ok (by omega)]
  rfl

theorem digits_of_strayDigit? {i : Nat} (h : p.strayDigit? = some i) :
    p.digits = .error (.invalidDigit i (p.byteAt i)) := by
  have hstray : isDigit (p.byteAt i) = false := by simpa using List.find?_some h
  refine mapM_eq_error_of_find? h (fun j hj hdigit => ?_) ?_
  · rw [digit_eq hp hj, if_pos (by simpa using hdigit)]
    exact ⟨_, rfl⟩
  · rw [digit_eq hp (List.mem_of_find?_eq_some h), if_neg (Bool.eq_false_iff.mp hstray)]

theorem exists_digits (h : p.strayDigit? = none) : ∃ digits, p.digits = .ok digits := by
  refine exists_mapM_eq_ok fun i hi => ?_
  have hdigit := List.find?_eq_none.mp h i hi
  rw [digit_eq hp hi, if_pos (by simpa using hdigit)]
  exact ⟨_, rfl⟩

end

end Packet

/-! ## Functions with exponents -/

namespace Annunciators

variable {profile : Profile} {p : Packet} {a : Annunciators}

/-- A mode whose readings have an exponent is lit. -/
def Measures (a : Annunciators) : Prop := ∃ m, m ≠ .temperature ∧ a.lit m = true

theorem lit_eq_false_of_rangeRow? (h : a.rangeRow? = none) {m : Mode} (hm : m ≠ .temperature) :
    a.lit m = false := by
  simp only [rangeRow?, ite_eq_iff, reduceCtorEq, and_false, false_or, and_true,
    Bool.not_eq_true, Bool.or_eq_false_iff] at h
  obtain ⟨hvoltage, _, _, _, hcurrent, hrpm, ⟨hresistance, hcontinuity⟩, hfrequency, hcapacitance,
    hdiode, hduty⟩ := h
  cases m with
  | voltage => exact hvoltage
  | current => exact hcurrent
  | resistance => exact hresistance
  | frequency => exact hfrequency
  | capacitance => exact hcapacitance
  | temperature => exact absurd rfl hm
  | continuity => exact hcontinuity
  | diode => exact hdiode
  | rpm => exact hrpm
  | dutyCycle => exact hduty

theorem isSome_rangeRow?_iff_measures : a.rangeRow?.isSome ↔ a.Measures := by
  rw [Option.isSome_iff_ne_none, ← not_iff_not, not_not]
  constructor
  · rintro hrow ⟨m, hm, hlit⟩
    exact nomatch (lit_eq_false_of_rangeRow? hrow hm).symm.trans hlit
  · intro hdark
    exact rangeRow?_eq_none fun m hm => Bool.eq_false_iff.mpr fun hlit => hdark ⟨m, hm, hlit⟩

theorem isMeasured_iff (code : FunctionCode) (judge : Bool) (packetSize : Nat) :
    code.isMeasured = true ↔ ∃ m, m ≠ .temperature ∧ code.mode? judge packetSize = some m := by
  have hfrequency : frequencyMode judge packetSize ≠ .temperature := by
    unfold frequencyMode
    split_ifs <;> decide
  cases code <;> simp [FunctionCode.isMeasured, FunctionCode.mode?, hfrequency]

theorem Dark.measures_withFunction?_iff (h : a.Dark) (packetSize : Nat)
    (code : Option FunctionCode) :
    (a.withFunction? packetSize code).Measures ↔ code.any FunctionCode.isMeasured = true := by
  cases code with
  | none => simp [withFunction?, Measures, h.lit_eq]
  | some code =>
    rw [Option.any_some, isMeasured_iff code a.judge packetSize]
    simp [withFunction?, Measures, lit_withFunction, h.lit_eq]

/-- **Corrections keep what is measured measured**, and light nothing on a state that measures
nothing: each of them asks for a voltage or a current. -/
theorem measures_corrected_iff : (a.corrected profile).Measures ↔ a.Measures := by
  refine corrected_induction (motive := fun b => b.Measures ↔ a.Measures)
    (fun c hc b happlies hb => Iff.trans ?_ hb) Iff.rfl
  obtain rfl | rfl | rfl := Correction.mem_all_iff.mp hc
  · have hbefore : b.Measures := by
      obtain hlit | hlit := Bool.or_eq_true_iff.mp (Bool.and_eq_true_iff.mp happlies).2
      · exact ⟨.voltage, by decide, hlit⟩
      · exact ⟨.current, by decide, hlit⟩
    have hselected : frequencyMode b.judge profile.packetSize ≠ .temperature := by
      unfold frequencyMode
      split_ifs <;> decide
    refine iff_of_true ⟨_, hselected, ?_⟩ hbefore
    simp [Correction.selectorFrequency, lit_selectFrequencyMode]
  · have hcurrent := (Bool.and_eq_true_iff.mp (Bool.and_eq_true_iff.mp happlies).1).1
    exact iff_of_true ⟨.voltage, by decide, rfl⟩ ⟨.current, by decide, hcurrent⟩
  · have hcurrent := (Bool.and_eq_true_iff.mp (Bool.and_eq_true_iff.mp happlies).1).2
    exact iff_of_true ⟨.current, by decide, hcurrent⟩ ⟨.current, by decide, hcurrent⟩

/-- **A corrected packet has a row in the range table just when its function is supported.** -/
theorem isSome_rangeRow?_iff (hp : p.Whole) (h : ofPacket profile p = .ok a) :
    (a.corrected profile).rangeRow?.isSome ↔ isSupported profile p.functionByte = true := by
  obtain ⟨status, lit, function, _, hlit, hfunction, rfl⟩ := ofPacket_eq_ok_iff.mp h
  obtain rfl : p.functionByte = function :=
    Except.ok.inj ((Packet.function_eq_ok hp).symm.trans hfunction)
  rw [isSome_rangeRow?_iff_measures, measures_corrected_iff,
    (dark_readOptions hlit).measures_withFunction?_iff]
  rfl

end Annunciators

/-! ## The display and the exponent -/

section

variable {profile : Profile} {p : Packet} {a : Annunciators} (hp : p.Whole)

include hp

theorem signedDisplay_of_strayDigit? (hover : (a.overflow || a.underflow) = false) {i : Nat}
    (h : p.strayDigit? = some i) :
    signedDisplay p a = .error (.invalidDigit i (p.byteAt i)) := by
  rw [signedDisplay, if_neg (Bool.eq_false_iff.mp hover)]
  exact bind_eq_error (Packet.digits_of_strayDigit? hp h)

theorem exists_signedDisplay
    (h : (if a.overflow || a.underflow then none else p.strayDigit?) = none) :
    ∃ shown, signedDisplay p a = .ok shown := by
  rw [signedDisplay]
  by_cases hover : (a.overflow || a.underflow) = true
  · rw [if_pos hover]
    exact ⟨_, rfl⟩
  · rw [if_neg hover] at h ⊢
    obtain ⟨digits, hdigits⟩ := Packet.exists_digits hp h
    exact ⟨_, bind_of_eq_ok hdigits⟩

theorem exponent_of_rangeByte (h : p.rangeByte < '0'.toUInt8 ∨ '7'.toUInt8 < p.rangeByte) :
    exponent profile p a = .error (.invalidRange p.rangeByte) := by
  refine bind_eq_error ?_
  have hout : ¬ (48 ≤ p.rangeByte && p.rangeByte ≤ 55) = true := by
    rw [Bool.and_eq_true_iff, decide_eq_true_eq, decide_eq_true_eq]
    rintro ⟨hlow, hhigh⟩
    exact h.elim (UInt8.not_lt.mpr hlow) (UInt8.not_lt.mpr hhigh)
  rw [Packet.rangeIndex, bind_of_eq_ok (Packet.read_rangeByte hp), if_neg hout]
  rfl

theorem barExponent_eq {exponents : List Int} (hlength : exponents.length = 2) :
    ('1'.toUInt8 < p.rangeByte →
      barExponent p exponents (p.rangeByte.toNat - 48) = .error (.invalidRange p.rangeByte)) ∧
    (¬ '1'.toUInt8 < p.rangeByte →
      ∃ e, barExponent p exponents (p.rangeByte.toNat - 48) = .ok e) := by
  have hbeyond : '1'.toUInt8 < p.rangeByte ↔ 49 < p.rangeByte.toNat := UInt8.lt_iff_toNat_lt
  unfold barExponent
  rw [hbeyond]
  constructor
  · intro h
    rw [List.getElem?_eq_none (by omega), bind_of_eq_ok (Packet.read_rangeByte hp)]
    rfl
  · intro h
    rw [List.getElem?_eq_getElem (by omega)]
    exact ⟨_, rfl⟩

/-! The range byte counts the ranges from the character `0`. -/

variable (hlow : '0'.toUInt8 ≤ p.rangeByte) (hhigh : p.rangeByte ≤ '7'.toUInt8)

include hlow hhigh

theorem rangeIndex_eq_ok : p.rangeIndex = .ok (p.rangeByte.toNat - 48) := by
  have hin : (48 ≤ p.rangeByte && p.rangeByte ≤ 55) = true := by
    rw [Bool.and_eq_true_iff, decide_eq_true_eq, decide_eq_true_eq]
    exact ⟨hlow, hhigh⟩
  have hvalue : (p.rangeByte - 48).toNat = p.rangeByte.toNat - 48 :=
    UInt8.toNat_sub_of_le _ _ hlow
  rw [Packet.rangeIndex, bind_of_eq_ok (Packet.read_rangeByte hp), if_pos hin, hvalue]
  rfl

theorem exponent_of_rangeRow? (h : a.rangeRow? = none) :
    exponent profile p a = .error (.unsupportedMode p.functionByte) := by
  rw [exponent, bind_of_eq_ok (rangeIndex_eq_ok hp hlow hhigh),
    bind_of_eq_ok (Packet.function_eq_ok hp), h]
  rfl

theorem exponent_of_bar {row : RangeRow} (hrow : a.rangeRow? = some row)
    (hbar : (a.vbar && (a.micro || a.milli)) = true) (h : '1'.toUInt8 < p.rangeByte) :
    exponent profile p a = .error (.invalidRange p.rangeByte) := by
  obtain ⟨hvbar, hmultiplier⟩ := Bool.and_eq_true_iff.mp hbar
  rw [exponent, bind_of_eq_ok (rangeIndex_eq_ok hp hlow hhigh),
    bind_of_eq_ok (Packet.function_eq_ok hp), hrow]
  dsimp only
  rw [if_pos hvbar]
  split_ifs with hmicro hmilli
  · exact (barExponent_eq hp rfl).1 h
  · exact (barExponent_eq hp rfl).1 h
  · simp [hmicro, hmilli] at hmultiplier

end

/-- **A range table is complete**: it has an exponent for every row and every range. -/
theorem exists_exponent? {v : Variant} (hv : v.profile.family = .es519xx) (row : RangeRow)
    {range : Nat} (h : range < 8) :
    ∃ e, (v.profile.rangeTable >>= (·.exponent? row.index range)) = some e := by
  have hcomplete : ∀ range < 8,
      (v.profile.rangeTable >>= (·.exponent? row.index range)).isSome = true := by
    cases v with
    | bm25x => exact nomatch hv
    | _ => cases row <;> decide
  exact Option.isSome_iff_exists.mp (hcomplete range h)

/-! ## Refusals -/

section

variable {v : Variant} (hv : v.profile.family = .es519xx) {frame : List UInt8}

include hv

theorem exists_exponent {p : Packet} (hp : p.Whole) {a : Annunciators}
    (hlow : '0'.toUInt8 ≤ p.rangeByte) (hhigh : p.rangeByte ≤ '7'.toUInt8)
    {row : RangeRow} (hrow : a.rangeRow? = some row)
    (hbar : ¬ (a.vbar && (a.micro || a.milli) && '1'.toUInt8 < p.rangeByte) = true) :
    ∃ e, exponent v.profile p a = .ok e := by
  rw [exponent, bind_of_eq_ok (rangeIndex_eq_ok hp hlow hhigh),
    bind_of_eq_ok (Packet.function_eq_ok hp), hrow]
  dsimp only
  split_ifs with hvbar hmicro hmilli hduty
  · exact (barExponent_eq hp rfl).2 fun h => hbar (by simp [hvbar, hmicro, h])
  · exact (barExponent_eq hp rfl).2 fun h => hbar (by simp [hvbar, hmilli, h])
  · exact ⟨_, rfl⟩
  · exact ⟨_, rfl⟩
  · have hbyte : p.rangeByte.toNat ≤ 55 := UInt8.le_iff_toNat_le.mp hhigh
    have hrange : p.rangeByte.toNat - 48 < 8 := by omega
    obtain ⟨e, he⟩ := exists_exponent? hv row hrange
    rw [he]
    exact ⟨e, rfl⟩

theorem decode_of_framed (hframing : checkFraming v.profile frame = .ok ()) {lit : Annunciators}
    (hlit : Annunciators.ofPacket v.profile ⟨frame, v.profile.packetSize⟩ = .ok lit) :
    match refusal? v.profile ⟨frame, v.profile.packetSize⟩ (lit.corrected v.profile) with
    | some e => decode v.profile frame = .error e
    | none => ∃ r, decode v.profile frame = .ok r := by
  have hp : Packet.Whole ⟨frame, v.profile.packetSize⟩ :=
    Packet.whole_of_checkFraming (Variant.packetSize_es519xx hv) hframing
  have hrow := Annunciators.isSome_rangeRow?_iff hp hlit
  have hcheck := ((Annunciators.single_ofPacket hlit).corrected v.profile).check_eq
  have hstate : decodeAnnunciators v.profile frame =
      (lit.corrected v.profile).check >>= fun _ => .ok (lit.corrected v.profile) := by
    rw [decodeAnnunciators, bind_of_eq_ok hframing, bind_of_eq_ok hlit]
    rfl
  generalize lit.corrected v.profile = a at hrow hcheck hstate ⊢
  unfold refusal?
  -- the checks are met in the order of the decoder: flags, digits, range and function
  by_cases hconflict : (a.ac && a.dc) = true
  · rw [if_pos hconflict] at hcheck ⊢
    exact bind_eq_error (hstate.trans (bind_eq_error hcheck))
  rw [if_neg hconflict] at hcheck ⊢
  have hstate : decodeAnnunciators v.profile frame = .ok a :=
    hstate.trans (bind_of_eq_ok hcheck)
  rw [decode, bind_of_eq_ok hstate]
  cases hstray : if a.overflow || a.underflow then none
      else Packet.strayDigit? ⟨frame, v.profile.packetSize⟩ with
  | some i =>
    by_cases hover : (a.overflow || a.underflow) = true
    · rw [if_pos hover] at hstray
      cases hstray
    · rw [if_neg hover] at hstray
      exact bind_eq_error
        (signedDisplay_of_strayDigit? hp (Bool.eq_false_iff.mpr hover) hstray)
  | none =>
    obtain ⟨shown, hshown⟩ := exists_signedDisplay hp hstray
    rw [bind_of_eq_ok hshown]
    dsimp only
    split_ifs with hrange hfunction hbar
    · exact bind_eq_error (exponent_of_rangeByte hp (by simpa using hrange))
    all_goals
      obtain ⟨hlow, hhigh⟩ := not_or.mp (Bool.or_eq_true_iff.not.mp hrange)
      rw [decide_eq_true_eq, UInt8.not_lt] at hlow hhigh
    · have hnone : a.rangeRow? = none := by
        rw [← Option.not_isSome_iff_eq_none, hrow]
        simpa using hfunction
      exact bind_eq_error (exponent_of_rangeRow? hp hlow hhigh hnone)
    all_goals
      obtain ⟨row, hsome⟩ := Option.isSome_iff_exists.mp (hrow.mpr (by simpa using hfunction))
    · obtain ⟨hbar, hbeyond⟩ := Bool.and_eq_true_iff.mp hbar
      exact bind_eq_error (exponent_of_bar hp hlow hhigh hsome hbar (of_decide_eq_true hbeyond))
    · obtain ⟨e, he⟩ := exists_exponent hv hp hlow hhigh hsome hbar
      exact ⟨_, bind_of_eq_ok he⟩

/-- **A digit packet is refused for the first reason, and read when there is none.** A frame that is
not aligned fails as its framing does. Any other frame has a state, and with the corrected state
`refusal?` gives the failure; without a reason there is a reading. -/
theorem decode_refusal (frame : List UInt8) :
    (∀ e, checkFraming v.profile frame = .error e → decode v.profile frame = .error e) ∧
    (checkFraming v.profile frame = .ok () → ∃ lit,
      Annunciators.ofPacket v.profile ⟨frame, v.profile.packetSize⟩ = .ok lit ∧
      let reason :=
        refusal? v.profile ⟨frame, v.profile.packetSize⟩ (lit.corrected v.profile)
      (∀ e, decode v.profile frame = .error e ↔ reason = some e) ∧
      ((∃ r, decode v.profile frame = .ok r) ↔ reason = none)) := by
  constructor
  · intro e he
    exact bind_eq_error (bind_eq_error he)
  · intro hframing
    have hp : Packet.Whole ⟨frame, v.profile.packetSize⟩ :=
      Packet.whole_of_checkFraming (Variant.packetSize_es519xx hv) hframing
    obtain ⟨lit, hlit⟩ := Annunciators.exists_ofPacket hp rfl
    have hdecode := decode_of_framed hv hframing hlit
    refine ⟨lit, hlit, ?_⟩
    cases hreason : refusal? v.profile ⟨frame, v.profile.packetSize⟩ (lit.corrected v.profile) with
    | some e =>
      rw [hreason] at hdecode
      simp [show decode v.profile frame = .error e from hdecode]
    | none =>
      rw [hreason] at hdecode
      obtain ⟨r, hr⟩ := hdecode
      simp [hr]

end

/-- A packet that breaks off; one with two stray characters and a range beyond `7`; a barred one in
a range that the bar does not have; and one that is over range behind a stray character, which is
read. -/
theorem decode_refusal_four_frames :
    let profile := Variant.fast14.profile
    let broken : List UInt8 := [0x31, 0x2d]
    let unreadable : List UInt8 :=
      [0x38, 0x31, 0x32, 0x2d, 0x34, 0x2e, 0x3b, 0x30, 0x30, 0x30, 0x3a, 0x30, 0x0d, 0x0a]
    let barred : List UInt8 :=
      [0x32, 0x31, 0x32, 0x33, 0x34, 0x35, 0x3d, 0x30, 0x30, 0x30, 0x3a, 0x34, 0x0d, 0x0a]
    let overrange : List UInt8 :=
      [0x31, 0x31, 0x2d, 0x33, 0x34, 0x35, 0x3b, 0x31, 0x30, 0x30, 0x3a, 0x30, 0x0d, 0x0a]
    profile.family = .es519xx ∧
    (checkFraming profile broken = .error (.invalidLength 14 2) ∧
      decode profile broken = .error (.invalidLength 14 2)) ∧
    (checkFraming profile unreadable = .ok () ∧
      decode profile unreadable = .error (.invalidDigit 3 0x2d)) ∧
    (checkFraming profile barred = .ok () ∧
      decode profile barred = .error (.invalidRange 0x32)) ∧
    (checkFraming profile overrange = .ok () ∧ ∃ r, decode profile overrange = .ok r) := by
  intro profile broken unreadable barred overrange
  have hv : Variant.fast14.profile.family = .es519xx := rfl
  have hbroken : checkFraming profile broken = .error (.invalidLength 14 2) := by decide +kernel
  have hunreadable : checkFraming profile unreadable = .ok () := by decide +kernel
  have hbarred : checkFraming profile barred = .ok () := by decide +kernel
  have hoverrange : checkFraming profile overrange = .ok () := by decide +kernel
  let reason (frame : List UInt8) : Option (Option Error) :=
    (Annunciators.ofPacket profile ⟨frame, 14⟩).toOption.map fun lit =>
      refusal? profile ⟨frame, 14⟩ (lit.corrected profile)
  have hreason {frame : List UInt8} {lit : Annunciators} {found : Option Error}
      (hlit : Annunciators.ofPacket profile ⟨frame, 14⟩ = .ok lit)
      (hfound : reason frame = some found) :
      refusal? profile ⟨frame, 14⟩ (lit.corrected profile) = found := by
    simp only [reason, hlit] at hfound
    exact Option.some.inj hfound
  have hdigit : reason unreadable = some (some (.invalidDigit 3 0x2d)) := by decide +kernel
  have hrange : reason barred = some (some (.invalidRange 0x32)) := by decide +kernel
  have hnone : reason overrange = some none := by decide +kernel
  obtain ⟨_, hlit, herror, _⟩ := (decode_refusal hv unreadable).2 hunreadable
  obtain ⟨_, hlit', herror', _⟩ := (decode_refusal hv barred).2 hbarred
  obtain ⟨_, hlit'', _, hok⟩ := (decode_refusal hv overrange).2 hoverrange
  exact ⟨hv, ⟨hbroken, (decode_refusal hv broken).1 _ hbroken⟩,
    ⟨hunreadable, (herror _).mpr (hreason hlit hdigit)⟩,
    ⟨hbarred, (herror' _).mpr (hreason hlit' hrange)⟩, ⟨hoverrange, hok.mpr (hreason hlit'' hnone)⟩⟩

end Multimeter.Es519xx
