import Multimeter.Proofs.Framing

/-!
# The stages of decoding a digit packet

Framing, annunciators and value are read one behind the other. Framing makes sure that the packet
lies in the frame as a whole; behind it no read runs past the end, so every later failure is one of
the packet's contents.

* `Packet.Whole`: the packet lies in the bytes as a whole; `whole_of_checkFraming`.
* `Packet.failsOnly_checkFraming`: the first stage.
* `Annunciators.ofPacket_eq_ok_iff`, `Annunciators.readOptions_eq_ok_iff`: what a state is read off.
* **`Annunciators.exists_ofPacket_iff`**: how long a packet must be to be read.
* `Annunciators.failsOnly_check`: the second stage.
* `failsOnly_signedDisplay`, `failsOnly_exponent`: the last stage.
* **`decode_eq_ok_iff`**: what a reading is made of.
-/

namespace Multimeter.Es519xx

namespace Packet

/-- The packet has one of the two layouts and lies in the bytes as a whole. -/
structure Whole (p : Packet) : Prop where
  size_eq : p.size = 11 ∨ p.size = 14
  size_le : p.size ≤ p.bytes.length

variable {p : Packet}

theorem Whole.digitCount_le (h : p.Whole) : p.digitCount + 6 ≤ p.bytes.length := by
  obtain ⟨hsize, hlength⟩ := h
  unfold digitCount
  split_ifs <;> omega

/-! ## Framing -/

theorem failsOnly_read_framing (i : Nat) :
    FailsOnly (·.reason.toClass = .framing) (p.read i) := by
  unfold read
  cases p.bytes[i]? with
  | none => exact failsOnly_error rfl
  | some b => exact failsOnly_ok b

theorem failsOnly_checkLength (n : Nat) :
    FailsOnly (·.reason.toClass = .framing) (p.checkLength n) := by
  unfold checkLength
  split_ifs
  · exact failsOnly_ok ()
  · exact failsOnly_error rfl

theorem failsOnly_checkRepeated : FailsOnly (·.reason.toClass = .framing) p.checkRepeated := by
  refine (failsOnly_checkLength _).bind fun _ _ => ?_
  split
  · exact failsOnly_error rfl
  · exact failsOnly_ok ()

theorem failsOnly_checkByte (i : Nat) (b : UInt8) :
    FailsOnly (·.reason.toClass = .framing) (p.checkByte i b) := by
  refine (failsOnly_read_framing i).bind fun value _ => ?_
  split_ifs
  · exact failsOnly_ok ()
  · exact failsOnly_error rfl

theorem failsOnly_checkTerminator :
    FailsOnly (·.reason.toClass = .framing) p.checkTerminator :=
  (failsOnly_checkByte _ _).bind fun _ _ => failsOnly_checkByte _ _

/-- **Every failure of the framing checks is one of framing.** -/
theorem failsOnly_checkFraming (repeated : Bool) :
    FailsOnly (·.reason.toClass = .framing) (p.checkFraming repeated) := by
  cases repeated with
  | false => exact (failsOnly_checkLength _).bind fun _ _ => failsOnly_checkTerminator
  | true => exact failsOnly_checkRepeated.bind fun _ _ => failsOnly_checkTerminator

theorem whole_of_checkFraming {repeated : Bool} (hsize : p.size = 11 ∨ p.size = 14)
    (h : p.checkFraming repeated = .ok ()) : p.Whole := by
  have hlength := ((checkFraming_eq_ok_iff p repeated).mp h).1
  refine ⟨hsize, ?_⟩
  cases repeated with
  | false =>
    rw [if_neg Bool.false_ne_true, checkLength_eq_ok_iff] at hlength
    omega
  | true =>
    rw [if_pos rfl, checkRepeated_eq_ok_iff] at hlength
    omega

/-! ## Reading a packet that lies in the bytes as a whole -/

theorem exists_read_iff (p : Packet) (i : Nat) :
    (∃ b, p.read i = .ok b) ↔ i < p.bytes.length := by
  constructor
  · rintro ⟨b, hb⟩
    exact (List.getElem?_eq_some_iff.mp ((p.read_eq_ok_iff i b).mp hb)).1
  · intro h
    exact ⟨p.bytes[i], (p.read_eq_ok_iff i _).mpr (List.getElem?_eq_getElem h)⟩

theorem failsOnly_read {P : Error → Prop} {i : Nat} (h : i < p.bytes.length) :
    FailsOnly P (p.read i) := by
  rw [read, List.getElem?_eq_getElem h]
  exact failsOnly_ok _

variable (hp : p.Whole)

include hp

theorem failsOnly_function {P : Error → Prop} : FailsOnly P p.function := by
  have hdigits := hp.digitCount_le
  exact failsOnly_read (by unfold functionOffset; omega)

theorem failsOnly_digits : FailsOnly (·.reason.toClass = .decode) p.digits := by
  refine FailsOnly.mapM fun i hi => ?_
  have hdigits := hp.digitCount_le
  rw [List.mem_range'_1] at hi
  refine (failsOnly_read (by omega)).bind fun value _ => ?_
  split_ifs
  · exact failsOnly_ok _
  · exact failsOnly_error rfl

theorem failsOnly_rangeIndex : FailsOnly (·.reason.toClass = .decode) p.rangeIndex := by
  have hdigits := hp.digitCount_le
  refine (failsOnly_read (by omega)).bind fun value _ => ?_
  split
  · exact failsOnly_ok _
  · exact failsOnly_error rfl

end Packet

/-! ## Annunciators -/

namespace Annunciators

variable {profile : Profile} {p : Packet} {b : Annunciators}

/-- What an optional function code lights. -/
def withFunction? (a : Annunciators) (packetSize : Nat) : Option FunctionCode → Annunciators
  | some code => a.withFunction packetSize code
  | none => a

/-- **A state is read off the status, the options and the function**, in this order. -/
theorem ofPacket_eq_ok_iff : ofPacket profile p = .ok b ↔ ∃ status lit function,
    p.status = .ok status ∧
    (ofStatus profile.alternateFunctions status).readOptions profile p = .ok lit ∧
    p.function = .ok function ∧
    b = lit.withFunction? profile.packetSize
      (FunctionCode.ofByte? profile.alternateFunctions function) := by
  unfold ofPacket
  simp only [bind_eq_ok_iff]
  constructor
  · rintro ⟨status, hstatus, lit, hlit, function, hfunction, h⟩
    refine ⟨status, lit, function, hstatus, hlit, hfunction, ?_⟩
    split at h
    · rename_i code hcode
      rw [hcode]
      exact (Except.ok.inj h).symm
    · rename_i hcode
      rw [hcode]
      exact (Except.ok.inj h).symm
  · rintro ⟨status, lit, function, hstatus, hlit, hfunction, rfl⟩
    refine ⟨status, hstatus, lit, hlit, function, hfunction, ?_⟩
    cases FunctionCode.ofByte? profile.alternateFunctions function <;> rfl

/-- **The options are read in one of three layouts**: four bytes, the alternate one, or two. -/
theorem readOptions_eq_ok_iff {a : Annunciators} : a.readOptions profile p = .ok b ↔
    (profile.packetSize = 14 ∧ ∃ o1 o2 o3 o4, p.read 8 = .ok o1 ∧ p.read 9 = .ok o2 ∧
      p.read 10 = .ok o3 ∧ p.read 11 = .ok o4 ∧
      b = a.withOptions14 profile.selectableFilter o1 o2 o3 o4) ∨
    (profile.packetSize ≠ 14 ∧ profile.alternateFunctions = true ∧ ∃ o2, p.read 8 = .ok o2 ∧
      b = a.withOptionsAlternate o2) ∨
    (profile.packetSize ≠ 14 ∧ profile.alternateFunctions ≠ true ∧ ∃ o1 o2, p.read 7 = .ok o1 ∧
      p.read 8 = .ok o2 ∧ b = (a.withFirstOption profile o1).withSecondOption profile o2) := by
  unfold readOptions
  split_ifs with h14 halternate <;> simp [bind_eq_ok_iff, pure, Except.pure, @eq_comm _ b, *]

/-- The options end with byte 11 of a 14-byte packet and with byte 8 of the others. -/
theorem exists_readOptions_iff (a : Annunciators) : (∃ lit, a.readOptions profile p = .ok lit) ↔
    (if profile.packetSize = 14 then 11 else 8) < p.bytes.length := by
  have hread (i : Nat) := p.exists_read_iff i
  constructor
  · rintro ⟨lit, hlit⟩
    obtain ⟨h14, _, _, _, o4, _, _, _, h4, _⟩ | ⟨h14, _, o2, h2, _⟩ |
      ⟨h14, _, _, o2, _, h2, _⟩ := readOptions_eq_ok_iff.mp hlit
    · rw [if_pos h14]
      exact (hread 11).mp ⟨o4, h4⟩
    · rw [if_neg h14]
      exact (hread 8).mp ⟨o2, h2⟩
    · rw [if_neg h14]
      exact (hread 8).mp ⟨o2, h2⟩
  · intro hlength
    by_cases h14 : profile.packetSize = 14
    · rw [if_pos h14] at hlength
      obtain ⟨o1, h1⟩ := (hread 8).mpr (by omega)
      obtain ⟨o2, h2⟩ := (hread 9).mpr (by omega)
      obtain ⟨o3, h3⟩ := (hread 10).mpr (by omega)
      obtain ⟨o4, h4⟩ := (hread 11).mpr hlength
      exact ⟨_, readOptions_eq_ok_iff.mpr (Or.inl ⟨h14, o1, o2, o3, o4, h1, h2, h3, h4, rfl⟩)⟩
    · rw [if_neg h14] at hlength
      obtain ⟨o1, h1⟩ := (hread 7).mpr (by omega)
      obtain ⟨o2, h2⟩ := (hread 8).mpr hlength
      by_cases halternate : profile.alternateFunctions = true
      · exact ⟨_, readOptions_eq_ok_iff.mpr (Or.inr (Or.inl ⟨h14, halternate, o2, h2, rfl⟩))⟩
      · exact ⟨_, readOptions_eq_ok_iff.mpr
          (Or.inr (Or.inr ⟨h14, halternate, o1, o2, h1, h2, rfl⟩))⟩

/-- **A packet can be read when nothing but its terminator is missing**, and no sooner. -/
theorem exists_ofPacket_iff (hsize : p.size = 11 ∨ p.size = 14)
    (hlayout : p.size = profile.packetSize) :
    (∃ b, ofPacket profile p = .ok b) ↔ p.size ≤ p.bytes.length + 2 := by
  have hread (i : Nat) := p.exists_read_iff i
  have hlast : (if profile.packetSize = 14 then 11 else 8) + 3 = p.size := by
    rw [← hlayout]
    split_ifs <;> omega
  constructor
  · rintro ⟨b, hb⟩
    obtain ⟨_, lit, _, _, hlit, _⟩ := ofPacket_eq_ok_iff.mp hb
    have hoptions := (exists_readOptions_iff _).mp ⟨lit, hlit⟩
    omega
  · intro hlength
    have hoffset : p.statusOffset + 2 < p.size := by
      unfold Packet.statusOffset Packet.functionOffset Packet.digitCount
      split_ifs <;> omega
    have hfunction : p.functionOffset < p.statusOffset := Nat.lt_succ_self _
    obtain ⟨status, hstatus⟩ := (hread p.statusOffset).mpr (by omega)
    obtain ⟨function, hfunction⟩ := (hread p.functionOffset).mpr (by omega)
    obtain ⟨lit, hlit⟩ :
        ∃ lit, (ofStatus profile.alternateFunctions status).readOptions profile p = .ok lit :=
      (exists_readOptions_iff _).mpr (by omega)
    exact ⟨_, ofPacket_eq_ok_iff.mpr ⟨status, lit, function, hstatus, hlit, hfunction, rfl⟩⟩

theorem exists_ofPacket (hp : p.Whole) (hlayout : p.size = profile.packetSize) :
    ∃ a, ofPacket profile p = .ok a :=
  (exists_ofPacket_iff hp.size_eq hlayout).mpr (Nat.le_add_right_of_le hp.size_le)

theorem failsOnly_check (a : Annunciators) : FailsOnly (·.reason.toClass = .conflict) a.check := by
  unfold check
  split_ifs
  · exact failsOnly_error rfl
  · exact failsOnly_error rfl
  · exact failsOnly_error rfl
  · exact failsOnly_ok ()

end Annunciators

/-! ## Value -/

section

variable {p : Packet} (hp : p.Whole)

include hp

theorem failsOnly_signedDisplay (a : Annunciators) :
    FailsOnly (·.reason.toClass = .decode) (signedDisplay p a) := by
  unfold signedDisplay
  split
  · exact failsOnly_ok _
  · exact (Packet.failsOnly_digits hp).bind fun digits _ => failsOnly_ok _

theorem failsOnly_barExponent (exponents : List Int) (range : Nat) :
    FailsOnly (·.reason.toClass = .decode) (barExponent p exponents range) := by
  unfold barExponent
  split
  · exact failsOnly_ok _
  · have hdigits := hp.digitCount_le
    exact (Packet.failsOnly_read (by omega)).bind fun value _ => failsOnly_error rfl

theorem failsOnly_exponent (profile : Profile) (a : Annunciators) :
    FailsOnly (·.reason.toClass = .decode) (exponent profile p a) := by
  refine (Packet.failsOnly_rangeIndex hp).bind fun range _ => ?_
  refine (Packet.failsOnly_function hp).bind fun function _ => ?_
  split
  · exact failsOnly_error rfl
  · split_ifs
    · exact failsOnly_barExponent hp _ range
    · exact failsOnly_barExponent hp _ range
    · exact failsOnly_ok _
    · exact failsOnly_ok _
    · split
      · exact failsOnly_ok _
      · exact failsOnly_error rfl

end

/-! ## What a reading is made of -/

section

variable {profile : Profile} {frame : List UInt8}

theorem decodeAnnunciators_eq_ok_iff {a : Annunciators} :
    decodeAnnunciators profile frame = .ok a ↔ checkFraming profile frame = .ok () ∧
      ∃ lit, Annunciators.ofPacket profile ⟨frame, profile.packetSize⟩ = .ok lit ∧
        a = lit.corrected profile ∧ a.check = .ok () := by
  unfold decodeAnnunciators
  simp only [bind_eq_ok_iff]
  constructor
  · rintro ⟨_, hframing, lit, hlit, _, hcheck, ha⟩
    obtain rfl := Except.ok.inj ha
    exact ⟨hframing, lit, hlit, rfl, hcheck⟩
  · rintro ⟨hframing, lit, hlit, rfl, hcheck⟩
    exact ⟨(), hframing, lit, hlit, (), hcheck, rfl⟩

/-- **A reading is made of a consistent state, a display and an exponent.** -/
theorem decode_eq_ok_iff {r : Reading} :
    decode profile frame = .ok r ↔ ∃ a shown e, decodeAnnunciators profile frame = .ok a ∧
      signedDisplay ⟨frame, profile.packetSize⟩ a = .ok shown ∧
      exponent profile ⟨frame, profile.packetSize⟩ a = .ok e ∧
      r = { quantity := (classify a (shown.scale10 e)).1
            unit := (classify a (shown.scale10 e)).2.1
            qualifiers := qualifiers a
            value := (classify a (shown.scale10 e)).2.2
            digits := displayDigits e } := by
  unfold decode
  simp only [bind_eq_ok_iff]
  constructor
  · rintro ⟨a, ha, shown, hshown, e, he, hr⟩
    exact ⟨a, shown, e, ha, hshown, he, (Except.ok.inj hr).symm⟩
  · rintro ⟨a, shown, e, ha, hshown, he, rfl⟩
    exact ⟨a, ha, shown, hshown, e, he, rfl⟩

theorem exists_rangeRow_of_exponent {p : Packet} {a : Annunciators} {e : Int}
    (h : exponent profile p a = .ok e) : ∃ row, a.rangeRow? = some row := by
  unfold exponent at h
  simp only [bind_eq_ok_iff] at h
  obtain ⟨range, _, function, _, h⟩ := h
  cases hrow : a.rangeRow? with
  | none => rw [hrow] at h; exact nomatch h
  | some row => exact ⟨row, rfl⟩

end

end Multimeter.Es519xx
