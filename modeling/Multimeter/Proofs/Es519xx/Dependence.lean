import Mathlib.Data.List.Find
import Multimeter.Proofs.Es519xx.Refusal
import Multimeter.Proofs.Flips

/-!
# What the reading of a digit packet depends on

Most lamps of a digit packet are read by the checks, the corrections or the classification. Seven
are read by nothing, and two, the sign and the leading half digit, by the display only. Packets that
agree on the rest have the same reading, as far as they display the same.

* `Annunciators.stripped`: the state without these nine lamps;
  `Annunciators.stripped_withFunction?`, **`Annunciators.stripped_corrected`**.
* `Annunciators.state`: the state of a packet, byte by byte.
* `Packet.checkFraming_flipBits`: flips outside the terminator leave the framing alone.
* `stages_congr`: what a reading depends on.
* `Variant.display_state`: the lamps that the display reads, off the bytes of a frame.
* **`Variant.stripped_state_flip`**: idle bits and display bits are stripped.
* **`Variant.decode_flip`**: frames that differ in these bits and display the same are read alike.
-/

namespace Multimeter.Es519xx

namespace Annunciators

/-- The state without the lamps that nothing reads and those that only the display reads. -/
def stripped (a : Annunciators) : Annunciators :=
  { a with
    batteryLow := false, peakMax := false, peakMin := false, rmr := false, lpf0 := false
    lpf1 := false, autoPowerOff := false, sign := false, digit4 := false }

variable {profile : Profile} {a b : Annunciators}

/-! ## Functions and corrections -/

theorem stripped_selectFrequencyMode (a : Annunciators) (packetSize : Nat) :
    (a.selectFrequencyMode packetSize).stripped =
      (a.stripped.selectFrequencyMode packetSize).stripped := by
  unfold selectFrequencyMode
  cases hjudge : a.judge <;> simp only [stripped, hjudge] <;> split_ifs <;> rfl

theorem stripped_withFunction? (a : Annunciators) (packetSize : Nat) (code : Option FunctionCode) :
    (a.withFunction? packetSize code).stripped =
      (a.stripped.withFunction? packetSize code).stripped := by
  cases code with
  | none => rfl
  | some code =>
    cases code with
    | frequencyByJudge => exact a.stripped_selectFrequencyMode packetSize
    | _ => rfl

theorem stripped_apply {c : Correction} (hc : c ∈ Correction.all) (a : Annunciators) :
    c.applies profile a.stripped = c.applies profile a ∧
      (c.apply profile a).stripped = (c.apply profile a.stripped).stripped := by
  obtain rfl | rfl | rfl := Correction.mem_all_iff.mp hc
  · exact ⟨rfl, stripped_selectFrequencyMode _ _⟩
  · exact ⟨rfl, rfl⟩
  · exact ⟨rfl, rfl⟩

/-- **Corrections do not read the stripped lamps.** -/
theorem stripped_corrected (h : b.stripped = a.stripped) :
    (b.corrected profile).stripped = (a.corrected profile).stripped := by
  have hall : ∀ c ∈ Correction.all, ∀ a : Annunciators,
      c.applies profile a.stripped = c.applies profile a ∧
        (c.apply profile a).stripped = (c.apply profile a.stripped).stripped :=
    fun c hc a => stripped_apply hc a
  unfold corrected
  -- the induction is on any list of corrections that do not read the stripped lamps
  generalize Correction.all = rules at hall
  induction rules generalizing a b with
  | nil => exact h
  | cons c rest ih =>
    obtain ⟨hc, hrest⟩ := List.forall_mem_cons.mp hall
    rw [List.foldl_cons, List.foldl_cons]
    refine ih ?_ hrest
    rw [← (hc a).1, ← (hc b).1, h]
    split_ifs
    · rw [(hc b).2, (hc a).2, h]
    · exact h

/-! ## The state of a packet -/

/-- The options of a packet, in the layout of the format. -/
def withOptions (a : Annunciators) (profile : Profile) (p : Packet) : Annunciators :=
  if profile.packetSize = 14 then
    a.withOptions14 profile.selectableFilter (p.byteAt 8) (p.byteAt 9) (p.byteAt 10) (p.byteAt 11)
  else if profile.alternateFunctions then a.withOptionsAlternate (p.byteAt 8)
  else (a.withFirstOption profile (p.byteAt 7)).withSecondOption profile (p.byteAt 8)

def state (profile : Profile) (p : Packet) : Annunciators :=
  ((ofStatus profile.alternateFunctions (p.byteAt p.statusOffset)).withOptions profile p)
    |>.withFunction? profile.packetSize
      (FunctionCode.ofByte? profile.alternateFunctions p.functionByte)

theorem ofPacket_eq_state {p : Packet} (hp : p.Whole) (hlayout : p.size = profile.packetSize) :
    ofPacket profile p = .ok (state profile p) := by
  have hlength := hp.size_le
  have hread {i : Nat} (hi : i < p.size) : p.read i = .ok (p.byteAt i) :=
    Packet.read_eq_ok (Nat.lt_of_lt_of_le hi hlength)
  have hstatus : p.statusOffset < p.size := by
    unfold Packet.statusOffset Packet.functionOffset Packet.digitCount
    obtain hsize | hsize := hp.size_eq <;> simp [hsize]
  refine ofPacket_eq_ok_iff.mpr ⟨_, _, _, hread hstatus, readOptions_eq_ok_iff.mpr ?_,
    Packet.function_eq_ok hp, rfl⟩
  have hsize := hp.size_eq
  unfold withOptions
  split_ifs with h14 halternate
  · exact Or.inl ⟨h14, _, _, _, _, hread (by omega), hread (by omega), hread (by omega),
      hread (by omega), rfl⟩
  · exact Or.inr (Or.inl ⟨h14, halternate, _, hread (by omega), rfl⟩)
  · exact Or.inr (Or.inr ⟨h14, halternate, _, _, hread (by omega), hread (by omega), rfl⟩)

end Annunciators

/-! ## Flipped packets -/

namespace Packet

variable {change : Nat → UInt8} {size : Nat} {bytes : List UInt8}

theorem read_flipBits {i : Nat} (h : change (i % size) = 0) :
    read ⟨flipBits size change bytes, size⟩ i = read ⟨bytes, size⟩ i := by
  unfold read
  rw [getElem?_flipBits, h]
  cases bytes[i]? <;> simp

theorem byteAt_flipBits {i : Nat} (h : change (i % size) = 0) :
    byteAt ⟨flipBits size change bytes, size⟩ i = byteAt ⟨bytes, size⟩ i := by
  unfold byteAt
  rw [List.getD_eq_getElem?_getD, List.getD_eq_getElem?_getD, getElem?_flipBits, h]
  cases bytes[i]? <;> simp

theorem bit_byteAt_flipBits {i k : Nat} (h : bit (change (i % size)) k = false) :
    bit (byteAt ⟨flipBits size change bytes, size⟩ i) k = bit (byteAt ⟨bytes, size⟩ i) k :=
  bit_flipBits h

theorem checkRepeated_flipBits :
    checkRepeated ⟨flipBits size change bytes, size⟩ = checkRepeated ⟨bytes, size⟩ := by
  have hinjective (c : UInt8) : Function.Injective (· ^^^ c : UInt8 → UInt8) := fun a b h => by
    simpa [UInt8.xor_assoc] using congrArg (· ^^^ c) h
  have hsame : ((List.range size).find? fun i =>
        (flipBits size change bytes)[i]? ≠ (flipBits size change bytes)[size + i]?) =
      (List.range size).find? fun i => bytes[i]? ≠ bytes[size + i]? := by
    refine List.find?_congr fun i hi => ?_
    rw [getElem?_flipBits, getElem?_flipBits, Nat.add_mod_left,
      Nat.mod_eq_of_lt (List.mem_range.mp hi), decide_eq_decide, not_iff_not]
    exact (Option.map_injective (hinjective _)).eq_iff
  unfold checkRepeated checkLength
  rw [length_flipBits, hsame]

/-- **Flips in front of the terminator leave the framing alone.** -/
theorem checkFraming_flipBits (hsize : 2 ≤ size) (hreturn : change (size - 2) = 0)
    (hfeed : change (size - 1) = 0) (repeated : Bool) :
    checkFraming ⟨flipBits size change bytes, size⟩ repeated =
      checkFraming ⟨bytes, size⟩ repeated := by
  have hlast {i : Nat} (hi : i < size) (h : change i = 0) (b : UInt8) :
      checkByte ⟨flipBits size change bytes, size⟩ i b = checkByte ⟨bytes, size⟩ i b := by
    rw [checkByte, checkByte, read_flipBits (by rwa [Nat.mod_eq_of_lt hi])]
  unfold checkFraming checkTerminator
  rw [checkRepeated_flipBits, hlast (by omega) hreturn, hlast (by omega) hfeed]
  simp only [checkLength, length_flipBits]

end Packet

/-! ## Stages -/

/-- What is reported of a state, the number that it displays and its exponent. -/
def readingOf (a : Annunciators) (shown : Binary64) (e : Int) : Reading where
  quantity := (classify a (shown.scale10 e)).1
  unit := (classify a (shown.scale10 e)).2.1
  qualifiers := qualifiers a
  value := (classify a (shown.scale10 e)).2.2
  digits := displayDigits e

/-- The stages behind the framing. -/
def stages (profile : Profile) (p : Packet) (a : Annunciators) : Except Error Reading := do
  a.check
  let shown ← signedDisplay p a
  let e ← exponent profile p a
  return readingOf a shown e

/-- **A framed packet is read in stages**, from its corrected state. -/
theorem decode_of_state {profile : Profile} {frame : List UInt8}
    (hp : Packet.Whole ⟨frame, profile.packetSize⟩)
    (hframing : checkFraming profile frame = .ok ()) :
    decode profile frame = stages profile ⟨frame, profile.packetSize⟩
      ((Annunciators.state profile ⟨frame, profile.packetSize⟩).corrected profile) := by
  rw [decode, decodeAnnunciators, bind_of_eq_ok hframing,
    bind_of_eq_ok (Annunciators.ofPacket_eq_state hp rfl), stages]
  generalize (Annunciators.state profile _).corrected profile = a
  cases a.check <;> rfl

section

variable {profile : Profile} {p p' : Packet} {a a' : Annunciators}

/-- **No stage but the display reads the stripped lamps**, and no other one reads the digits. -/
theorem stages_congr (ha : a'.stripped = a.stripped) (hrange : p'.read 0 = p.read 0)
    (hfunction : p'.function = p.function) (hdisplay : signedDisplay p' a' = signedDisplay p a) :
    stages profile p' a' = stages profile p a := by
  have hcheck : a'.check = a.check := show a'.stripped.check = a.stripped.check by rw [ha]
  have hreading : readingOf a' = readingOf a :=
    show readingOf a'.stripped = readingOf a.stripped by rw [ha]
  have hstate : exponent profile p' a' = exponent profile p' a :=
    show exponent profile p' a'.stripped = exponent profile p' a.stripped by rw [ha]
  have hexponent : exponent profile p' a = exponent profile p a := by
    unfold exponent Packet.rangeIndex barExponent
    rw [hrange, hfunction]
  rw [stages, stages, hcheck, hdisplay, hstate, hexponent, hreading]

theorem signedDisplay_congr
    (hover : (a'.overflow || a'.underflow) = (a.overflow || a.underflow))
    (hsign : a'.sign = a.sign) (hdigit4 : a'.digit4 = a.digit4) (hdigits : p'.digits = p.digits) :
    signedDisplay p' a' = signedDisplay p a := by
  rw [signedDisplay, signedDisplay, hover, hsign, hdigit4, hdigits]

end

end Multimeter.Es519xx

namespace Multimeter.Variant

open Es519xx (Annunciators Packet bit)

/-! ## Frames of a format -/

abbrev packet (v : Variant) (frame : List UInt8) : Packet := ⟨frame, v.profile.packetSize⟩

def state (v : Variant) (frame : List UInt8) : Annunciators :=
  (Annunciators.state v.profile (v.packet frame)).corrected v.profile

variable {v : Variant} {change : Nat → UInt8} {frame : List UInt8}

/-- **The lamps that the display reads**: range, sign and leading half digit. -/
theorem display_state (hv : v.profile.family = .es519xx) (frame : List UInt8) :
    ((v.state frame).overflow || (v.state frame).underflow) = v.isOutOfRange frame ∧
    (v.state frame).sign = v.isSigned frame ∧
    (v.state frame).digit4 = (v.profile.fiveDigits && bit (frame.getD 7 0) 0) := by
  -- neither the function byte nor a correction touches an indicator
  have hlamp (f : Annunciators → Bool) (hf : ∀ a : Annunciators, f a.indicators = f a) :
      f (v.state frame) = f ((Annunciators.ofStatus v.profile.alternateFunctions
        ((v.packet frame).byteAt (v.packet frame).statusOffset)).withOptions v.profile
          (v.packet frame)) := by
    rw [← hf, state, Annunciators.indicators_corrected, Annunciators.state,
      Annunciators.indicators_withFunction?, hf]
  refine ⟨(hlamp (fun a => a.overflow || a.underflow) fun _ => rfl).trans ?_,
    (hlamp (·.sign) fun _ => rfl).trans ?_, (hlamp (·.digit4) fun _ => rfl).trans ?_⟩
  · cases v with
    | bm25x => exact nomatch hv
    | _ =>
      simp [Annunciators.withOptions, Annunciators.ofStatus, Annunciators.withOptions14,
        Annunciators.withOptionsAlternate, Annunciators.withFirstOption,
        Annunciators.withSecondOption, profile, Packet.statusOffset, Packet.functionOffset,
        Packet.digitCount, Packet.byteAt, isOutOfRange, rangeBits]
  all_goals
    cases v with
    | bm25x => exact nomatch hv
    | _ => rfl

/-- The offsets of the range, the function and the terminator. -/
def fixedOffsets (v : Variant) : List Nat :=
  [0, (v.packet []).functionOffset, v.profile.packetSize - 2, v.profile.packetSize - 1]

section

variable (hv : v.profile.family = .es519xx) (h : FlipsOnly (v.idleBits ++ v.displayBits) change)

include hv

theorem stripped_withOptions {p p' : Packet} (hsize : p.size = v.profile.packetSize)
    (hsize' : p'.size = v.profile.packetSize)
    (hbit : ∀ i k, (i % v.profile.packetSize, k) ∉ v.idleBits ++ v.displayBits →
      bit (p'.byteAt i) k = bit (p.byteAt i) k) :
    ((Annunciators.ofStatus v.profile.alternateFunctions
        (p'.byteAt p'.statusOffset)).withOptions v.profile p').stripped =
      ((Annunciators.ofStatus v.profile.alternateFunctions
        (p.byteAt p.statusOffset)).withOptions v.profile p).stripped := by
  unfold Packet.statusOffset Packet.functionOffset Packet.digitCount
  rw [hsize, hsize']
  cases v with
  | bm25x => exact nomatch hv
  | _ =>
    simp only [Annunciators.withOptions, Annunciators.ofStatus, Annunciators.withOptions14,
      Annunciators.withOptionsAlternate, Annunciators.withFirstOption,
      Annunciators.withSecondOption, Annunciators.stripped, profile] at hbit ⊢
    simp (disch := decide) [hbit]

include h

theorem unchanged_of_flipsOnly {i : Nat} (hi : i ∈ v.fixedOffsets) :
    change (i % v.profile.packetSize) = 0 := by
  have hfixed : ∀ i ∈ v.fixedOffsets, i % v.profile.packetSize = i ∧
      ∀ b ∈ v.idleBits ++ v.displayBits, b.1 ≠ i := by
    cases v with
    | bm25x => exact nomatch hv
    | _ => decide
  rw [(hfixed i hi).1]
  exact h.eq_zero (hfixed i hi).2

theorem stripped_state_flip :
    (v.state (v.flip change frame)).stripped = (v.state frame).stripped := by
  have hfunction : (v.packet (v.flip change frame)).functionByte = (v.packet frame).functionByte :=
    Packet.byteAt_flipBits (unchanged_of_flipsOnly hv h (.tail _ (.head _)))
  have hbit (i k : Nat) (hk : (i % v.profile.packetSize, k) ∉ v.idleBits ++ v.displayBits) :
      bit ((v.packet (v.flip change frame)).byteAt i) k = bit ((v.packet frame).byteAt i) k :=
    Packet.bit_byteAt_flipBits (h.bit_eq_false hk)
  refine Annunciators.stripped_corrected ?_
  unfold Annunciators.state
  rw [hfunction, Annunciators.stripped_withFunction?, stripped_withOptions hv rfl rfl hbit,
    ← Annunciators.stripped_withFunction?]

theorem checkFraming_flip : Es519xx.checkFraming v.profile (v.flip change frame) =
    Es519xx.checkFraming v.profile frame := by
  have hsize : 2 ≤ v.profile.packetSize := by
    obtain hsize | hsize := packetSize_es519xx hv <;> omega
  have hreturn := unchanged_of_flipsOnly hv h (.tail _ (.tail _ (.head _)))
  have hfeed := unchanged_of_flipsOnly hv h (.tail _ (.tail _ (.tail _ (.head _))))
  rw [Nat.mod_eq_of_lt (by omega)] at hreturn hfeed
  exact Packet.checkFraming_flipBits hsize hreturn hfeed _

/-- **A frame with other idle bits and display bits is read alike** when it displays the same. -/
theorem decode_flip
    (hdisplay : Es519xx.signedDisplay (v.packet (v.flip change frame))
        (v.state (v.flip change frame)) =
      Es519xx.signedDisplay (v.packet frame) (v.state frame)) :
    v.decode (v.flip change frame) = v.decode frame := by
  have hsame : Es519xx.checkFraming v.profile (v.flip change frame) =
      Es519xx.checkFraming v.profile frame := checkFraming_flip hv h
  rw [decode_of_es519xx _ hv, decode_of_es519xx _ hv]
  congr 1
  cases hframing : Es519xx.checkFraming v.profile frame with
  | error e =>
    rw [hframing] at hsame
    exact (bind_eq_error (bind_eq_error hsame)).trans (bind_eq_error (bind_eq_error hframing)).symm
  | ok _ =>
    rw [hframing] at hsame
    have hsize := packetSize_es519xx hv
    rw [Es519xx.decode_of_state (Packet.whole_of_checkFraming hsize hframing) hframing,
      Es519xx.decode_of_state (Packet.whole_of_checkFraming hsize hsame) hsame]
    exact Es519xx.stages_congr (stripped_state_flip hv h)
      (Packet.read_flipBits (unchanged_of_flipsOnly hv h (.head _)))
      (Packet.read_flipBits (unchanged_of_flipsOnly hv h (.tail _ (.head _)))) hdisplay

end

end Multimeter.Variant
