import Multimeter.Proofs.Comparison
import Multimeter.Proofs.Es519xx.Dependence

/-!
# Digit packets out of range

A digit packet is read as a number, as positive infinity, or, in a continuity test, as closed or
open. The range lamps decide which: while one is lit the display is not looked at.

* `Variant.decode_flip_of_outOfRange`: out of range, the display may hold anything.
* `Variant.Displays`: what is displayed, as a value; `Variant.Displays.eq_infinity_iff`,
  `Variant.Displays.isClosed_iff`.
* `Variant.display_of_decode`: what a packet reports of its display.
* **`Variant.value_classes`**: the values of digit packets.
-/

namespace Multimeter

namespace Variant

open Es519xx (Annunciators Packet)

variable {v : Variant} {change : Nat → UInt8} {frame : List UInt8} {r : Reading}

section

variable (hv : v.profile.family = .es519xx)

include hv

theorem state_of_decodeAnnunciators {a : Annunciators}
    (h : Es519xx.decodeAnnunciators v.profile frame = .ok a) : a = v.state frame := by
  obtain ⟨hframing, lit, hlit, rfl, _⟩ := Es519xx.decodeAnnunciators_eq_ok_iff.mp h
  have hwhole := Packet.whole_of_checkFraming (packetSize_es519xx hv) hframing
  obtain rfl := Except.ok.inj ((Annunciators.ofPacket_eq_state hwhole rfl).symm.trans hlit)
  rfl

/-! ## The display of a meter out of range -/

/-- **Out of range the display may hold anything**, and the sign and the half digit too. -/
theorem decode_flip_of_outOfRange (hover : v.isOutOfRange frame = true)
    (h : FlipsOnly v.displayBits change) : v.decode (v.flip change frame) = v.decode frame := by
  have hflips : FlipsOnly (v.idleBits ++ v.displayBits) change :=
    h.mono (List.subset_append_right _ _)
  have hinfinite {frame' : List UInt8} {a : Annunciators}
      (ha : (a.overflow || a.underflow) = true) :
      Es519xx.signedDisplay (v.packet frame') a = .ok .infinity := if_pos ha
  have hlit : ((v.state frame).overflow || (v.state frame).underflow) = true :=
    (display_state hv frame).1.trans hover
  have hrange (a : Annunciators) :
      (a.stripped.overflow || a.stripped.underflow) = (a.overflow || a.underflow) := rfl
  refine decode_flip hv hflips ?_
  rw [hinfinite hlit, hinfinite]
  rw [← hrange, stripped_state_flip hv hflips, hrange, hlit]

end

/-! ## What is displayed -/

theorem signed_and_ne_zero (negative : Bool) (n : Nat) :
    signed (negative && n ≠ 0) n = signed negative n := by
  cases negative with
  | false => rfl
  | true => by_cases hn : n = 0 <;> simp [signed, hn]

/-- The values that a digit packet displays with an exponent: infinity out of its range, and within
it the signed number, rounded once. -/
inductive Displays (v : Variant) (frame : List UInt8) (e : Int) : Binary64 → Prop
  | outOfRange (lit : v.isOutOfRange frame = true) : Displays v frame e .infinity
  | number {digits : List UInt8} (within : v.isOutOfRange frame = false)
      (displayed : v.displayed? frame = some digits) :
      Displays v frame e ((decimalValue (shownNumber digits) e).negIf
        (v.isSigned frame && shownNumber digits ≠ 0))

namespace Displays

variable {shown : Binary64} {e : Int}

theorem isFinite (h : v.Displays frame e shown) (he : e ≤ 6)
    (hwithin : v.isOutOfRange frame = false) : shown.IsFinite := by
  cases h with
  | outOfRange hover => exact nomatch hover.symm.trans hwithin
  | number _ hdigits =>
    have hbound := (isDisplay_of_displayed? hdigits).shownNumber_le
    exact (Binary64.isFinite_negIf _ _).mpr (isFinite_decimalValue hbound he)

theorem eq_infinity_iff (h : v.Displays frame e shown) (he : e ≤ 6) :
    shown = .infinity ↔ v.isOutOfRange frame = true := by
  constructor
  · rintro rfl
    by_contra hwithin
    exact Binary64.not_isFinite_infinity (h.isFinite he (Bool.eq_false_iff.mpr hwithin))
  · intro hover
    cases h with
    | outOfRange _ => rfl
    | number hwithin _ => exact nomatch hover.symm.trans hwithin

theorem isNaN_eq_false (h : v.Displays frame e shown) (he : e ≤ 6) : shown.isNaN = false := by
  cases hrange : v.isOutOfRange frame with
  | true =>
    rw [(h.eq_infinity_iff he).mpr hrange]
    decide
  | false => exact (h.isFinite he hrange).1

theorem isClosed_iff (h : v.Displays frame e shown) (he : -12 ≤ e ∧ e ≤ 6)
    (hwithin : v.isOutOfRange frame = false) :
    ∃ digits, v.displayed? frame = some digits ∧ (Es519xx.isClosed shown = true ↔
      (0 : ℚ) ≤ signed (v.isSigned frame) (shownNumber digits) * 10 ^ e ∧
        (signed (v.isSigned frame) (shownNumber digits) : ℚ) * 10 ^ e ≤ 25) := by
  have hfinite := h.isFinite he.2 hwithin
  cases h with
  | outOfRange hover => exact nomatch hover.symm.trans hwithin
  | @number digits _ hdigits =>
    have hbound := (isDisplay_of_displayed? hdigits).shownNumber_le
    have hclosed := Es519xx.isClosed_iff he.1 (isNearest_negIf_decimalValue hbound hfinite)
    rw [signed_and_ne_zero] at hclosed
    exact ⟨digits, hdigits, hclosed⟩

end Displays

/-! ## Values -/

theorem displays_of_signedDisplay (hv : v.profile.family = .es519xx) {a : Annunciators}
    {shown : Binary64} (ha : Es519xx.decodeAnnunciators v.profile frame = .ok a)
    (hshown : Es519xx.signedDisplay (v.packet frame) a = .ok shown) (e : Int) :
    v.Displays frame e (shown.scale10 e) := by
  obtain ⟨hover, hsign, hdigit4⟩ := display_state hv frame
  rw [← state_of_decodeAnnunciators hv ha] at hover hsign hdigit4
  cases hrange : v.isOutOfRange frame with
  | true =>
    rw [Es519xx.signedDisplay, if_pos (hover.trans hrange)] at hshown
    obtain rfl := Except.ok.inj hshown
    have hinfinite : Binary64.infinity.scale10 e = .infinity :=
      Binary64.scale_of_not_isFinite Binary64.not_isFinite_infinity _ _
    rw [hinfinite]
    exact .outOfRange hrange
  | false =>
    obtain ⟨digits, hdigits, rfl⟩ :=
      Es519xx.signedDisplay_eq hdigit4 hv (hover.trans hrange) hshown
    rw [hsign, Binary64.scale10_negIf]
    exact .number hrange hdigits

/-- **What a digit packet reports** is what it displays, with its exponent. A continuity test only
reports whether the circuit is closed. -/
theorem display_of_decode (hv : v.profile.family = .es519xx) (h : v.decode frame = .ok r) :
    ∃ shown e, v.exponent frame = .ok e ∧ (-12 ≤ e ∧ e ≤ 6) ∧ v.Displays frame e shown ∧
      r.value = (if r.quantity = .continuity then (if Es519xx.isClosed shown then .one else .zero)
        else shown) := by
  rw [decode_of_es519xx frame hv, mapError_eq_ok_iff, Es519xx.decode_eq_ok_iff] at h
  obtain ⟨a, shown, e, ha, hshown, he, rfl⟩ := h
  obtain ⟨_, _, _, _, hcheck⟩ := Es519xx.decodeAnnunciators_eq_ok_iff.mp ha
  obtain ⟨row, hrow⟩ := Es519xx.exists_rangeRow_of_exponent he
  obtain ⟨m, hm, hshows⟩ := Annunciators.exists_shows hcheck hrow
  have hexponent : v.exponent frame = .ok e := by
    simp only [exponent, hv, ha]
    exact mapError_eq_ok_iff.mpr he
  have hcontinuity : m.quantity = .continuity ↔ m = .continuity :=
    Es519xx.Mode.quantity_inj (n := .continuity)
  refine ⟨shown.scale10 e, e, hexponent, Es519xx.exponent_mem_range he,
    displays_of_signedDisplay hv ha hshown e, ?_⟩
  rw [Es519xx.classify_of_shows hshows hm]
  simp only [hcontinuity]

/-- **The values of digit packets.** None is unreadable, negative infinity or negative zero. Outside
continuity tests positive infinity means that a range lamp is lit; and while one is lit, the reading
stays the same whatever is put on the display. A continuity test reports one if no range lamp is lit
and the signed number on the display is from 0 to 25 ohm, and zero if not. -/
theorem value_classes (hv : v.profile.family = .es519xx) (h : v.decode frame = .ok r) :
    (r.value.isNaN = false ∧ r.value ≠ .negInfinity ∧ r.value ≠ Binary64.zero.neg) ∧
    (r.quantity ≠ .continuity → (r.value = .infinity ↔ v.isOutOfRange frame = true)) ∧
    (v.isOutOfRange frame = true → ∀ frame', v.AlikeUpTo v.displayBits frame frame' →
      v.decode frame' = .ok r) ∧
    (r.quantity = .continuity →
      (v.isOutOfRange frame = true → r.value = .zero) ∧
      (v.isOutOfRange frame = false → ∃ digits e,
        v.displayed? frame = some digits ∧ v.exponent frame = .ok e ∧
        r.value = if (0 : ℚ) ≤ signed (v.isSigned frame) (shownNumber digits) * 10 ^ e ∧
          (signed (v.isSigned frame) (shownNumber digits) : ℚ) * 10 ^ e ≤ 25
          then .one else .zero)) := by
  have hdecode : Es519xx.decode v.profile frame = .ok r := by
    rwa [decode_of_es519xx frame hv, mapError_eq_ok_iff] at h
  obtain ⟨shown, e, hexponent, he, hdisplay, hvalue⟩ := display_of_decode hv h
  refine ⟨⟨?_, Es519xx.value_ne_of_decode hv hdecode⟩, fun hquantity => ?_,
    fun hover frame' hframe' => ?_, fun hquantity => ⟨fun hover => ?_, fun hwithin => ?_⟩⟩
  · rw [hvalue]
    split_ifs
    · decide
    · decide
    · exact hdisplay.isNaN_eq_false he.2
  · rw [hvalue, if_neg hquantity]
    exact hdisplay.eq_infinity_iff he.2
  · obtain ⟨change, hflips, rfl⟩ := hframe'
    rw [decode_flip_of_outOfRange hv hover hflips, h]
  · have hopen : Es519xx.isClosed .infinity = false := by decide
    rw [hvalue, if_pos hquantity, (hdisplay.eq_infinity_iff he.2).mpr hover, hopen]
    rfl
  · obtain ⟨digits, hdigits, hclosed⟩ := hdisplay.isClosed_iff he hwithin
    refine ⟨digits, e, hdigits, hexponent, ?_⟩
    rw [hvalue, if_pos hquantity]
    exact if_congr hclosed rfl rfl

/-- A voltage out of range, with dashes, a sign and the half digit put on the display; and
continuity tests at 12.3 ohm, at -12.3 ohm and out of range. -/
theorem value_classes_voltage_and_continuity :
    let volts : List UInt8 := [0x30, 0x31, 0x32, 0x33, 0x34, 0x3b, 0x31, 0x30, 0x38, 0x0d, 0x0a]
    let dashes : List UInt8 := [0x30, 0x2d, 0x2d, 0x2d, 0x2d, 0x3b, 0x35, 0x31, 0x38, 0x0d, 0x0a]
    let near : List UInt8 := [0x30, 0x30, 0x31, 0x32, 0x33, 0x35, 0x30, 0x30, 0x30, 0x0d, 0x0a]
    let below : List UInt8 := [0x30, 0x30, 0x31, 0x32, 0x33, 0x35, 0x34, 0x30, 0x30, 0x0d, 0x0a]
    let far : List UInt8 := [0x30, 0x30, 0x31, 0x32, 0x33, 0x35, 0x31, 0x30, 0x30, 0x0d, 0x0a]
    let voltage : Reading := ⟨.voltage, .volt, ⟨0x02⟩, .infinity, 4⟩
    let test (value : Binary64) : Reading := ⟨.continuity, .boolean, ⟨0x00⟩, value, 1⟩
    (fast11FiveDigits.decode (volts ++ volts) = .ok voltage ∧
      fast11FiveDigits.isOutOfRange (volts ++ volts) = true ∧
      fast11FiveDigits.AlikeUpTo fast11FiveDigits.displayBits (volts ++ volts) (dashes ++ dashes) ∧
      fast11FiveDigits.decode (dashes ++ dashes) = .ok voltage) ∧
    (slow11.decode (near ++ near) = .ok (test .one) ∧
      slow11.isOutOfRange (near ++ near) = false ∧
      ∃ digits e, slow11.displayed? (near ++ near) = some digits ∧
        slow11.exponent (near ++ near) = .ok e ∧ (shownNumber digits : ℚ) * 10 ^ e ≤ 25) ∧
    (slow11.decode (below ++ below) = .ok (test .zero) ∧ (test .zero).value.isNaN = false) ∧
    (slow11.decode (far ++ far) = .ok (test .zero) ∧
      slow11.isOutOfRange (far ++ far) = true) := by
  intro volts dashes near below far voltage test
  have hvolts : fast11FiveDigits.decode (volts ++ volts) = .ok voltage := by decide +kernel
  have hover : fast11FiveDigits.isOutOfRange (volts ++ volts) = true := by decide
  have halike : fast11FiveDigits.AlikeUpTo fast11FiveDigits.displayBits (volts ++ volts)
      (dashes ++ dashes) :=
    ⟨_, ((((((flipsOnly_zero _).update 1 (c := 0x1c) (by decide)).update 2 (c := 0x1f)
      (by decide)).update 3 (c := 0x1e) (by decide)).update 4 (c := 0x19) (by decide)).update 6
      (c := 0x04) (by decide)).update 7 (c := 0x01) (by decide), by decide +kernel⟩
  have hnear : slow11.decode (near ++ near) = .ok (test .one) := by decide +kernel
  have hbelow : slow11.decode (below ++ below) = .ok (test .zero) := by decide +kernel
  have hfar : slow11.decode (far ++ far) = .ok (test .zero) := by decide +kernel
  have hwithin : slow11.isOutOfRange (near ++ near) = false := by decide
  have hunsigned : slow11.isSigned (near ++ near) = false := by decide
  obtain ⟨_, _, hsame, _⟩ := value_classes rfl hvolts
  obtain ⟨_, _, _, htest⟩ := value_classes rfl hnear
  obtain ⟨digits, e, hdigits, he, hclosed⟩ := (htest rfl).2 hwithin
  refine ⟨⟨hvolts, hover, halike, hsame hover _ halike⟩,
    ⟨hnear, hwithin, digits, e, hdigits, he, ?_⟩, ⟨hbelow, (value_classes rfl hbelow).1.1⟩,
    hfar, by decide⟩
  by_contra hgreat
  rw [hunsigned, if_neg fun hbounds => hgreat hbounds.2] at hclosed
  exact nomatch hclosed

end Variant

end Multimeter
