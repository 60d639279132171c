import Mathlib.Data.Nat.Digits.Lemmas
import Multimeter.Proofs.Digits
import Multimeter.Proofs.Es519xx.Correction
import Multimeter.Proofs.Framing

/-!
# The number on the display

Both families show a number by decimal digits, and the number is what the digits say: the 64-bit
accumulator never overflows on the few places of a display.

* `shownNumber`: the number that digits show; **`toNat_foldDigits`**.
* `Variant.displayed?`: the digits that a frame shows, with the leading half digit.
* `Es519xx.Annunciators.digit4_ofPacket`: where the leading half digit comes from.
* **`Variant.isDisplay_of_displayed?`**: at most five places, and a decimal digit in each.
-/

namespace Multimeter

/-! ## The number that digits show -/

/-- The number that decimal digits show, leading digit first. -/
def shownNumber (digits : List UInt8) : Nat := Nat.ofDigits 10 (digits.reverse.map UInt8.toNat)

/-- Decimal digits in at most five places. -/
structure IsDisplay (digits : List UInt8) : Prop where
  length_le : digits.length ≤ 5
  digit_le : ∀ d ∈ digits, d ≤ 9

theorem shownNumber_concat (digits : List UInt8) (d : UInt8) :
    shownNumber (digits ++ [d]) = d.toNat + 10 * shownNumber digits := by
  rw [shownNumber, List.reverse_append, List.reverse_singleton, List.singleton_append,
    List.map_cons, Nat.ofDigits_cons]
  rfl

theorem shownNumber_lt {digits : List UInt8} (h : ∀ d ∈ digits, d ≤ 9) :
    shownNumber digits < 10 ^ digits.length := by
  have hdigit : ∀ n ∈ digits.reverse.map UInt8.toNat, n < 10 := by
    intro n hn
    obtain ⟨d, hd, rfl⟩ := List.mem_map.mp hn
    exact Nat.lt_succ_of_le (UInt8.le_iff_toNat_le.mp (h d (List.mem_reverse.mp hd)))
  have hlt := Nat.ofDigits_lt_base_pow_length (by decide) hdigit
  rwa [List.length_map, List.length_reverse] at hlt

theorem numberBehind_zero (digits : List UInt8) : numberBehind 0 digits = shownNumber digits := by
  induction digits using List.reverseRecOn with
  | nil => rfl
  | append_singleton digits d ih =>
    rw [numberBehind_append, ih, shownNumber_concat, Nat.add_comm, Nat.mul_comm]
    rfl

/-- **The accumulator holds the number that is shown**, as long as it fits. -/
theorem toNat_foldDigits {digits : List UInt8} (h : ∀ d ∈ digits, d ≤ 9)
    (hlength : digits.length ≤ 19) : (foldDigits 0 digits).toNat = shownNumber digits := by
  have hpow : 10 ^ digits.length ≤ 10 ^ 19 := Nat.pow_le_pow_right (by decide) hlength
  have hfits : NoOverflow 0 digits := noOverflow_iff.mpr <|
    calc numberBehind 0 digits = shownNumber digits := numberBehind_zero digits
      _ < 10 ^ digits.length := shownNumber_lt h
      _ ≤ 10 ^ 19 := hpow
      _ < 2 ^ 64 := by decide
  rw [hfits.toNat_foldDigits]
  exact numberBehind_zero digits

theorem IsDisplay.shownNumber_le {digits : List UInt8} (h : IsDisplay digits) :
    shownNumber digits ≤ 99999 := by
  have hlt := shownNumber_lt h.digit_le
  have hpow : 10 ^ digits.length ≤ 10 ^ 5 := Nat.pow_le_pow_right (by decide) h.length_le
  omega

theorem IsDisplay.toNat_foldDigits {digits : List UInt8} (h : IsDisplay digits) :
    (foldDigits 0 digits).toNat = shownNumber digits :=
  Multimeter.toNat_foldDigits h.digit_le (h.length_le.trans (by decide))

/-! ## The digits on a display -/

namespace Bm25x

theorem Glyph.digit_le {code : UInt8} {g : Glyph} {d : UInt8} (hg : ofCode? code = some g)
    (hd : g.digit? = some d) : d ≤ 9 := by
  have hmem : (code, g) ∈ patterns := by
    obtain ⟨before, after, hsplit, _⟩ := List.lookup_eq_some_iff.mp hg
    rw [hsplit]
    exact List.mem_append_right _ List.mem_cons_self
  have hall : ∀ entry ∈ patterns, ∀ d ∈ entry.2.digit?, d ≤ 9 := by decide +kernel
  exact hall (code, g) hmem d hd

theorem Packet.isDisplay_of_shownDigits? {p : Packet} {digits : List UInt8}
    (h : p.shownDigits? = some digits) : digits.length = p.numberPlaces ∧ IsDisplay digits := by
  obtain ⟨hlength, hall⟩ := of_mapM_eq_some h
  rw [List.length_range] at hlength
  refine ⟨hlength, ?_, fun d hd => ?_⟩
  · rw [hlength, numberPlaces]
    split_ifs <;> decide
  · obtain ⟨i, hi⟩ := hall d hd
    obtain ⟨g, hg, hdigit⟩ := Option.bind_eq_some_iff.mp hi
    exact Glyph.digit_le hg hdigit

end Bm25x

/-- The format with a leading half digit reads its lamp from a first option of its own. -/
theorem Variant.fiveDigits_layout (v : Variant) (h : v.profile.fiveDigits = true) :
    v.profile.packetSize ≠ 14 ∧ v.profile.alternateFunctions = false ∧
      v.profile.baudRate ≠ 2400 := by
  revert h
  cases v <;> decide

namespace Es519xx

theorem Packet.digit_le {p : Packet} {i : Nat} {d : UInt8} (h : p.digit i = .ok d) : d ≤ 9 := by
  unfold digit at h
  obtain ⟨value, _, h⟩ := bind_eq_ok_iff.mp h
  split_ifs at h with hdigit
  obtain rfl := Except.ok.inj h
  obtain ⟨hlow, hhigh⟩ := Bool.and_eq_true_iff.mp hdigit
  have hlow : 48 ≤ value := of_decide_eq_true hlow
  have hhigh : value.toNat ≤ 57 := UInt8.le_iff_toNat_le.mp (of_decide_eq_true hhigh)
  rw [UInt8.le_iff_toNat_le, UInt8.toNat_sub_of_le _ _ hlow]
  change value.toNat - 48 ≤ 9
  omega

theorem Packet.digits_eq_ok {p : Packet} {digits : List UInt8} (h : p.digits = .ok digits) :
    digits.length = p.digitCount ∧ ∀ d ∈ digits, d ≤ 9 := by
  obtain ⟨hlength, hall⟩ := of_mapM_eq_ok h
  rw [List.length_range'] at hlength
  refine ⟨hlength, fun d hd => ?_⟩
  obtain ⟨i, hi⟩ := hall d hd
  exact digit_le hi

namespace Annunciators

variable {v : Variant} {p : Packet} {a b : Annunciators}

theorem digit4_readOptions {profile : Profile} (hfive : profile.fiveDigits = true →
      profile.packetSize ≠ 14 ∧ profile.alternateFunctions = false ∧ profile.baudRate ≠ 2400)
    (h : a.readOptions profile p = .ok b) :
    b.digit4 = if profile.fiveDigits then bit (p.bytes.getD 7 0) 0 else a.digit4 := by
  obtain ⟨h14, o1, o2, o3, o4, _, _, _, _, rfl⟩ | ⟨_, halternate, o2, _, rfl⟩ |
    ⟨_, _, o1, o2, ho1, _, rfl⟩ := readOptions_eq_ok_iff.mp h
  · rw [if_neg fun h => (hfive h).1 h14]
    unfold withOptions14
    split_ifs <;> rfl
  · rw [if_neg fun h => nomatch halternate.symm.trans (hfive h).2.1]
    rfl
  · have hbyte : p.bytes.getD 7 0 = o1 := by
      rw [List.getD_eq_getElem?_getD, (p.read_eq_ok_iff 7 o1).mp ho1]
      rfl
    have hsecond (a : Annunciators) : (a.withSecondOption profile o2).digit4 = a.digit4 := by
      unfold withSecondOption
      split_ifs <;> rfl
    rw [hbyte, hsecond]
    unfold withFirstOption
    split_ifs with hbaud
    · exact absurd hbaud (hfive ‹_›).2.2
    all_goals rfl

theorem digit4_ofPacket (h : ofPacket v.profile p = .ok a) :
    a.digit4 = (v.profile.fiveDigits && bit (p.bytes.getD 7 0) 0) := by
  obtain ⟨status, lit, hlit, hsame⟩ := indicators_ofPacket h
  have hdigit4 : a.digit4 = lit.digit4 := (congrArg digit4 hsame :)
  have hblank : (ofStatus v.profile.alternateFunctions status).digit4 = false := by
    unfold ofStatus
    split_ifs <;> rfl
  rw [hdigit4, digit4_readOptions v.fiveDigits_layout hlit, hblank]
  cases v.profile.fiveDigits <;> rfl

end Annunciators

end Es519xx

/-! ## What a frame shows -/

/-- The digits that a frame shows, leading digit first, with the leading half digit where it is
lit. -/
def Variant.displayed? (v : Variant) (frame : List UInt8) : Option (List UInt8) :=
  match v.profile.family with
  | .bm25x => Bm25x.Packet.shownDigits? ⟨frame⟩
  | .es519xx =>
    (Es519xx.Packet.digits ⟨frame, v.profile.packetSize⟩).toOption.map fun digits =>
      if v.profile.fiveDigits && Es519xx.bit (frame.getD 7 0) 0 then 1 :: digits else digits

namespace Variant

variable {v : Variant} {frame digits : List UInt8}

theorem displayed?_of_bm25x (hv : v.profile.family = .bm25x) (frame : List UInt8) :
    v.displayed? frame = Bm25x.Packet.shownDigits? ⟨frame⟩ := by
  simp only [displayed?, hv]

theorem displayed?_of_es519xx (hv : v.profile.family = .es519xx)
    (h : Es519xx.Packet.digits ⟨frame, v.profile.packetSize⟩ = .ok digits) :
    v.displayed? frame =
      some (if v.profile.fiveDigits && Es519xx.bit (frame.getD 7 0) 0 then 1 :: digits
        else digits) := by
  simp only [displayed?, hv, h]
  rfl

/-- **A display has at most five places**, and a decimal digit in each. -/
theorem isDisplay_of_displayed? (h : v.displayed? frame = some digits) : IsDisplay digits := by
  cases hv : v.profile.family with
  | bm25x =>
    rw [displayed?_of_bm25x hv] at h
    exact (Bm25x.Packet.isDisplay_of_shownDigits? h).2
  | es519xx =>
    cases hread : Es519xx.Packet.digits ⟨frame, v.profile.packetSize⟩ with
    | error e => simp [displayed?, hv, hread, Except.toOption] at h
    | ok read =>
      rw [displayed?_of_es519xx hv hread] at h
      obtain ⟨hlength, hall⟩ := Es519xx.Packet.digits_eq_ok hread
      obtain rfl := Option.some.inj h
      split_ifs with hlead
      · have hfour : Es519xx.Packet.digitCount ⟨frame, v.profile.packetSize⟩ = 4 :=
          if_neg (fiveDigits_layout v (Bool.and_eq_true_iff.mp hlead).1).1
        refine ⟨?_, List.forall_mem_cons.mpr ⟨by decide, hall⟩⟩
        rw [List.length_cons, hlength, hfour]
      · refine ⟨?_, hall⟩
        rw [hlength]
        unfold Es519xx.Packet.digitCount
        split_ifs <;> decide

end Variant

end Multimeter
