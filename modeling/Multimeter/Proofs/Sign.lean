import Multimeter.Proofs.Value

/-!
# Signs

A zero and an open circuit have no sign, yet a display can show one in front of them. Digit packets
drop it; segment packets apply it last, to zero and infinity too.

* `decimalValue_eq_zero_iff`: only zero is displayed as zero.
* `negIf_decimalValue_ne_negInfinity`, `negIf_decimalValue_eq_neg_zero_iff`: what a signed display
  reads as.
* **`Bm25x.Packet.value_eq_negInfinity_iff`**, **`Bm25x.Packet.value_eq_neg_zero_iff`**: where a
  sign stays.
* **`Variant.negative_sentinel_iff`**: which frames are read as negative infinity or negative zero.
-/

namespace Multimeter

/-! ## Displayed numbers -/

section

variable {n : Nat} {e : ℤ}

theorem isNegative_decimalValue (n : Nat) (e : ℤ) : (decimalValue n e).isNegative = false :=
  (Binary64.isNegative_scale _ _ _).trans (Binary64.isNegative_ofRatio n 1)

theorem isFinite_decimalValue (hn : n ≤ 99999) (he : e ≤ 6) : (decimalValue n e).IsFinite := by
  obtain ⟨hfinite, hvalue⟩ := Binary64.toRat_ofNat (n := n) (by omega)
  refine Binary64.isFinite_scale10 hfinite ?_
  rw [hvalue, abs_of_nonneg (Nat.cast_nonneg n)]
  calc (n : ℚ) * 10 ^ e ≤ 99999 * 10 ^ (6 : ℤ) := by
        refine mul_le_mul (by exact_mod_cast hn) ?_ (zpow_nonneg (by norm_num) e) (by norm_num)
        exact zpow_le_zpow_right₀ (by norm_num) he
    _ < 2 ^ (40 : ℤ) := by norm_num
    _ ≤ 2 ^ (1023 : ℤ) := zpow_le_zpow_right₀ one_le_two (by decide)

/-- The least positive pattern. -/
def leastPositive : Binary64 := ⟨1⟩

theorem isFinite_leastPositive : leastPositive.IsFinite := ⟨by decide, by decide⟩

theorem toRat_leastPositive : leastPositive.toRat = 2 ^ (-1074 : ℤ) := by
  have hvalue := Binary64.toRat_packed (x := leastPositive) (j := 0) (m := 1) (by decide)
    (Or.inl rfl) isFinite_leastPositive rfl rfl
  rwa [Nat.cast_one, one_mul, Nat.cast_zero, zero_sub] at hvalue

/-- **Only zero is displayed as zero**: the least positive pattern is nearer to any other number. -/
theorem decimalValue_eq_zero_iff (hn : n ≤ 99999) (hlow : -12 ≤ e) (hhigh : e ≤ 6) :
    decimalValue n e = .zero ↔ n = 0 := by
  constructor
  · intro hzero
    by_contra hpositive
    have hnearest := isNearest_decimalValue hn (isFinite_decimalValue hn hhigh)
    have hle := hnearest.le leastPositive isFinite_leastPositive
    rw [hzero, Binary64.toRat_zero, toRat_leastPositive] at hle
    have hr : (10 : ℚ) ^ (-12 : ℤ) ≤ n * 10 ^ e := by
      calc (10 : ℚ) ^ (-12 : ℤ) ≤ 10 ^ e := zpow_le_zpow_right₀ (by norm_num) hlow
        _ ≤ n * 10 ^ e := by
            refine le_mul_of_one_le_left (zpow_nonneg (by norm_num) e) ?_
            exact_mod_cast Nat.one_le_iff_ne_zero.mpr hpositive
    have hsmall : (2 : ℚ) ^ (-1074 : ℤ) < 10 ^ (-12 : ℤ) := by
      calc (2 : ℚ) ^ (-1074 : ℤ) ≤ 2 ^ (-40 : ℤ) := zpow_le_zpow_right₀ one_le_two (by decide)
        _ < 10 ^ (-12 : ℤ) := by norm_num
    have hunit : (0 : ℚ) < 2 ^ (-1074 : ℤ) := zpow_pos two_pos _
    rw [zero_sub, abs_neg, abs_of_nonneg (by linarith), abs_of_nonpos (by linarith)] at hle
    linarith
  · rintro rfl
    exact Binary64.scale_zero _ _

theorem negIf_decimalValue_ne_negInfinity (hn : n ≤ 99999) (he : e ≤ 6) (negative : Bool) :
    (decimalValue n e).negIf negative ≠ .negInfinity := by
  intro h
  have hfinite : ((decimalValue n e).negIf negative).IsFinite :=
    (Binary64.isFinite_negIf _ _).mpr (isFinite_decimalValue hn he)
  rw [h] at hfinite
  exact absurd hfinite.2 (by decide)

/-- **A display reads as negative zero** when it shows zero and the sign is kept. -/
theorem negIf_decimalValue_eq_neg_zero_iff (hn : n ≤ 99999) (hlow : -12 ≤ e) (hhigh : e ≤ 6)
    (negative : Bool) :
    (decimalValue n e).negIf negative = Binary64.zero.neg ↔ negative = true ∧ n = 0 := by
  rw [← decimalValue_eq_zero_iff hn hlow hhigh]
  cases negative with
  | true =>
    rw [Binary64.negIf_true]
    constructor
    · intro h
      have hzero := congrArg Binary64.neg h
      rw [Binary64.neg_neg, Binary64.neg_neg] at hzero
      exact ⟨rfl, hzero⟩
    · rintro ⟨_, hzero⟩
      rw [hzero]
  | false =>
    rw [Binary64.negIf_false]
    refine ⟨fun h => ?_, fun h => nomatch h.1⟩
    have hsign := isNegative_decimalValue n e
    rw [h] at hsign
    exact absurd hsign (by decide)

end

/-! ## The two families -/

namespace Bm25x.Packet

variable (p : Packet)

theorem value_eq_negInfinity_iff : p.value = .negInfinity ↔
    p.isNegative = true ∧ p.shownDigits? = none ∧ p.isOpen = true := by
  cases hdigits : p.shownDigits? with
  | some digits =>
    have hbound := (isDisplay_of_shownDigits? hdigits).2.shownNumber_le
    rw [value_of_shownDigits? hdigits]
    refine ⟨fun h => absurd h ?_, fun h => nomatch h.2.1⟩
    exact negIf_decimalValue_ne_negInfinity hbound p.exponent_mem_range.2 _
  | none =>
    rw [value_of_eq_none hdigits]
    cases p.isOpen <;> cases p.isNegative <;> decide

theorem value_eq_neg_zero_iff : p.value = Binary64.zero.neg ↔
    p.isNegative = true ∧ ∃ digits, p.shownDigits? = some digits ∧ shownNumber digits = 0 := by
  cases hdigits : p.shownDigits? with
  | some digits =>
    have hbound := (isDisplay_of_shownDigits? hdigits).2.shownNumber_le
    obtain ⟨hlow, hhigh⟩ := p.exponent_mem_range
    rw [value_of_shownDigits? hdigits, negIf_decimalValue_eq_neg_zero_iff hbound hlow hhigh]
    simp
  | none =>
    rw [value_of_eq_none hdigits]
    refine ⟨fun h => absurd h ?_, fun ⟨_, _, h, _⟩ => nomatch h⟩
    cases p.isOpen <;> cases p.isNegative <;> decide

end Bm25x.Packet

theorem Es519xx.value_ne_of_decode {v : Variant} {frame : List UInt8} {r : Reading}
    (hv : v.profile.family = .es519xx) (h : decode v.profile frame = .ok r) :
    r.value ≠ .negInfinity ∧ r.value ≠ Binary64.zero.neg := by
  by_cases hquantity : r.quantity = .continuity
  · obtain hopen | hclosed := (wellFormed_of_decode h).open_or_closed hquantity
    · rw [hopen]
      decide
    · rw [hclosed]
      decide
  · obtain ⟨a, e, _, he, _, hvalue⟩ := value_of_decode hv h
    obtain ⟨hlow, hhigh⟩ := exponent_mem_range he
    obtain ⟨_, hinfinite⟩ | ⟨_, digits, hdisplayed, hdisplay⟩ := hvalue hquantity
    · rw [hinfinite]
      decide
    · have hbound := (Variant.isDisplay_of_displayed? hdisplayed).shownNumber_le
      rw [hdisplay]
      refine ⟨negIf_decimalValue_ne_negInfinity hbound hhigh _, fun hzero => ?_⟩
      obtain ⟨hsign, hn⟩ := (negIf_decimalValue_eq_neg_zero_iff hbound hlow hhigh _).mp hzero
      exact of_decide_eq_true (Bool.and_eq_true_iff.mp hsign).2 hn

/-! ## All formats -/

namespace Variant

variable {v : Variant} {frame : List UInt8} {r : Reading}

/-- **A negative infinity or a negative zero comes from a segment packet with the sign lamp lit**,
in front of an open circuit and in front of a zero. A digit packet that is out of its range is read
as positive infinity whatever its sign is. -/
theorem negative_sentinel_iff (h : v.decode frame = .ok r) :
    (r.value = .negInfinity ↔ v.profile.family = .bm25x ∧
      Bm25x.Packet.isNegative ⟨frame⟩ = true ∧ Bm25x.Packet.shownDigits? ⟨frame⟩ = none ∧
      Bm25x.Packet.isOpen ⟨frame⟩ = true) ∧
    (r.value = Binary64.zero.neg ↔ v.profile.family = .bm25x ∧
      Bm25x.Packet.isNegative ⟨frame⟩ = true ∧
      ∃ digits, Bm25x.Packet.shownDigits? ⟨frame⟩ = some digits ∧ shownNumber digits = 0) ∧
    (v.profile.family = .es519xx → r.quantity ≠ .continuity →
      ∀ a, Es519xx.decodeAnnunciators v.profile frame = .ok a →
      (a.overflow || a.underflow) = true → r.value = .infinity) := by
  cases hv : v.profile.family with
  | bm25x =>
    rw [decode_of_bm25x frame hv, mapError_eq_ok_iff, Bm25x.Packet.decode_eq_ok_iff] at h
    obtain ⟨_, _, rfl⟩ := h
    refine ⟨?_, ?_, fun hne => nomatch hne⟩
    · exact (Bm25x.Packet.value_eq_negInfinity_iff ⟨frame⟩).trans (by simp)
    · exact (Bm25x.Packet.value_eq_neg_zero_iff ⟨frame⟩).trans (by simp)
  | es519xx =>
    rw [decode_of_es519xx frame hv, mapError_eq_ok_iff] at h
    obtain ⟨hinfinity, hzero⟩ := Es519xx.value_ne_of_decode hv h
    refine ⟨⟨fun heq => absurd heq hinfinity, fun hne => nomatch hne.1⟩,
      ⟨fun heq => absurd heq hzero, fun hne => nomatch hne.1⟩, fun _ hquantity a ha hover => ?_⟩
    obtain ⟨a', e, ha', _, _, hvalue⟩ := Es519xx.value_of_decode hv h
    obtain rfl := Except.ok.inj (ha'.symm.trans ha)
    obtain ⟨_, hinfinite⟩ | ⟨hwithin, _⟩ := hvalue hquantity
    · exact hinfinite
    · exact nomatch hover.symm.trans hwithin

/-- An open circuit and a zero behind the sign lamp of a segment packet, and a digit packet that is
out of its range with its sign lit. -/
theorem negative_sentinel_iff_three_signs :
    let circuit : List UInt8 := [0x02, 0x18, 0x20, 0x31, 0x40, 0x5e, 0x6b, 0x76, 0x81, 0x90, 0xa0,
      0xb2, 0xc4, 0xd0, 0xe0]
    let zero : List UInt8 := [0x02, 0x14, 0x20, 0x3f, 0x4b, 0x5e, 0x6b, 0x7e, 0x8b, 0x9e, 0xab,
      0xb0, 0xc0, 0xd0, 0xe4]
    let range : List UInt8 := [0x30, 0x30, 0x30, 0x30, 0x30, 0x33, 0x35, 0x30, 0x30, 0x0d, 0x0a]
    (bm25x.decode circuit = .ok ⟨.resistance, .ohm, ⟨0x04⟩, .negInfinity, -6⟩ ∧
      Bm25x.Packet.isOpen ⟨circuit⟩ = true) ∧
    (bm25x.decode zero = .ok ⟨.voltage, .volt, ⟨0x02⟩, Binary64.zero.neg, 0⟩ ∧
      ∃ digits, Bm25x.Packet.shownDigits? ⟨zero⟩ = some digits ∧ shownNumber digits = 0) ∧
    slow11.decode (range ++ range) = .ok ⟨.resistance, .ohm, ⟨0x00⟩, .infinity, 1⟩ ∧
    Binary64.infinity ≠ .negInfinity := by
  intro circuit zero range
  have hcircuit : bm25x.decode circuit = .ok ⟨.resistance, .ohm, ⟨0x04⟩, .negInfinity, -6⟩ := by
    decide +kernel
  have hzero : bm25x.decode zero = .ok ⟨.voltage, .volt, ⟨0x02⟩, Binary64.zero.neg, 0⟩ := by
    decide +kernel
  have hrange : slow11.decode (range ++ range) =
      .ok ⟨.resistance, .ohm, ⟨0x00⟩, .infinity, 1⟩ := by decide +kernel
  obtain ⟨hinfinity, _, _⟩ := negative_sentinel_iff hcircuit
  obtain ⟨_, hsigned, _⟩ := negative_sentinel_iff hzero
  obtain ⟨hdigits, _, _⟩ := negative_sentinel_iff hrange
  exact ⟨⟨hcircuit, (hinfinity.mp rfl).2.2.2⟩, ⟨hzero, (hsigned.mp rfl).2.2⟩, hrange,
    fun h => nomatch (hdigits.mp h).1⟩

/-- A sign in front of an open circuit and of a zero is read. -/
theorem not_forall_ne_negInfinity :
    ¬ ∀ (v : Variant) (frame : List UInt8) (r : Reading), v.decode frame = .ok r →
      r.value ≠ .negInfinity ∧ r.value ≠ Binary64.zero.neg := by
  intro hall
  have hcircuit : bm25x.decode [0x02, 0x18, 0x20, 0x31, 0x40, 0x5e, 0x6b, 0x76, 0x81, 0x90, 0xa0,
      0xb2, 0xc4, 0xd0, 0xe0] = .ok ⟨.resistance, .ohm, ⟨0x04⟩, .negInfinity, -6⟩ := by
    decide +kernel
  exact (hall bm25x _ _ hcircuit).1 rfl

end Variant

end Multimeter
