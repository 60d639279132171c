import Mathlib.Data.List.Basic
import Mathlib.Tactic.Ring
import Multimeter.Decimal.Display

/-!
# Digits behind a leading number

Digits are folded onto a leading number in a 64-bit word. As long as no step leaves the word, the
result is the number with all these digits: it is bounded by the leading number, greater for greater
digits, and gives them back.

* `numberBehind`: the number without a bound; `numberBehind_lt_iff`, `numberBehind_inj`: its order
  is that of the leading number and then of the digits, from the first on.
* `foldDigits?`: the fold that stops where a product or a sum leaves the word;
  **`foldDigits?_eq_some_iff`**: it gives the number, and only fails if that is no word.
* `NoOverflow`: the fold is not stopped; **`noOverflow_iff`**, `NoOverflow.toNat_foldDigits`.
* **`foldDigits_faithful`**: bounds, digits in two parts, order and what is given back.
-/

namespace Multimeter

/-! ## Without a bound -/

/-- The number that digits show behind a leading number. -/
def numberBehind (lead : Nat) (digits : List UInt8) : Nat :=
  digits.foldl (fun n d => n * 10 + d.toNat) lead

theorem numberBehind_cons (lead : Nat) (d : UInt8) (digits : List UInt8) :
    numberBehind lead (d :: digits) = numberBehind (lead * 10 + d.toNat) digits := rfl

theorem numberBehind_append (lead : Nat) (a b : List UInt8) :
    numberBehind lead (a ++ b) = numberBehind (numberBehind lead a) b :=
  List.foldl_append

theorem mul_pow_le_numberBehind (lead : Nat) (digits : List UInt8) :
    lead * 10 ^ digits.length ≤ numberBehind lead digits := by
  induction digits generalizing lead with
  | nil => simp [numberBehind]
  | cons d digits ih =>
    calc lead * 10 ^ (digits.length + 1) = lead * 10 * 10 ^ digits.length := by ring
      _ ≤ (lead * 10 + d.toNat) * 10 ^ digits.length :=
        Nat.mul_le_mul_right _ (Nat.le_add_right _ _)
      _ ≤ numberBehind (lead * 10 + d.toNat) digits := ih _

theorem le_numberBehind (lead : Nat) (digits : List UInt8) : lead ≤ numberBehind lead digits :=
  (Nat.le_mul_of_pos_right lead (Nat.pow_pos (by decide))).trans
    (mul_pow_le_numberBehind lead digits)

theorem numberBehind_lt (lead : Nat) {digits : List UInt8} (h : ∀ d ∈ digits, d ≤ 9) :
    numberBehind lead digits < (lead + 1) * 10 ^ digits.length := by
  induction digits generalizing lead with
  | nil => simp [numberBehind]
  | cons d digits ih =>
    obtain ⟨hd, hdigits⟩ := List.forall_mem_cons.mp h
    have hd : d.toNat ≤ 9 := UInt8.le_iff_toNat_le.mp hd
    calc numberBehind (lead * 10 + d.toNat) digits
        < (lead * 10 + d.toNat + 1) * 10 ^ digits.length := ih _ hdigits
      _ ≤ ((lead + 1) * 10) * 10 ^ digits.length := Nat.mul_le_mul_right _ (by omega)
      _ = (lead + 1) * 10 ^ (digits.length + 1) := by ring

theorem mul_ten_add_lt_iff {lead lead' : Nat} {d d' : UInt8} (hd : d ≤ 9) (hd' : d' ≤ 9) :
    lead * 10 + d.toNat < lead' * 10 + d'.toNat ↔ lead < lead' ∨ lead = lead' ∧ d < d' := by
  have hd : d.toNat ≤ 9 := UInt8.le_iff_toNat_le.mp hd
  have hd' : d'.toNat ≤ 9 := UInt8.le_iff_toNat_le.mp hd'
  rw [UInt8.lt_iff_toNat_lt]
  omega

theorem mul_ten_add_inj {lead lead' : Nat} {d d' : UInt8} (hd : d ≤ 9) (hd' : d' ≤ 9) :
    lead * 10 + d.toNat = lead' * 10 + d'.toNat ↔ lead = lead' ∧ d = d' := by
  have hd : d.toNat ≤ 9 := UInt8.le_iff_toNat_le.mp hd
  have hd' : d'.toNat ≤ 9 := UInt8.le_iff_toNat_le.mp hd'
  rw [← UInt8.toNat_inj]
  omega

theorem numberBehind_lt_iff {lead lead' : Nat} {digits digits' : List UInt8}
    (h : ∀ d ∈ digits, d ≤ 9) (h' : ∀ d ∈ digits', d ≤ 9)
    (hlength : digits.length = digits'.length) :
    numberBehind lead digits < numberBehind lead' digits' ↔
      lead < lead' ∨ lead = lead' ∧ digits < digits' := by
  induction digits generalizing lead lead' digits' with
  | nil =>
    obtain rfl := List.length_eq_zero_iff.mp hlength.symm
    simp [numberBehind]
  | cons d digits ih =>
    obtain ⟨d', digits', rfl⟩ := List.exists_cons_of_length_eq_add_one hlength.symm
    obtain ⟨hd, hdigits⟩ := List.forall_mem_cons.mp h
    obtain ⟨hd', hdigits'⟩ := List.forall_mem_cons.mp h'
    rw [numberBehind_cons, numberBehind_cons, ih hdigits hdigits' (Nat.succ.inj hlength),
      mul_ten_add_lt_iff hd hd', mul_ten_add_inj hd hd', List.cons_lt_cons_iff, or_assoc, and_assoc,
      and_or_left]

/-- **The number gives back the leading number and the digits**: otherwise one number would be less
than the other. -/
theorem numberBehind_inj {lead lead' : Nat} {digits digits' : List UInt8}
    (h : ∀ d ∈ digits, d ≤ 9) (h' : ∀ d ∈ digits', d ≤ 9)
    (hlength : digits.length = digits'.length) :
    numberBehind lead digits = numberBehind lead' digits' ↔ lead = lead' ∧ digits = digits' := by
  constructor
  · intro heq
    have hnotLess := (numberBehind_lt_iff h h' hlength).not.mp heq.not_lt
    have hnotGreater := (numberBehind_lt_iff h' h hlength.symm).not.mp heq.symm.not_lt
    obtain rfl : lead = lead' := by omega
    exact ⟨rfl, List.le_antisymm (fun hgreater => hnotGreater (Or.inr ⟨rfl, hgreater⟩))
      fun hless => hnotLess (Or.inr ⟨rfl, hless⟩)⟩
  · rintro ⟨rfl, rfl⟩
    rfl

/-! ## In a word -/

/-- The accumulator behind one more digit, unless the product or the sum leaves the word. -/
def pushDigit? (acc : UInt64) (d : UInt8) : Option UInt64 :=
  if acc.toNat * 10 < 2 ^ 64 ∧ (acc * 10).toNat + d.toNat < 2 ^ 64 then
    some (acc * 10 + d.toUInt64)
  else none

/-- The fold of the digits, unless a step leaves the word. -/
def foldDigits? (lead : UInt64) (digits : List UInt8) : Option UInt64 :=
  digits.foldlM pushDigit? lead

theorem pushDigit?_eq_some_iff {acc r : UInt64} {d : UInt8} :
    pushDigit? acc d = some r ↔ r.toNat = acc.toNat * 10 + d.toNat := by
  have hproduct : (acc * 10).toNat = acc.toNat * 10 % 2 ^ 64 := UInt64.toNat_mul _ _
  have hsum : (acc * 10 + d.toUInt64).toNat = ((acc * 10).toNat + d.toNat) % 2 ^ 64 := by
    rw [UInt64.toNat_add, UInt8.toNat_toUInt64]
  have hr := r.toNat_lt
  unfold pushDigit?
  split_ifs with hfits
  · rw [Option.some.injEq, ← UInt64.toNat_inj, hsum]
    omega
  · simp only [false_iff]
    omega

theorem eq_of_pushDigit?_eq_some {acc r : UInt64} {d : UInt8} (h : pushDigit? acc d = some r) :
    r = acc * 10 + d.toUInt64 := by
  unfold pushDigit? at h
  split_ifs at h
  exact (Option.some.inj h).symm

theorem foldDigits?_cons_eq_some_iff {lead r : UInt64} {d : UInt8} {digits : List UInt8} :
    foldDigits? lead (d :: digits) = some r ↔
      ∃ next, pushDigit? lead d = some next ∧ foldDigits? next digits = some r := by
  rw [foldDigits?, List.foldlM_cons]
  exact Option.bind_eq_some_iff

/-- **The fold gives the number**, and is only stopped if that is no word. -/
theorem foldDigits?_eq_some_iff {lead r : UInt64} {digits : List UInt8} :
    foldDigits? lead digits = some r ↔ r.toNat = numberBehind lead.toNat digits := by
  induction digits generalizing lead with
  | nil =>
    change some lead = some r ↔ r.toNat = lead.toNat
    rw [Option.some.injEq, ← UInt64.toNat_inj, eq_comm]
  | cons d digits ih =>
    rw [foldDigits?_cons_eq_some_iff]
    constructor
    · rintro ⟨next, hnext, hrest⟩
      rw [ih.mp hrest, pushDigit?_eq_some_iff.mp hnext, numberBehind_cons]
    · intro h
      -- a number that is still a word in the end has been one all along
      have hfits : lead.toNat * 10 + d.toNat < 2 ^ 64 :=
        (le_numberBehind _ digits).trans_lt (h ▸ r.toNat_lt)
      have hnext : (UInt64.ofNatLT _ hfits).toNat = lead.toNat * 10 + d.toNat :=
        UInt64.toNat_ofNatLT
      exact ⟨_, pushDigit?_eq_some_iff.mpr hnext, ih.mpr (by rw [hnext, h, numberBehind_cons])⟩

theorem eq_of_foldDigits?_eq_some {lead r : UInt64} {digits : List UInt8}
    (h : foldDigits? lead digits = some r) : r = foldDigits lead digits := by
  induction digits generalizing lead with
  | nil => exact (Option.some.inj h).symm
  | cons d digits ih =>
    obtain ⟨next, hnext, hrest⟩ := foldDigits?_cons_eq_some_iff.mp h
    obtain rfl := eq_of_pushDigit?_eq_some hnext
    exact ih hrest

/-- No product and no sum on the way leaves the word. -/
def NoOverflow (lead : UInt64) (digits : List UInt8) : Prop :=
  foldDigits? lead digits = some (foldDigits lead digits)

theorem NoOverflow.toNat_foldDigits {lead : UInt64} {digits : List UInt8}
    (h : NoOverflow lead digits) :
    (foldDigits lead digits).toNat = numberBehind lead.toNat digits :=
  foldDigits?_eq_some_iff.mp h

/-- **There is no overflow exactly if the number is a word.** -/
theorem noOverflow_iff {lead : UInt64} {digits : List UInt8} :
    NoOverflow lead digits ↔ numberBehind lead.toNat digits < 2 ^ 64 := by
  constructor
  · intro h
    exact h.toNat_foldDigits ▸ UInt64.toNat_lt _
  · intro hfits
    have hfold : foldDigits? lead digits = some (UInt64.ofNatLT _ hfits) :=
      foldDigits?_eq_some_iff.mpr UInt64.toNat_ofNatLT
    rwa [eq_of_foldDigits?_eq_some hfold] at hfold

theorem noOverflow_append {lead : UInt64} {a b : List UInt8} : NoOverflow lead (a ++ b) ↔
    NoOverflow lead a ∧ NoOverflow (foldDigits lead a) b := by
  constructor
  · intro h
    rw [noOverflow_iff, numberBehind_append] at h
    have ha : NoOverflow lead a := noOverflow_iff.mpr ((le_numberBehind _ b).trans_lt h)
    exact ⟨ha, noOverflow_iff.mpr (ha.toNat_foldDigits ▸ h)⟩
  · rintro ⟨ha, hb⟩
    rw [noOverflow_iff, ha.toNat_foldDigits] at hb
    rwa [noOverflow_iff, numberBehind_append]

/-- **Folding digits is faithful.** Decimal digits with room behind the leading number do not
overflow, and the result lies between the leading number and the next one, both with zeros behind
them. Digits in two parts, and be they no decimal ones, are folded one part behind the other, with
an overflow exactly if one of the parts has one. And among lists of the same length without an
overflow the result is ordered by the leading number and then by the digits, and gives them back. -/
theorem foldDigits_faithful :
    (∀ (lead : UInt64) (digits : List UInt8), (∀ d ∈ digits, d ≤ 9) →
      (lead.toNat + 1) * 10 ^ digits.length ≤ 2 ^ 64 →
      NoOverflow lead digits ∧
        lead.toNat * 10 ^ digits.length ≤ (foldDigits lead digits).toNat ∧
        (foldDigits lead digits).toNat < (lead.toNat + 1) * 10 ^ digits.length) ∧
    (∀ (lead : UInt64) (a b : List UInt8),
      foldDigits lead (a ++ b) = foldDigits (foldDigits lead a) b ∧
      (NoOverflow lead (a ++ b) ↔ NoOverflow lead a ∧ NoOverflow (foldDigits lead a) b)) ∧
    ∀ (lead lead' : UInt64) (digits digits' : List UInt8), (∀ d ∈ digits, d ≤ 9) →
      (∀ d ∈ digits', d ≤ 9) → digits.length = digits'.length →
      NoOverflow lead digits → NoOverflow lead' digits' →
      (foldDigits lead digits < foldDigits lead' digits' ↔
        lead < lead' ∨ lead = lead' ∧ digits < digits') ∧
      (foldDigits lead digits = foldDigits lead' digits' ↔ lead = lead' ∧ digits = digits') := by
  refine ⟨fun lead digits hdigits hroom => ?_, fun lead a b =>
    ⟨foldDigits_append lead a b, noOverflow_append⟩,
    fun lead lead' digits digits' hdigits hdigits' hlength h h' => ⟨?_, ?_⟩⟩
  · have hlt := numberBehind_lt lead.toNat hdigits
    have hfits : NoOverflow lead digits := noOverflow_iff.mpr (hlt.trans_le hroom)
    rw [hfits.toNat_foldDigits]
    exact ⟨hfits, mul_pow_le_numberBehind _ _, hlt⟩
  · rw [UInt64.lt_iff_toNat_lt, h.toNat_foldDigits, h'.toNat_foldDigits,
      numberBehind_lt_iff hdigits hdigits' hlength, UInt64.lt_iff_toNat_lt, UInt64.toNat_inj]
  · rw [← UInt64.toNat_inj, h.toNat_foldDigits, h'.toNat_foldDigits,
      numberBehind_inj hdigits hdigits' hlength, UInt64.toNat_inj]

/-- Three digits behind the last leading number with room for all of them, and behind the next one,
which has room for some. -/
theorem foldDigits_faithful_near_limit :
    let below : UInt64 := 18446744073709550
    let last : UInt64 := 18446744073709551
    (NoOverflow below [9, 9, 9] ∧ (foldDigits below [9, 9, 9]).toNat < (below.toNat + 1) * 10 ^ 3) ∧
    (NoOverflow last [6, 1, 5] ∧ ¬ NoOverflow last [6, 1, 6]) ∧
    foldDigits below [9, 9, 9] < foldDigits last [6, 1, 5] := by
  intro below last
  have hnines : ∀ d ∈ ([9, 9, 9] : List UInt8), d ≤ 9 := by simp
  have hsmall : ∀ d ∈ ([6, 1, 5] : List UInt8), d ≤ 9 := by simp
  obtain ⟨hbelow, _, hlt⟩ := foldDigits_faithful.1 below [9, 9, 9] hnines (by decide +kernel)
  have hlast : NoOverflow last [6, 1, 5] := noOverflow_iff.mpr (by decide +kernel)
  have hbeyond : ¬ NoOverflow last [6, 1, 6] := noOverflow_iff.not.mpr (by decide +kernel)
  obtain ⟨horder, _⟩ :=
    foldDigits_faithful.2.2 below last [9, 9, 9] [6, 1, 5] hnines hsmall rfl hbelow hlast
  exact ⟨⟨hbelow, hlt⟩, ⟨hlast, hbeyond⟩, horder.mpr (Or.inl (by decide +kernel))⟩

end Multimeter
