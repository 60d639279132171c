import Mathlib.Tactic.SplitIfs
import Multimeter.Json.Reader

/-!
# Numerals read back

A numeral that is followed by nothing that could continue it is read back digit by digit.

* `Numeral.Written`: the numerals that can be written.
* `Json.Stops`: a text that does not continue a numeral.
* **`Json.readNumeral_text`**: a written numeral is read back.
* `Numeral.written_ofInt`, **`Numeral.toInt?_ofInt`**: the same for integers and their values.
-/

namespace Multimeter

namespace Numeral

/-! ## Digits -/

def AreDigits (ds : List Char) : Prop := ∀ c ∈ ds, c.isDigit = true

theorem areDigits_toDigits (n : Nat) : AreDigits (Nat.toDigits 10 n) :=
  fun _ hc => Nat.isDigit_of_mem_toDigits (by decide) (by decide) hc

theorem areDigits_append {ds ds' : List Char} :
    AreDigits (ds ++ ds') ↔ AreDigits ds ∧ AreDigits ds' :=
  List.forall_mem_append

theorem areDigits_replicate_zero (k : Nat) : AreDigits (List.replicate k '0') := by
  intro c hc
  rw [List.eq_of_mem_replicate hc]
  rfl

theorem digitsValue_eq (ds : List Char) : digitsValue ds = Nat.ofDigitChars 10 ds 0 := by
  have hstep : ∀ n, ds.foldl (fun n c => n * 10 + digitValue c) n = Nat.ofDigitChars 10 ds n := by
    induction ds with
    | nil => exact fun _ => rfl
    | cons c ds ih =>
      intro n
      rw [Nat.ofDigitChars_cons, List.foldl_cons, ih, Nat.mul_comm 10 n]
      rfl
  exact hstep 0

@[simp] theorem digitsValue_toDigits (n : Nat) : digitsValue (Nat.toDigits 10 n) = n := by
  rw [digitsValue_eq, Nat.ofDigitChars_ten_toDigits]

theorem head?_toDigits_ne {n : Nat} (hn : 0 < n) : (Nat.toDigits 10 n).head? ≠ some '0' := by
  induction n using Nat.strongRecOn with
  | ind n ih =>
    rw [Nat.toDigits_eq_if (by decide)]
    split_ifs with hlt
    · simp
      omega
    · obtain ⟨c, ds, hdigits⟩ :=
        List.exists_cons_of_ne_nil (Nat.toDigits_ne_nil (n := n / 10) (b := 10))
      have hhead := ih (n / 10) (by omega) (by omega)
      rw [hdigits] at hhead ⊢
      exact hhead

/-! ## Written numerals -/

/-- There are digits wherever a numeral needs some, and none too many. -/
structure Written (n : Numeral) : Prop where
  whole_ne_nil : n.whole ≠ []
  whole_digits : AreDigits n.whole
  /-- A zero stands alone. -/
  whole_zero : n.whole.head? = some '0' → n.whole = ['0']
  fraction_digits : AreDigits n.fraction
  exponent_digits : ∀ e ∈ n.exponent, e.2 ≠ [] ∧ AreDigits e.2

theorem toDigits_zero_alone (n : Nat) :
    (Nat.toDigits 10 n).head? = some '0' → Nat.toDigits 10 n = ['0'] := by
  intro hhead
  obtain rfl | hpos := n.eq_zero_or_pos
  · rfl
  · exact absurd hhead (head?_toDigits_ne hpos)

/-! ## Integers -/

theorem written_ofInt (n : Int) : (ofInt n).Written where
  whole_ne_nil := Nat.toDigits_ne_nil
  whole_digits := areDigits_toDigits _
  whole_zero := toDigits_zero_alone _
  fraction_digits _ h := absurd h List.not_mem_nil
  exponent_digits _ h := by cases h

theorem ofNat_eq_ofInt (n : Nat) : ofNat n = ofInt n := by
  simp [ofNat, ofInt]

/-- **Integers are read back.** -/
@[simp] theorem toInt?_ofInt (n : Int) : (ofInt n).toInt? = some n := by
  unfold toInt? ofInt
  rw [if_pos ⟨rfl, rfl⟩]
  dsimp only
  rw [digitsValue_toDigits]
  obtain hneg | hnonneg := Int.lt_or_le n 0
  · rw [decide_eq_true hneg, if_pos rfl, if_neg (by omega),
      Int.ofNat_natAbs_of_nonpos (Int.le_of_lt hneg), Int.neg_neg]
  · rw [decide_eq_false (Int.not_lt.mpr hnonneg), if_neg Bool.false_ne_true,
      Int.natAbs_of_nonneg hnonneg]

end Numeral

namespace Json

open Numeral (AreDigits)

/-! ## Reading a numeral -/

/-- The text does not begin with anything that continues a numeral. -/
def Stops (rest : List Char) : Prop :=
  ∀ c ∈ rest.head?, c.isDigit = false ∧ c ≠ '.' ∧ c ≠ 'e' ∧ c ≠ 'E'

theorem takeWhile_isDigit {ds rest : List Char} (hds : AreDigits ds)
    (hrest : ∀ c ∈ rest.head?, c.isDigit = false) :
    (ds ++ rest).takeWhile Char.isDigit = ds ∧ (ds ++ rest).dropWhile Char.isDigit = rest := by
  rw [List.takeWhile_append_of_pos hds, List.dropWhile_append_of_pos hds]
  cases rest with
  | nil => exact ⟨List.append_nil ds, rfl⟩
  | cons c rest => simp [hrest c rfl]

theorem readDigits_append {ds rest : List Char} (hne : ds ≠ []) (hds : AreDigits ds)
    (hrest : ∀ c ∈ rest.head?, c.isDigit = false) : readDigits (ds ++ rest) = some (ds, rest) := by
  obtain ⟨htake, hdrop⟩ := takeWhile_isDigit hds hrest
  unfold readDigits
  dsimp only
  rw [htake, hdrop, if_neg hne]

theorem readWhole_append {ds rest : List Char} (hne : ds ≠ []) (hds : AreDigits ds)
    (hzero : ds.head? = some '0' → ds = ['0']) (hrest : ∀ c ∈ rest.head?, c.isDigit = false) :
    readWhole (ds ++ rest) = some (ds, rest) := by
  unfold readWhole
  rw [readDigits_append hne hds hrest]
  split
  case h_1 _ _ heq =>
    obtain ⟨rfl, _⟩ := Prod.mk.inj (Option.some.inj heq)
    cases hzero rfl
  · rfl

/-- The characters of a numeral behind the digits before the point. -/
def fractionText (ds : List Char) : List Char := if ds = [] then [] else '.' :: ds

def exponentText : Option (Bool × List Char) → List Char
  | none => []
  | some (negative, ds) => 'e' :: (if negative then '-' else '+') :: ds

theorem text_eq (n : Numeral) : n.text =
    (if n.negative then ['-'] else []) ++ n.whole ++ fractionText n.fraction
      ++ exponentText n.exponent := by
  unfold Numeral.text fractionText exponentText
  rfl

theorem readExponent_append {e : Option (Bool × List Char)} {rest : List Char}
    (he : ∀ p ∈ e, p.2 ≠ [] ∧ AreDigits p.2) (hrest : Stops rest) :
    readExponent (exponentText e ++ rest) = some (e, rest) := by
  cases e with
  | none =>
    cases rest with
    | nil => rfl
    | cons c rest =>
      obtain ⟨_, _, he, hE⟩ := hrest c rfl
      unfold readExponent exponentText
      split <;> simp_all
  | some p =>
    obtain ⟨negative, ds⟩ := p
    obtain ⟨hne, hds⟩ := he _ rfl
    have hread := readDigits_append hne hds fun c hc => (hrest c hc).1
    cases negative <;> simp [exponentText, readExponent, readSignedExponent, hread]

theorem head?_exponentText_append {e : Option (Bool × List Char)} {rest : List Char}
    (hrest : Stops rest) :
    ∀ c ∈ (exponentText e ++ rest).head?, c.isDigit = false ∧ c ≠ '.' := by
  cases e with
  | none => exact fun c hc => ⟨(hrest c hc).1, (hrest c hc).2.1⟩
  | some p =>
    intro c hc
    obtain rfl : 'e' = c := Option.some.inj hc
    decide

theorem readFraction_append {ds rest : List Char} (hds : AreDigits ds)
    (hrest : ∀ c ∈ rest.head?, c.isDigit = false ∧ c ≠ '.') :
    readFraction (fractionText ds ++ rest) = some (ds, rest) := by
  unfold fractionText
  split_ifs with hnil
  · subst hnil
    cases rest with
    | nil => rfl
    | cons c rest =>
      have hpoint := (hrest c rfl).2
      unfold readFraction
      split <;> simp_all
  · exact readDigits_append hnil hds fun c hc => (hrest c hc).1

theorem head?_fractionText_append (ds : List Char) {rest : List Char}
    (hrest : ∀ c ∈ rest.head?, c.isDigit = false) :
    ∀ c ∈ (fractionText ds ++ rest).head?, c.isDigit = false := by
  unfold fractionText
  split_ifs
  · exact hrest
  · intro c hc
    obtain rfl : '.' = c := Option.some.inj hc
    decide

theorem readMagnitude_append {n : Numeral} (hn : n.Written) {rest : List Char}
    (hrest : Stops rest) (negative : Bool) :
    readMagnitude negative
        (n.whole ++ (fractionText n.fraction ++ (exponentText n.exponent ++ rest))) =
      some ({ n with negative := negative }, rest) := by
  have hexponent := head?_exponentText_append (e := n.exponent) hrest
  have hfraction :=
    head?_fractionText_append n.fraction fun c hc => (hexponent c hc).1
  unfold readMagnitude
  rw [readWhole_append hn.whole_ne_nil hn.whole_digits hn.whole_zero hfraction]
  dsimp only [Option.bind_eq_bind, Option.bind_some]
  rw [readFraction_append hn.fraction_digits hexponent, Option.bind_some]
  dsimp only
  rw [readExponent_append hn.exponent_digits hrest, Option.bind_some]
  rfl

/-- **A written numeral is read back.** -/
theorem readNumeral_text {n : Numeral} (hn : n.Written) {rest : List Char} (hrest : Stops rest) :
    readNumeral (n.text ++ rest) = some (n, rest) := by
  have hread := readMagnitude_append hn hrest n.negative
  rw [text_eq]
  simp only [List.append_assoc]
  cases hnegative : n.negative with
  | true =>
    rw [hnegative] at hread
    exact hread.trans (by rw [← hnegative])
  | false =>
    have heq : { n with negative := false } = n := by rw [← hnegative]
    rw [hnegative, heq] at hread
    obtain ⟨c, ds, hwhole⟩ := List.exists_cons_of_ne_nil hn.whole_ne_nil
    have hdigit : c.isDigit = true := hn.whole_digits c (hwhole ▸ List.mem_cons_self)
    refine Eq.trans ?_ hread
    rw [hwhole]
    unfold readNumeral
    split
    case h_1 heq =>
      obtain ⟨rfl, _⟩ := List.cons.inj heq
      exact absurd hdigit (by decide)
    · rfl

end Json

end Multimeter
