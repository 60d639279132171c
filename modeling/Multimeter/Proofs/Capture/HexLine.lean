import Multimeter.Proofs.Capture.HexText

/-!
# What a line of hex text spells

A line is read through its characters in front of the comment, without blanks. They spell bytes when
they are hexadecimal digits, two for each byte; else an odd number of bytes in them is reported
first, then the first byte that is no digit.

* `Text.Spells`: digits in either case that spell bytes; **`Text.exists_spells_iff`**: which texts do.
* `Text.Spaced`: blanks are inserted into a text.
* `HexLine.IsFirstStray`: the first byte that is no digit.
* **`HexLine.pairs_of_spells`**, **`HexLine.pairs_of_stray`**: how pairs of digits are read.
* **`HexLine.bytes_grammar`**: which lines hold bytes, and what is reported of the others.
-/

namespace Multimeter

/-! ## Hexadecimal digits -/

namespace Text

open Capture (utf8EncodeChar_ne_nil utf8EncodeChar_of_lt le_of_mem_utf8EncodeChar)

/-- The ASCII hexadecimal digits, in either case. -/
def IsHexDigit (c : Char) : Prop :=
  ('0' ≤ c ∧ c ≤ '9') ∨ ('A' ≤ c ∧ c ≤ 'F') ∨ ('a' ≤ c ∧ c ≤ 'f')

instance : DecidablePred IsHexDigit := fun _ => inferInstanceAs (Decidable (_ ∨ _))

/-- The byte is the code of a hexadecimal digit. -/
def IsHexCode (b : UInt8) : Prop := ∃ c, IsHexDigit c ∧ String.utf8EncodeChar c = [b]

/-- The character is the digit of a value below 16, in either case. -/
def IsDigitOf (n : Nat) (c : Char) : Prop := c = hexDigit n ∨ c = (hexDigit n).toUpper

instance (n : Nat) : DecidablePred (IsDigitOf n) := fun _ => inferInstanceAs (Decidable (_ ∨ _))

/-! The digits are few, so what is said of them is checked for each. -/

theorem digit_table : ∀ n < 16,
    (IsHexDigit (hexDigit n) ∧
      hexValue? (UInt8.ofNat (hexDigit n).toNat) = some (UInt8.ofNat n)) ∧
    IsHexDigit (hexDigit n).toUpper ∧
      hexValue? (UInt8.ofNat (hexDigit n).toUpper.toNat) = some (UInt8.ofNat n) := by
  decide

theorem of_forall_ascii {P : Char → Prop} (h : ∀ k < 128, P (Char.ofNat k)) {c : Char}
    (hc : c.toNat < 128) : P c := by
  rw [← Char.ofNat_toNat c]
  exact h c.toNat hc

theorem ascii_table {c : Char} (hc : c.toNat < 128) :
    (IsHexDigit c → isBlank c = false ∧ ∃ n < 16, IsDigitOf n c) ∧
    (hexValue? (UInt8.ofNat c.toNat) ≠ none → IsHexDigit c) := by
  apply of_forall_ascii _ hc
  decide +kernel

section

variable {n : Nat} {c : Char}

theorem IsDigitOf.isHexDigit (hn : n < 16) (h : IsDigitOf n c) : IsHexDigit c := by
  rcases h with rfl | rfl
  · exact (digit_table n hn).1.1
  · exact (digit_table n hn).2.1

theorem IsDigitOf.hexValue?_eq (hn : n < 16) (h : IsDigitOf n c) :
    hexValue? (UInt8.ofNat c.toNat) = some (UInt8.ofNat n) := by
  rcases h with rfl | rfl
  · exact (digit_table n hn).1.2
  · exact (digit_table n hn).2.2

theorem IsHexDigit.toNat_lt (h : IsHexDigit c) : c.toNat < 128 := by
  have hle {d : Char} (hd : c ≤ d) : c.toNat ≤ d.toNat := hd
  have h9 : '9'.toNat = 57 := rfl
  have hF : 'F'.toNat = 70 := rfl
  have hf : 'f'.toNat = 102 := rfl
  rcases h with ⟨_, h⟩ | ⟨_, h⟩ | ⟨_, h⟩
  all_goals
    have := hle h
    omega

theorem IsHexDigit.exists_isDigitOf (h : IsHexDigit c) : ∃ n < 16, IsDigitOf n c :=
  ((ascii_table h.toNat_lt).1 h).2

theorem IsHexDigit.isBlank_eq (h : IsHexDigit c) : isBlank c = false :=
  ((ascii_table h.toNat_lt).1 h).1

theorem IsHexDigit.utf8EncodeChar_eq (h : IsHexDigit c) :
    String.utf8EncodeChar c = [UInt8.ofNat c.toNat] :=
  utf8EncodeChar_of_lt h.toNat_lt

end

theorem isHexCode_iff {b : UInt8} : IsHexCode b ↔ hexValue? b ≠ none := by
  constructor
  · rintro ⟨c, hc, hcode⟩
    rw [hc.utf8EncodeChar_eq] at hcode
    obtain rfl := List.singleton_inj.mp hcode
    obtain ⟨n, hn, hdigit⟩ := hc.exists_isDigitOf
    rw [hdigit.hexValue?_eq hn]
    simp
  · intro hb
    have hlt : b.toNat < 128 := by
      by_contra hge
      have h57 : ¬ b ≤ 57 := by
        change ¬ b.toNat ≤ 57
        omega
      have h70 : ¬ b ≤ 70 := by
        change ¬ b.toNat ≤ 70
        omega
      have h102 : ¬ b ≤ 102 := by
        change ¬ b.toNat ≤ 102
        omega
      apply hb
      simp [hexValue?, h57, h70, h102]
    have hcode : (Char.ofNat b.toNat).toNat = b.toNat := by
      rw [Char.ofNat, dif_pos (Or.inl (by omega))]
      exact UInt32.toNat_ofNatLT ..
    have hdigit : IsHexDigit (Char.ofNat b.toNat) := by
      apply (ascii_table (by omega)).2
      rwa [hcode, UInt8.ofNat_toNat]
    refine ⟨Char.ofNat b.toNat, hdigit, ?_⟩
    rw [hdigit.utf8EncodeChar_eq, hcode, UInt8.ofNat_toNat]

/-- A character whose code holds codes of digits only is a digit. -/
theorem isHexDigit_of_forall_isHexCode {c : Char}
    (h : ∀ b ∈ String.utf8EncodeChar c, IsHexCode b) : IsHexDigit c := by
  by_cases hc : c.toNat < 128
  · rw [utf8EncodeChar_of_lt hc, List.forall_mem_singleton, isHexCode_iff] at h
    exact (ascii_table hc).2 h
  · obtain ⟨b, hb⟩ := List.exists_mem_of_ne_nil _ (utf8EncodeChar_ne_nil c)
    obtain ⟨d, hd, hcode⟩ := h b hb
    have hge := le_of_mem_utf8EncodeChar (Nat.not_lt.mp hc) hb
    rw [hd.utf8EncodeChar_eq] at hcode
    obtain rfl := List.singleton_inj.mp hcode
    have hlt := hd.toNat_lt
    rw [UInt8.toNat_ofNat'] at hge
    omega

/-! ## Spellings of bytes -/

/-- The digits of bytes in order, for each byte a high and a low one, each in either case. -/
inductive Spells : List Char → List UInt8 → Prop where
  | nil : Spells [] []
  | cons {high low : Char} {b : UInt8} {s : List Char} {bs : List UInt8}
      (hhigh : IsDigitOf (b.toNat / 16) high) (hlow : IsDigitOf (b.toNat % 16) low)
      (rest : Spells s bs) : Spells (high :: low :: s) (b :: bs)

theorem toNat_div_lt (b : UInt8) : b.toNat / 16 < 16 := by
  have := b.toNat_lt
  omega

theorem toNat_mod_lt (b : UInt8) : b.toNat % 16 < 16 := Nat.mod_lt _ (by omega)

namespace Spells

variable {s : List Char} {bs : List UInt8}

theorem isHexDigit (h : Spells s bs) : ∀ c ∈ s, IsHexDigit c := by
  induction h with
  | nil => simp
  | cons hhigh hlow rest ih =>
    intro c hc
    simp only [List.mem_cons] at hc
    rcases hc with rfl | rfl | hc
    · exact hhigh.isHexDigit (toNat_div_lt _)
    · exact hlow.isHexDigit (toNat_mod_lt _)
    · exact ih c hc

theorem length_eq (h : Spells s bs) : s.length = 2 * bs.length := by
  induction h with
  | nil => rfl
  | cons _ _ rest ih =>
    simp only [List.length_cons, ih]
    omega

end Spells

theorem exists_byte_of_digits {high low : Char} (hhigh : IsHexDigit high) (hlow : IsHexDigit low) :
    ∃ b : UInt8, IsDigitOf (b.toNat / 16) high ∧ IsDigitOf (b.toNat % 16) low := by
  obtain ⟨m, hm, hmhigh⟩ := hhigh.exists_isDigitOf
  obtain ⟨n, hn, hnlow⟩ := hlow.exists_isDigitOf
  refine ⟨UInt8.ofNat (m * 16 + n), ?_⟩
  rw [UInt8.toNat_ofNat', show (m * 16 + n) % 2 ^ 8 / 16 = m by omega,
    show (m * 16 + n) % 2 ^ 8 % 16 = n by omega]
  exact ⟨hmhigh, hnlow⟩

theorem exists_spells : ∀ s : List Char, (∀ c ∈ s, IsHexDigit c) → s.length % 2 = 0 →
    ∃ bs, Spells s bs
  | [], _, _ => ⟨[], .nil⟩
  | [_], _, heven => by simp at heven
  | high :: low :: s, hs, heven => by
    obtain ⟨hhigh, hlow, hs⟩ : IsHexDigit high ∧ IsHexDigit low ∧ ∀ c ∈ s, IsHexDigit c := by
      simpa using hs
    obtain ⟨bs, hrest⟩ := exists_spells s hs (by simp only [List.length_cons] at heven; omega)
    obtain ⟨b, hbhigh, hblow⟩ := exists_byte_of_digits hhigh hlow
    exact ⟨b :: bs, .cons hbhigh hblow hrest⟩

/-- **The texts that spell bytes** are the digits in pairs. -/
theorem exists_spells_iff {s : List Char} :
    (∃ bs, Spells s bs) ↔ (∀ c ∈ s, IsHexDigit c) ∧ s.length % 2 = 0 := by
  constructor
  · rintro ⟨bs, h⟩
    refine ⟨h.isHexDigit, ?_⟩
    rw [h.length_eq]
    omega
  · rintro ⟨hs, heven⟩
    exact exists_spells s hs heven

theorem spells_hexPair (bs : List UInt8) : Spells (bs.flatMap fun b => (hexPair b).toList) bs := by
  induction bs with
  | nil => exact .nil
  | cons b bs ih =>
    rw [List.flatMap_cons, hexPair, String.toList_ofList]
    exact .cons (Or.inl rfl) (Or.inl rfl) ih

/-! ## Blanks among digits -/

/-- Blanks are inserted into a text, at any place. -/
inductive Spaced : List Char → List Char → Prop where
  | nil : Spaced [] []
  | blank {c : Char} {s body : List Char} (hc : isBlank c = true) (rest : Spaced s body) :
      Spaced s (c :: body)
  | keep {c : Char} {s body : List Char} (rest : Spaced s body) : Spaced (c :: s) (c :: body)

namespace Spaced

variable {s body : List Char}

theorem dropBlanks_eq (h : Spaced s body) (hs : ∀ c ∈ s, isBlank c = false) :
    dropBlanks body = s := by
  induction h with
  | nil => rfl
  | blank hc rest ih =>
    rw [dropBlanks, List.filter_cons_of_neg (by simp [hc])]
    exact ih hs
  | keep rest ih =>
    obtain ⟨hc, hs⟩ := List.forall_mem_cons.mp hs
    rw [dropBlanks, List.filter_cons_of_pos (by simp [hc])]
    exact congrArg _ (ih hs)

theorem isBlank_or_mem (h : Spaced s body) : ∀ c ∈ body, isBlank c = true ∨ c ∈ s := by
  induction h with
  | nil => simp
  | blank hc rest ih => simpa [hc] using ih
  | keep rest ih =>
    intro c hc
    rcases List.mem_cons.mp hc with rfl | hc
    · simp
    · rcases ih c hc with hblank | hmem
      · exact Or.inl hblank
      · exact Or.inr (List.mem_cons_of_mem _ hmem)

end Spaced

end Text

/-! ## Reading pairs of digits -/

namespace Capture.HexLine

open Text

theorem toList_loop (bytes : ByteArray) (i : Nat) (r : List UInt8) :
    ByteArray.toList.loop bytes i r = r.reverse ++ bytes.data.toList.drop i := by
  fun_induction ByteArray.toList.loop bytes i r with
  | case1 i r hi ih =>
    have hlength : i < bytes.data.toList.length := hi
    have hget : bytes.get! i = bytes.data.toList[i] := getElem!_pos bytes.data i hi
    rw [ih, List.drop_eq_getElem_cons hlength, List.reverse_cons, List.append_assoc, hget]
    rfl
  | case2 i r hi =>
    have hlength : bytes.data.toList.length ≤ i := Nat.not_lt.mp hi
    rw [List.drop_of_length_le hlength, List.append_nil]

theorem toList_eq (bytes : ByteArray) : bytes.toList = bytes.data.toList :=
  toList_loop bytes 0 []

theorem bytes_eq (line : List Char) : bytes line =
    if (utf8 (digits line)).length % 2 = 1 then .error .oddLength
    else pairs 0 (utf8 (digits line)) := by
  unfold bytes
  rw [toList_eq, toList_toUTF8, String.toList_ofList]

/-- **Pairs of digits are read as the bytes that they spell.** -/
theorem pairs_of_spells {s : List Char} {bs : List UInt8} (h : Spells s bs) (position : Nat) :
    pairs position (utf8 s) = .ok bs := by
  induction h generalizing position with
  | nil => rfl
  | cons hhigh hlow rest ih =>
    rename_i high low b s bs
    have hh := toNat_div_lt b
    have hl := toNat_mod_lt b
    rw [utf8_cons, utf8_cons, (hhigh.isHexDigit hh).utf8EncodeChar_eq,
      (hlow.isHexDigit hl).utf8EncodeChar_eq, List.singleton_append, List.singleton_append, pairs,
      hhigh.hexValue?_eq hh, hlow.hexValue?_eq hl]
    dsimp only
    have hb : UInt8.ofNat (b.toNat / 16) * 16 + UInt8.ofNat (b.toNat % 16) = b := by
      apply UInt8.toNat_inj.mp
      have := b.toNat_lt
      simp only [UInt8.toNat_add, UInt8.toNat_mul, UInt8.toNat_ofNat', UInt8.reduceToNat]
      omega
    rw [ih, hb]
    rfl

/-- The first of some bytes that is not the code of a digit. -/
structure IsFirstStray (codes : List UInt8) (position : Nat) (code : UInt8) : Prop where
  found : codes[position]? = some code
  stray : ¬ IsHexCode code
  first : ∀ i < position, ∀ b, codes[i]? = some b → IsHexCode b

section

variable {b code : UInt8} {rest : List UInt8} {i : Nat}

theorem isFirstStray_zero (hb : ¬ IsHexCode b) : IsFirstStray (b :: rest) 0 b := by
  refine ⟨rfl, hb, ?_⟩
  intro i hi
  omega

namespace IsFirstStray

theorem succ (hb : IsHexCode b) (h : IsFirstStray rest i code) :
    IsFirstStray (b :: rest) (i + 1) code := by
  refine ⟨h.found, h.stray, ?_⟩
  intro j hj c hc
  cases j with
  | zero =>
    obtain rfl : b = c := by simpa using hc
    exact hb
  | succ j => exact h.first j (by omega) c hc

theorem eq_head (h : IsFirstStray (b :: rest) i code) (hb : ¬ IsHexCode b) : i = 0 ∧ code = b := by
  have hi : i = 0 := by
    by_contra hne
    exact hb (h.first 0 (by omega) b rfl)
  subst hi
  exact ⟨rfl, by simpa using h.found.symm⟩

theorem exists_tail (h : IsFirstStray (b :: rest) i code) (hb : IsHexCode b) :
    ∃ k, i = k + 1 ∧ IsFirstStray rest k code := by
  cases i with
  | zero =>
    obtain rfl : b = code := by simpa using h.found
    exact absurd hb h.stray
  | succ k =>
    refine ⟨k, rfl, h.found, h.stray, ?_⟩
    intro j hj c hc
    exact h.first (j + 1) (by omega) c hc

end IsFirstStray

end

/-- **The first byte that is no digit is reported**, when the bytes stand in pairs. -/
theorem pairs_of_stray {codes : List UInt8} {i : Nat} {code : UInt8} (heven : codes.length % 2 = 0)
    (h : IsFirstStray codes i code) (position : Nat) :
    pairs position codes = .error (.invalidDigit code (position + i)) := by
  fun_induction pairs position codes generalizing i with
  | case1 => simpa using h.found
  | case2 => simp at heven
  | case3 position high low rest hhigh =>
    have hstray : ¬ IsHexCode high := by simp [isHexCode_iff, hhigh]
    obtain ⟨rfl, rfl⟩ := h.eq_head hstray
    rfl
  | case4 position high low rest value hlow hhigh =>
    have hdigit : IsHexCode high := by simp [isHexCode_iff, hhigh]
    have hstray : ¬ IsHexCode low := by simp [isHexCode_iff, hlow]
    obtain ⟨k, rfl, hk⟩ := h.exists_tail hdigit
    obtain ⟨rfl, rfl⟩ := hk.eq_head hstray
    rfl
  | case5 position high low rest value value' hlow hhigh ih =>
    obtain ⟨j, rfl, hj⟩ := h.exists_tail (by simp [isHexCode_iff, hhigh])
    obtain ⟨k, rfl, hk⟩ := hj.exists_tail (by simp [isHexCode_iff, hlow])
    have hrest : rest.length % 2 = 0 := by
      simp only [List.length_cons] at heven
      omega
    rw [ih hrest hk, Except.map, Nat.add_assoc, Nat.add_comm 2]

theorem isHexDigit_of_forall_utf8 {s : List Char} (h : ∀ b ∈ utf8 s, IsHexCode b) :
    ∀ c ∈ s, IsHexDigit c := by
  intro c hc
  apply isHexDigit_of_forall_isHexCode
  intro b hb
  exact h b (List.mem_flatMap.mpr ⟨c, hc, hb⟩)

theorem length_utf8 {s : List Char} (h : ∀ c ∈ s, IsHexDigit c) :
    (utf8 s).length = s.length := by
  induction s with
  | nil => rfl
  | cons c s ih =>
    obtain ⟨hc, hs⟩ := List.forall_mem_cons.mp h
    rw [utf8_cons, hc.utf8EncodeChar_eq, List.singleton_append, List.length_cons, ih hs,
      List.length_cons]

theorem exists_isFirstStray (codes : List UInt8) :
    (∀ b ∈ codes, IsHexCode b) ∨ ∃ i code, IsFirstStray codes i code := by
  induction codes with
  | nil => simp
  | cons b rest ih =>
    by_cases hb : IsHexCode b
    · rcases ih with hrest | ⟨i, code, hstray⟩
      · exact Or.inl (List.forall_mem_cons.mpr ⟨hb, hrest⟩)
      · exact Or.inr ⟨i + 1, code, hstray.succ hb⟩
    · exact Or.inr ⟨0, b, isFirstStray_zero hb⟩

/-! ## What a line holds -/

/-- What reading a text without blanks and comment gives. -/
inductive Reads (s : List Char) : Except HexError (List UInt8) → Prop where
  | bytes {bs : List UInt8} (hspells : Spells s bs) : Reads s (.ok bs)
  | oddLength (hodd : (utf8 s).length % 2 = 1) : Reads s (.error .oddLength)
  | invalidDigit {code : UInt8} {position : Nat} (heven : (utf8 s).length % 2 = 0)
      (hstray : IsFirstStray (utf8 s) position code) :
      Reads s (.error (.invalidDigit code position))

theorem exists_reads (s : List Char) : ∃ r, Reads s r := by
  by_cases hodd : (utf8 s).length % 2 = 1
  · exact ⟨_, .oddLength hodd⟩
  have heven : (utf8 s).length % 2 = 0 := by omega
  rcases exists_isFirstStray (utf8 s) with hcodes | ⟨i, code, hstray⟩
  · have hs := isHexDigit_of_forall_utf8 hcodes
    rw [length_utf8 hs] at heven
    obtain ⟨bs, hspells⟩ := exists_spells s hs heven
    exact ⟨_, .bytes hspells⟩
  · exact ⟨_, .invalidDigit heven hstray⟩

theorem bytes_of_reads {line : List Char} {r : Except HexError (List UInt8)}
    (h : Reads (digits line) r) : bytes line = r := by
  rw [bytes_eq]
  cases h with
  | bytes hspells =>
    have heven : ¬ (utf8 (digits line)).length % 2 = 1 := by
      rw [length_utf8 hspells.isHexDigit, hspells.length_eq]
      omega
    rw [if_neg heven, pairs_of_spells hspells]
  | oddLength hodd => rw [if_pos hodd]
  | invalidDigit heven hstray =>
    rw [if_neg (by omega), pairs_of_stray heven hstray, Nat.zero_add]

/-- **A line is read as its digits are.** -/
theorem bytes_eq_iff {line : List Char} {r : Except HexError (List UInt8)} :
    bytes line = r ↔ Reads (digits line) r := by
  constructor
  · rintro rfl
    obtain ⟨r, hr⟩ := exists_reads (digits line)
    rwa [bytes_of_reads hr]
  · exact bytes_of_reads

/-- A comment, or nothing. -/
def IsComment (comment : List Char) : Prop := comment = [] ∨ ∃ text, comment = commentMark :: text

theorem digits_append_comment {before comment : List Char} (hbefore : commentMark ∉ before)
    (hcomment : IsComment comment) : digits (before ++ comment) = dropBlanks before := by
  have hall : ∀ c ∈ before, (decide (c ≠ commentMark)) = true := by
    intro c hc
    simp only [decide_eq_true_eq]
    rintro rfl
    exact hbefore hc
  have htake : (before ++ comment).takeWhile (· ≠ commentMark) = before := by
    rw [List.takeWhile_append_of_pos hall]
    rcases hcomment with rfl | ⟨text, rfl⟩
    · simp
    · simp
  rw [digits, htake]

theorem bytes_of_spaced {s before comment : List Char} {bs : List UInt8} (hspells : Spells s bs)
    (hspaced : Spaced s before) (hcomment : IsComment comment) :
    bytes (before ++ comment) = .ok bs := by
  have hbefore : commentMark ∉ before := by
    intro hmem
    rcases hspaced.isBlank_or_mem _ hmem with hblank | hdigit
    · exact absurd hblank (by decide)
    · exact absurd (hspells.isHexDigit _ hdigit) (by decide)
  apply bytes_of_reads
  rw [digits_append_comment hbefore hcomment,
    hspaced.dropBlanks_eq fun c hc => (hspells.isHexDigit c hc).isBlank_eq]
  exact .bytes hspells

/-- Bytes are counted, not characters: the accented letter has two. -/
example : bytes ['4', 'é', '5'] = .error (.invalidDigit 0xc3 1) ∧
    bytes ['é', '5'] = .error .oddLength := by
  decide +kernel

end Capture.HexLine

end Multimeter
