
/-!
# Wildcard patterns

A pattern is a path in which names may hold wildcards: `?` for any character, `*` for any sequence,
brackets for a set of characters, with an exclamation mark for all others. Two stars alone as a name
stand for any number of directories.

* `Wildcard.parse`: the tokens of a text, or why it is no pattern.
* `Wildcard.accepts`: whether tokens match a name.
* `Wildcard.Pattern.ofText`: a pattern, name by name.
-/

namespace Multimeter.Wildcard

structure CharRange where
  low : Char
  high : Char
deriving DecidableEq, Repr

def CharRange.holds (r : CharRange) (c : Char) : Bool := r.low ≤ c && c ≤ r.high

inductive Token where
  | char (c : Char)
  | anyChar
  | within (ranges : List CharRange)
  | outside (ranges : List CharRange)
  | anySequence
  /-- Any number of directories. -/
  | anyDirectories
deriving DecidableEq, Repr

inductive PatternError where
  /-- A bracket is not closed, or holds nothing. -/
  | badRange
  /-- More than two stars in a row. -/
  | tooManyStars
  /-- Two stars share their name with something else. -/
  | starsWithinName
deriving DecidableEq, Repr

def PatternError.message : PatternError → String
  | badRange => "invalid range pattern"
  | tooManyStars => "wildcards are either regular `*` or recursive `**`"
  | starsWithinName => "recursive wildcards must form a single path component"

/-! ## Reading patterns -/

/-- The ranges that the text between brackets stands for. -/
def ranges : List Char → List CharRange
  | low :: '-' :: high :: rest => ⟨low, high⟩ :: ranges rest
  | c :: rest => ⟨c, c⟩ :: ranges rest
  | [] => []

def splitBracket : List Char → Option (List Char × List Char)
  | [] => none
  | c :: rest =>
    if c = ']' then some ([], rest)
    else (splitBracket rest).map fun (inside, behind) => (c :: inside, behind)

/-- Reads a set of characters behind its opening bracket. Its first character may be a closing
bracket. -/
def readSet : List Char → Option (Token × List Char)
  | '!' :: c :: rest =>
    (splitBracket rest).map fun (inside, behind) => (.outside (ranges (c :: inside)), behind)
  | c :: rest =>
    (splitBracket rest).map fun (inside, behind) => (.within (ranges (c :: inside)), behind)
  | [] => none

theorem splitBracket_length {s inside behind : List Char}
    (h : splitBracket s = some (inside, behind)) : behind.length < s.length := by
  induction s generalizing inside behind with
  | nil => simp [splitBracket] at h
  | cons c rest ih =>
    simp only [splitBracket] at h
    split at h
    · cases h
      simp
    · obtain ⟨⟨i, b⟩, hi, he⟩ := Option.map_eq_some_iff.1 h
      cases he
      have := ih hi
      simp only [List.length_cons]
      omega

theorem readSet_length {s behind : List Char} {t : Token} (h : readSet s = some (t, behind)) :
    behind.length < s.length := by
  unfold readSet at h
  split at h
  · obtain ⟨⟨i, b⟩, hi, he⟩ := Option.map_eq_some_iff.1 h
    cases he
    have := splitBracket_length hi
    simp only [List.length_cons]
    omega
  · obtain ⟨⟨i, b⟩, hi, he⟩ := Option.map_eq_some_iff.1 h
    cases he
    have := splitBracket_length hi
    simp only [List.length_cons]
    omega
  · cases h

/-- The tokens of a text. `atName` says whether a name begins here: at the beginning and behind a
slash. -/
def parse (atName : Bool) (s : List Char) : Except PatternError (List Token) :=
  match s with
  | [] => .ok []
  | '*' :: '*' :: '*' :: _ => .error .tooManyStars
  | '*' :: '*' :: '/' :: rest =>
    if atName then (parse true rest).map (.anyDirectories :: ·) else .error .starsWithinName
  | ['*', '*'] => if atName then .ok [.anyDirectories] else .error .starsWithinName
  | '*' :: '*' :: _ => .error .starsWithinName
  | '*' :: rest => (parse false rest).map (.anySequence :: ·)
  | '?' :: rest => (parse false rest).map (.anyChar :: ·)
  | '[' :: rest =>
    match _found : readSet rest with
    | none => .error .badRange
    | some (token, behind) => (parse false behind).map (token :: ·)
  | c :: rest => (parse (c = '/') rest).map (.char c :: ·)
termination_by s.length
decreasing_by
  all_goals simp only [List.length_cons]
  any_goals omega
  have := readSet_length _found
  omega

/-! ## Matching names -/

/-- Whether a token that stands for one character accepts it. -/
def Token.acceptsChar : Token → Char → Bool
  | char a, c => a = c
  | anyChar, _ => true
  | within ranges, c => ranges.any (·.holds c)
  | outside ranges, c => !ranges.any (·.holds c)
  | _, _ => false

def Token.isSequence : Token → Bool
  | anySequence | anyDirectories => true
  | _ => false

/-- Whether tokens match a name, for each of its ends: the whole name first, the empty end last. The
answers for a token follow from those for the tokens behind it. -/
def acceptsEnds (name : List Char) : List Token → List Bool
  | [] => name.map (fun _ => false) ++ [true]
  | t :: ts =>
    let later := acceptsEnds name ts
    if t.isSequence then later.foldr (fun here ends => (here || ends.headD false) :: ends) []
    else List.zipWith (fun c behind => t.acceptsChar c && behind) name later.tail ++ [false]

/-- Whether tokens match the whole of a name. -/
def accepts (tokens : List Token) (name : List Char) : Bool :=
  (acceptsEnds name tokens).headD false

theorem acceptsEnds_nil (tokens : List Token) : ∃ b, acceptsEnds [] tokens = [b] := by
  induction tokens with
  | nil => exact ⟨true, rfl⟩
  | cons t ts ih =>
    obtain ⟨b, hb⟩ := ih
    by_cases ht : t.isSequence <;> simp [acceptsEnds, ht, hb]

theorem acceptsEnds_cons (c : Char) (cs : List Char) (tokens : List Token) :
    ∃ b, acceptsEnds (c :: cs) tokens = b :: acceptsEnds cs tokens := by
  induction tokens generalizing c cs with
  | nil => exact ⟨false, rfl⟩
  | cons t ts ih =>
    obtain ⟨b, hb⟩ := ih c cs
    by_cases ht : t.isSequence
    · simp [acceptsEnds, ht, hb]
    · cases cs with
      | nil =>
        obtain ⟨e, he⟩ := acceptsEnds_nil ts
        simp [acceptsEnds, ht, hb, he]
      | cons d ds =>
        obtain ⟨e, he⟩ := ih d ds
        simp [acceptsEnds, ht, hb, he]

@[simp] theorem accepts_nil (name : List Char) : accepts [] name = name.isEmpty := by
  cases name <;> rfl

/-- A sequence matches nothing, or one character and then what it matches behind it. -/
theorem accepts_sequence {t : Token} (h : t.isSequence = true) (ts : List Token) (c : Char)
    (cs : List Char) :
    accepts (t :: ts) (c :: cs) = (accepts ts (c :: cs) || accepts (t :: ts) cs) := by
  obtain ⟨b, hb⟩ := acceptsEnds_cons c cs ts
  simp [accepts, acceptsEnds, h, hb]

/-- Any other token matches one character. -/
theorem accepts_char {t : Token} (h : t.isSequence = false) (ts : List Token) (c : Char)
    (cs : List Char) :
    accepts (t :: ts) (c :: cs) = (t.acceptsChar c && accepts ts cs) := by
  obtain ⟨b, hb⟩ := acceptsEnds_cons c cs ts
  cases cs with
  | nil =>
    obtain ⟨e, he⟩ := acceptsEnds_nil ts
    simp [accepts, acceptsEnds, h, hb, he]
  | cons d ds =>
    obtain ⟨e, he⟩ := acceptsEnds_cons d ds ts
    simp [accepts, acceptsEnds, h, hb, he]

/-- The character that a token spells. -/
def Token.char? : Token → Option Char
  | char c => some c
  | _ => none

/-- The name that tokens without wildcards spell. -/
def literal? (tokens : List Token) : Option String :=
  (tokens.mapM Token.char?).map String.ofList

/-! ## Whole patterns -/

/-- A pattern, name by name. -/
structure Pattern where
  isAbsolute : Bool
  names : List (List Token)
  directoriesOnly : Bool
deriving DecidableEq, Repr

/-- The names of a text, without the empty one behind a slash at the end. -/
def namesOf (s : List Char) : List (List Char) :=
  let pieces := s.splitOn '/'
  if pieces.getLast? = some [] then pieces.dropLast else pieces

/-- The pattern that a text stands for. The text as a whole has to be a pattern, and then each of its
names: brackets may not hold a slash. -/
def Pattern.ofText (text : String) : Except PatternError Pattern := do
  let s := text.toList
  let isAbsolute := s.head? = some '/'
  let _ ← parse true s
  let names ← (namesOf (if isAbsolute then s.drop 1 else s)).mapM (parse true)
  return { isAbsolute, names, directoriesOnly := s.getLast? = some '/' }

def isPattern (text : String) : Bool := text.toList.any fun c => c = '*' || c = '?' || c = '['

end Multimeter.Wildcard
