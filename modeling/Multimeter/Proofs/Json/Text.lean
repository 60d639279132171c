import Multimeter.Proofs.Json.Numeral
import Multimeter.Proofs.Json.Strings

/-!
# Values read back

The two written forms differ in the spaces between the items and behind a colon. A value that is
laid out with any such spaces is read back, with what follows it.

* `Json.Written`: the values that can be written.
* `Json.Layout`: a written form; `Json.compactLayout`, `Json.prettyLayout`.
* **`Json.readValue_text`**: a value at the start of a text is read back.
* **`Json.read?_compact`**, **`Json.read?_pretty`**: a value alone in a text is read back.
-/

namespace Multimeter.Json

/-- The values whose numerals can be written and whose strings are texts. -/
inductive Written : Json → Prop
  | null : Written null
  | bool (b : Bool) : Written (bool b)
  | number {n : Numeral} (hn : n.Written) : Written (number n)
  | string (s : String) : Written (ofString s)
  | array {items : List Json} (h : ∀ item ∈ items, Written item) : Written (array items)
  | object {members : List (String × Json)} (h : ∀ m ∈ members, Written m.2) :
    Written (ofMembers members)

/-! ## Layouts -/

/-- A written form: spaces between items, for each level of indentation, and behind a colon. -/
structure Layout where
  gap : Nat → List Char
  space : List Char
  text : Nat → Json → List Char
  /-- Further items of an array. -/
  items : Nat → List Json → List Char
  /-- Further members of an object. -/
  members : Nat → List (List TextUnit × Json) → List Char
  isSpace_gap : ∀ level, ∀ c ∈ gap level, isSpace c = true
  isSpace_space : ∀ c ∈ space, isSpace c = true
  text_null : ∀ level, text level null = "null".toList
  text_bool : ∀ level b, text level (bool b) = (if b then "true" else "false").toList
  text_number : ∀ level n, text level (number n) = n.text
  text_string : ∀ level s, text level (string s) = stringText s
  text_array_nil : ∀ level, text level (array []) = ['[', ']']
  text_array_cons : ∀ level j js, text level (array (j :: js)) =
    '[' :: gap (level + 1) ++ (text (level + 1) j ++ (items (level + 1) js ++ (gap level ++ [']'])))
  text_object_nil : ∀ level, text level (object []) = ['\x7b', '\x7d']
  text_object_cons : ∀ level name j ms, text level (object ((name, j) :: ms)) =
    '\x7b' :: gap (level + 1) ++ (stringText name ++ (':' :: space ++ (text (level + 1) j
      ++ (members (level + 1) ms ++ (gap level ++ ['\x7d'])))))
  items_nil : ∀ level, items level [] = []
  items_cons : ∀ level j js, items level (j :: js) =
    ',' :: gap level ++ (text level j ++ items level js)
  members_nil : ∀ level, members level [] = []
  members_cons : ∀ level name j ms, members level ((name, j) :: ms) =
    ',' :: gap level ++ (stringText name ++ (':' :: space ++ (text level j ++ members level ms)))

def compactLayout : Layout where
  gap _ := []
  space := []
  text _ := compactText
  items _ := compactItems
  members _ := compactMembers
  isSpace_gap _ _ h := absurd h List.not_mem_nil
  isSpace_space _ h := absurd h List.not_mem_nil
  text_null _ := by rw [compactText]
  text_bool _ b := by cases b <;> rfl
  text_number _ _ := by rw [compactText]
  text_string _ _ := by rw [compactText]
  text_array_nil _ := by rw [compactText]
  text_array_cons _ _ _ := by simp [compactText]
  text_object_nil _ := by rw [compactText]
  text_object_cons _ _ _ _ := by simp [compactText]
  items_nil _ := by rw [compactItems]
  items_cons _ _ _ := by simp [compactItems]
  members_nil _ := by rw [compactMembers]
  members_cons _ _ _ _ := by simp [compactMembers]

def prettyLayout : Layout where
  gap := newLine
  space := [' ']
  text := prettyText
  items := prettyItems
  members := prettyMembers
  isSpace_gap level c h := by
    obtain rfl | h := List.mem_cons.mp h
    · rfl
    · rw [List.eq_of_mem_replicate h]
      rfl
  isSpace_space c h := by
    rw [List.mem_singleton.mp h]
    rfl
  text_null _ := by rw [prettyText]
  text_bool _ b := by cases b <;> rfl
  text_number _ _ := by rw [prettyText]
  text_string _ _ := by rw [prettyText]
  text_array_nil _ := by rw [prettyText]
  text_array_cons _ _ _ := by simp [prettyText]
  text_object_nil _ := by rw [prettyText]
  text_object_cons _ _ _ _ := by simp [prettyText]
  items_nil _ := by rw [prettyItems]
  items_cons _ _ _ := by simp [prettyItems]
  members_nil _ := by rw [prettyMembers]
  members_cons _ _ _ _ := by simp [prettyMembers]

/-! ## Spaces -/

theorem skipSpaces_append {s t : List Char} (hs : ∀ c ∈ s, isSpace c = true) :
    skipSpaces (s ++ t) = skipSpaces t :=
  List.dropWhile_append_of_pos hs

theorem skipSpaces_cons {c : Char} (hc : isSpace c = false) (t : List Char) :
    skipSpaces (c :: t) = c :: t :=
  List.dropWhile_cons_of_neg (Bool.eq_false_iff.mp hc)

theorem not_continues_of_isSpace {c : Char} (hc : isSpace c = true) :
    c.isDigit = false ∧ c ≠ '.' ∧ c ≠ 'e' ∧ c ≠ 'E' := by
  simp only [isSpace, Bool.or_eq_true, decide_eq_true_eq] at hc
  rcases hc with ((rfl | rfl) | rfl) | rfl <;> decide

theorem Stops.append {s t : List Char} (hs : ∀ c ∈ s, isSpace c = true) (ht : Stops t) :
    Stops (s ++ t) := by
  cases s with
  | nil => exact ht
  | cons c s =>
    intro d hd
    obtain rfl : c = d := Option.some.inj hd
    exact not_continues_of_isSpace (hs c List.mem_cons_self)

theorem stops_cons {c : Char} (hc : c = ',' ∨ c = ']' ∨ c = '\x7d') (t : List Char) :
    Stops (c :: t) := by
  intro d hd
  obtain rfl : c = d := Option.some.inj hd
  rcases hc with rfl | rfl | rfl <;> decide

/-! ## First characters -/

theorem exists_numeral_eq_cons {n : Numeral} (hn : n.Written) :
    ∃ c cs, n.text = c :: cs ∧ (c = '-' ∨ c.isDigit = true) := by
  obtain ⟨c, ds, hwhole⟩ := List.exists_cons_of_ne_nil hn.whole_ne_nil
  have hdigit : c.isDigit = true := hn.whole_digits c (hwhole ▸ List.mem_cons_self)
  rw [text_eq, hwhole]
  cases n.negative with
  | true => exact ⟨'-', _, rfl, .inl rfl⟩
  | false => exact ⟨c, _, rfl, .inr hdigit⟩

variable (l : Layout) {j : Json}

theorem exists_text_eq_cons (hj : j.Written) (level : Nat) :
    ∃ c cs, l.text level j = c :: cs ∧ isSpace c = false ∧ c ≠ ']' := by
  cases hj with
  | null => exact ⟨'n', _, l.text_null level, by decide⟩
  | bool b =>
    cases b with
    | false => exact ⟨'f', _, l.text_bool level false, by decide⟩
    | true => exact ⟨'t', _, l.text_bool level true, by decide⟩
  | number hn =>
    obtain ⟨c, cs, htext, hc⟩ := exists_numeral_eq_cons hn
    refine ⟨c, cs, (l.text_number level _).trans htext, Bool.eq_false_iff.mpr fun hspace => ?_, ?_⟩
    · obtain ⟨hdigit, _⟩ := not_continues_of_isSpace hspace
      obtain rfl | hc := hc
      · exact absurd hspace (by decide)
      · exact Bool.false_ne_true (hdigit.symm.trans hc)
    · rintro rfl
      exact absurd hc (by decide)
  | string s => exact ⟨'"', _, l.text_string level _, by decide⟩
  | @array items _ =>
    cases items with
    | nil => exact ⟨'[', _, l.text_array_nil level, by decide⟩
    | cons item items => exact ⟨'[', _, l.text_array_cons level item items, by decide⟩
  | @object members _ =>
    cases members with
    | nil => exact ⟨'\x7b', _, l.text_object_nil level, by decide⟩
    | cons m members => exact ⟨'\x7b', _, l.text_object_cons level _ _ _, by decide⟩

/-! ## Reading -/

theorem readValue_number {n : Numeral} (hn : n.Written) {rest : List Char} (hrest : Stops rest)
    (fuel : Nat) : readValue (fuel + 1) (n.text ++ rest) = some (.number n, rest) := by
  have hread := readNumeral_text hn hrest
  obtain ⟨c, cs, htext, hc⟩ := exists_numeral_eq_cons hn
  rw [htext, List.cons_append] at hread ⊢
  rw [readValue]
  · rw [hread]
    rfl
  all_goals
    intro r heq
    obtain rfl := (List.cons.inj heq).1
    exact absurd hc (by decide)

/-- A value is read back at the start of a text, whatever follows it. -/
def Reads (j : Json) : Prop :=
  ∀ level fuel rest, (l.text level j).length ≤ fuel → Stops rest →
    readValue fuel (l.text level j ++ rest) = some (j, rest)

variable {l}

section

variable {s t rest : List Char} {fuel : Nat}

theorem readItems_last (hj : readValue fuel s = some (j, t)) (ht : skipSpaces t = ']' :: rest) :
    readItems (fuel + 1) s = some ([j], rest) := by
  rw [readItems, hj]
  simp [ht]

theorem readItems_more {js : List Json} (hj : readValue fuel s = some (j, ',' :: t))
    (hjs : readItems fuel (skipSpaces t) = some (js, rest)) :
    readItems (fuel + 1) s = some (j :: js, rest) := by
  have hcomma : skipSpaces (',' :: t) = ',' :: t := skipSpaces_cons (by decide) t
  rw [readItems, hj]
  simp [hcomma, hjs]

theorem readValue_array {items : List Json} (hbracket : ∀ r, skipSpaces s ≠ ']' :: r)
    (hitems : readItems fuel (skipSpaces s) = some (items, rest)) :
    readValue (fuel + 1) ('[' :: s) = some (.array items, rest) := by
  rw [readValue]
  split
  case h_1 r heq => exact absurd heq (hbracket r)
  · rw [hitems]
    rfl

theorem readMembers_last {name : String} {u : List Char}
    (hj : readValue fuel (skipSpaces t) = some (j, u)) (hu : skipSpaces u = '\x7d' :: rest) :
    readMembers (fuel + 1) (stringText (unitsOf name) ++ ':' :: t) =
      some ([(unitsOf name, j)], rest) := by
  have hcolon : skipSpaces (':' :: t) = ':' :: t := skipSpaces_cons (by decide) t
  obtain ⟨s, htext, hname⟩ := readString_stringText name (':' :: t)
  rw [htext, readMembers, hname]
  simp [hcolon, hj, hu]

theorem readMembers_more {name : String} {u : List Char} {members : List (List TextUnit × Json)}
    (hj : readValue fuel (skipSpaces t) = some (j, ',' :: u))
    (hmembers : readMembers fuel (skipSpaces u) = some (members, rest)) :
    readMembers (fuel + 1) (stringText (unitsOf name) ++ ':' :: t) =
      some ((unitsOf name, j) :: members, rest) := by
  have hcolon : skipSpaces (':' :: t) = ':' :: t := skipSpaces_cons (by decide) t
  have hcomma : skipSpaces (',' :: u) = ',' :: u := skipSpaces_cons (by decide) u
  obtain ⟨s, htext, hname⟩ := readString_stringText name (':' :: t)
  rw [htext, readMembers, hname]
  simp [hcolon, hj, hcomma, hmembers]

theorem readValue_object {members : List (List TextUnit × Json)}
    (hbrace : ∀ r, skipSpaces s ≠ '\x7d' :: r)
    (hmembers : readMembers fuel (skipSpaces s) = some (members, rest)) :
    readValue (fuel + 1) ('\x7b' :: s) = some (.object members, rest) := by
  rw [readValue]
  split
  case h_1 r heq => exact absurd heq (hbrace r)
  · rw [hmembers]
    rfl

end

theorem skipSpaces_text (hj : j.Written) {gap : List Char} (hgap : ∀ c ∈ gap, isSpace c = true)
    (level : Nat) (rest : List Char) :
    skipSpaces (gap ++ (l.text level j ++ rest)) = l.text level j ++ rest := by
  obtain ⟨c, cs, htext, hspace, _⟩ := exists_text_eq_cons l hj level
  rw [skipSpaces_append hgap, htext, List.cons_append, skipSpaces_cons hspace]

/-- **The items of an array are read back**, if each of them is. -/
theorem readItems_items {js : List Json} (hjs : ∀ i ∈ j :: js, i.Written ∧ Reads l i)
    (level outer : Nat) {fuel : Nat} (hfuel : (l.text level j ++ l.items level js).length < fuel)
    (rest : List Char) :
    readItems fuel (l.text level j ++ (l.items level js ++ (l.gap outer ++ ']' :: rest))) =
      some (j :: js, rest) := by
  induction js generalizing j fuel with
  | nil =>
    obtain ⟨fuel, rfl⟩ : ∃ k, fuel = k + 1 := ⟨fuel - 1, by omega⟩
    rw [l.items_nil, List.append_nil] at hfuel
    have hstops := Stops.append (l.isSpace_gap outer) (stops_cons (.inr (.inl rfl)) rest)
    have hread := (hjs j List.mem_cons_self).2 level fuel _ (by omega) hstops
    rw [l.items_nil, List.nil_append]
    refine readItems_last hread ?_
    rw [skipSpaces_append (l.isSpace_gap outer), skipSpaces_cons (by decide)]
  | cons k js ih =>
    obtain ⟨fuel, rfl⟩ : ∃ k, fuel = k + 1 := ⟨fuel - 1, by omega⟩
    obtain ⟨hj, hk⟩ := List.forall_mem_cons.mp hjs
    rw [l.items_cons] at hfuel ⊢
    simp only [List.length_append, List.length_cons] at hfuel
    -- the fuel for this step is that of the comma
    have hshort : (l.text level k ++ l.items level js).length < fuel := by
      rw [List.length_append]
      omega
    simp only [List.cons_append, List.append_assoc]
    refine readItems_more (hj.2 level fuel _ (by omega) (stops_cons (.inl rfl) _)) ?_
    rw [skipSpaces_text (hk k List.mem_cons_self).1 (l.isSpace_gap level)]
    exact ih hk hshort

theorem skipSpaces_stringText {gap : List Char} (hgap : ∀ c ∈ gap, isSpace c = true)
    (s : List TextUnit) (rest : List Char) :
    skipSpaces (gap ++ (stringText s ++ rest)) = stringText s ++ rest := by
  rw [skipSpaces_append hgap]
  exact skipSpaces_cons (by decide) _

/-- The members of an object as they are laid out. -/
def membersOf (ms : List (String × Json)) : List (List TextUnit × Json) :=
  ms.map fun m => (unitsOf m.1, m.2)

/-- **The members of an object are read back**, if each value is. -/
theorem readMembers_members {name : String} {ms : List (String × Json)}
    (hms : ∀ m ∈ (name, j) :: ms, m.2.Written ∧ Reads l m.2) (level outer : Nat) {fuel : Nat}
    (hfuel : (l.text level j ++ l.members level (membersOf ms)).length < fuel) (rest : List Char) :
    readMembers fuel (stringText (unitsOf name) ++ ':' :: (l.space ++ (l.text level j
      ++ (l.members level (membersOf ms) ++ (l.gap outer ++ '\x7d' :: rest))))) =
      some (membersOf ((name, j) :: ms), rest) := by
  induction ms generalizing name j fuel with
  | nil =>
    obtain ⟨fuel, rfl⟩ : ∃ k, fuel = k + 1 := ⟨fuel - 1, by omega⟩
    obtain ⟨hj, hread⟩ := hms _ List.mem_cons_self
    rw [membersOf, List.map_nil, l.members_nil, List.append_nil] at hfuel
    rw [membersOf, List.map_nil, l.members_nil, List.nil_append]
    have hstops := Stops.append (l.isSpace_gap outer) (stops_cons (.inr (.inr rfl)) rest)
    have hvalue := hread level fuel _ (Nat.le_of_lt_succ hfuel) hstops
    refine readMembers_last (u := l.gap outer ++ '\x7d' :: rest) ?_ ?_
    · rwa [skipSpaces_text hj l.isSpace_space]
    · rw [skipSpaces_append (l.isSpace_gap outer), skipSpaces_cons (by decide)]
  | cons m ms ih =>
    obtain ⟨fuel, rfl⟩ : ∃ k, fuel = k + 1 := ⟨fuel - 1, by omega⟩
    obtain ⟨⟨hj, hread⟩, hmore⟩ := List.forall_mem_cons.mp hms
    rw [membersOf, List.map_cons, ← membersOf, l.members_cons] at hfuel ⊢
    simp only [List.length_append, List.length_cons] at hfuel
    have hshort : (l.text level m.2 ++ l.members level (membersOf ms)).length < fuel := by
      rw [List.length_append]
      omega
    have hvalue (t : List Char) := hread level fuel (',' :: t) (by dsimp only; omega)
      (stops_cons (.inl rfl) _)
    simp only [List.cons_append, List.append_assoc]
    refine readMembers_more
      ((congrArg _ (skipSpaces_text hj l.isSpace_space _ _)).trans (hvalue _)) ?_
    rw [skipSpaces_stringText (l.isSpace_gap level)]
    exact ih hmore hshort

/-- No value is laid out as an empty text, so there is fuel for a first step. -/
theorem reads_of_succ (hj : j.Written) (h : ∀ level fuel rest, (l.text level j).length ≤ fuel + 1 →
    Stops rest → readValue (fuel + 1) (l.text level j ++ rest) = some (j, rest)) : Reads l j := by
  intro level fuel rest hfuel hrest
  obtain ⟨c, cs, htext, _⟩ := exists_text_eq_cons l hj level
  obtain ⟨fuel, rfl⟩ : ∃ k, fuel = k + 1 := by
    rw [htext, List.length_cons] at hfuel
    exact ⟨fuel - 1, by omega⟩
  exact h level fuel rest hfuel hrest

theorem reads_array {items : List Json} (h : ∀ item ∈ items, item.Written ∧ Reads l item) :
    Reads l (array items) := by
  refine reads_of_succ (.array fun item hitem => (h item hitem).1)
    fun level fuel rest hfuel hrest => ?_
  cases items with
  | nil =>
    rw [l.text_array_nil]
    rfl
  | cons j js =>
    obtain ⟨hj, _⟩ := h j List.mem_cons_self
    rw [l.text_array_cons] at hfuel ⊢
    simp only [List.length_append, List.length_cons] at hfuel
    have hshort : (l.text (level + 1) j ++ l.items (level + 1) js).length < fuel := by
      rw [List.length_append]
      omega
    simp only [List.cons_append, List.append_assoc, List.nil_append]
    refine readValue_array (fun r heq => ?_) ?_
    · obtain ⟨c, cs, htext, _, hbracket⟩ := exists_text_eq_cons l hj (level + 1)
      rw [skipSpaces_text hj (l.isSpace_gap _), htext] at heq
      exact hbracket (List.cons.inj heq).1
    · rw [skipSpaces_text hj (l.isSpace_gap _)]
      exact readItems_items h (level + 1) level hshort rest

theorem reads_object {members : List (String × Json)}
    (h : ∀ m ∈ members, m.2.Written ∧ Reads l m.2) : Reads l (ofMembers members) := by
  refine reads_of_succ (.object fun m hm => (h m hm).1) fun level fuel rest hfuel hrest => ?_
  cases members with
  | nil =>
    rw [ofMembers, List.map_nil, l.text_object_nil]
    rfl
  | cons m ms =>
    rw [ofMembers, List.map_cons, l.text_object_cons] at hfuel ⊢
    simp only [List.length_append, List.length_cons] at hfuel
    have hshort :
        (l.text (level + 1) m.2 ++ l.members (level + 1) (membersOf ms)).length < fuel := by
      rw [List.length_append, membersOf]
      omega
    simp only [List.cons_append, List.append_assoc, List.nil_append]
    refine readValue_object (fun r heq => ?_) ?_
    · rw [skipSpaces_stringText (l.isSpace_gap _)] at heq
      exact absurd (List.cons.inj heq).1 (by decide)
    · rw [skipSpaces_stringText (l.isSpace_gap _)]
      exact readMembers_members h (level + 1) level hshort rest

/-- **A value that is laid out is read back**, whatever follows it. -/
theorem readValue_text (hj : j.Written) : Reads l j := by
  induction hj with
  | null =>
    refine reads_of_succ .null fun level fuel rest _ _ => ?_
    rw [l.text_null]
    rfl
  | bool b =>
    refine reads_of_succ (.bool b) fun level fuel rest _ _ => ?_
    rw [l.text_bool]
    cases b <;> rfl
  | number hn =>
    refine reads_of_succ (.number hn) fun level fuel rest _ hrest => ?_
    rw [l.text_number]
    exact readValue_number hn hrest fuel
  | string s =>
    refine reads_of_succ (.string s) fun level fuel rest _ _ => ?_
    obtain ⟨t, htext, hread⟩ := readString_stringText s rest
    rw [ofString, l.text_string, htext, readValue, hread]
    rfl
  | array h ih => exact reads_array fun item hitem => ⟨h item hitem, ih item hitem⟩
  | object h ih => exact reads_object fun m hm => ⟨h m hm, ih m hm⟩

/-! ## Whole texts -/

theorem read?_text (hj : j.Written) (l : Layout) :
    read? (String.ofList (l.text 0 j)) = some j := by
  have hread := readValue_text hj (l := l) 0 (2 * (l.text 0 j).length + 1) [] (by omega)
    fun c hc => by cases hc
  have hspaces : skipSpaces ([] ++ (l.text 0 j ++ [])) = l.text 0 j ++ [] :=
    skipSpaces_text hj (fun c hc => by cases hc) 0 []
  rw [List.append_nil] at hread
  rw [List.append_nil, List.nil_append] at hspaces
  rw [read?, String.toList_ofList]
  dsimp only
  rw [hspaces, hread]
  rfl

/-- **Compact texts are read back.** -/
theorem read?_compact (hj : j.Written) : read? j.compact = some j := read?_text hj compactLayout

/-- **Pretty texts are read back.** -/
theorem read?_pretty (hj : j.Written) : read? j.pretty = some j := read?_text hj prettyLayout

end Multimeter.Json
