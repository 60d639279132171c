import Mathlib.Data.List.Basic
import Multimeter.Measurement.Qualifier

/-!
# Qualifiers by name

A set of qualifiers is written as the list of its names, and a list of names is read as the set of
what it names. The word of a set also has bits that no name stands for. A set with such a bit would
lose it on the way, but no operation ever sets one.

* `Qualifier.IsName`, `Qualifier.ofName?_eq_some_iff`: the names.
* `QualifierSet.ofNames_eq_ok_iff`, `QualifierSet.ofNames_eq_error_iff`: what a list is read as.
* `QualifierSet.Named`: no bit is set but those of qualifiers; `QualifierSet.ext_has`.
* `QualifierSet.ofNames_names`: the list of names of such a set.
* `QualifierSet.Reachable`: what the operations make of the empty set;
  **`QualifierSet.reachable_iff_named`**.
* **`QualifierSet.names_encode`**: lists of names encode the sets.
-/

namespace Multimeter

namespace Qualifier

/-- Some qualifier has the name. -/
def IsName (n : String) : Prop := ∃ q : Qualifier, q.name = n

theorem isName_name (q : Qualifier) : IsName q.name := ⟨q, rfl⟩

theorem name_injective : Function.Injective name := fun p q h => by
  have hread : ofName? p.name = ofName? q.name := congrArg ofName? h
  rw [ofName?_name, ofName?_name] at hread
  exact Option.some.inj hread

theorem ofName?_eq_some_iff {n : String} {q : Qualifier} : ofName? n = some q ↔ q.name = n := by
  constructor
  · intro h
    simpa using List.find?_some h
  · rintro rfl
    exact ofName?_name q

theorem ofName?_eq_none {n : String} (h : ¬ IsName n) : ofName? n = none :=
  Option.eq_none_iff_forall_ne_some.mpr fun q hq => h ⟨q, ofName?_eq_some_iff.mp hq⟩

theorem exists_eq_map_name {names : List String} (h : ∀ n ∈ names, IsName n) :
    ∃ qs : List Qualifier, names = qs.map name := by
  induction names with
  | nil => exact ⟨[], rfl⟩
  | cons n names ih =>
    obtain ⟨⟨q, rfl⟩, hnames⟩ := List.forall_mem_cons.mp h
    obtain ⟨qs, rfl⟩ := ih hnames
    exact ⟨q :: qs, rfl⟩

theorem forall_isName_map (qs : List Qualifier) : ∀ n ∈ qs.map name, IsName n := by
  intro n hn
  obtain ⟨q, _, rfl⟩ := List.mem_map.mp hn
  exact isName_name q

theorem exists_first_unknown {names : List String} (h : ¬ ∀ n ∈ names, IsName n) :
    ∃ (qs : List Qualifier) (n : String) (after : List String),
      names = qs.map name ++ n :: after ∧ ¬ IsName n := by
  induction names with
  | nil => exact absurd nofun h
  | cons n names ih =>
    by_cases hn : IsName n
    · obtain ⟨q, rfl⟩ := hn
      have hrest : ¬ ∀ n ∈ names, IsName n := fun hnames =>
        h (List.forall_mem_cons.mpr ⟨isName_name q, hnames⟩)
      obtain ⟨qs, n, after, rfl, hn⟩ := ih hrest
      exact ⟨q :: qs, n, after, rfl, hn⟩
    · exact ⟨[], n, names, rfl, hn⟩

theorem pairwise_all : all.Pairwise fun p q => p.index < q.index := by decide

end Qualifier

namespace QualifierSet

variable {s t : QualifierSet} {names : List String}

/-! ## Reading a list -/

/-- The set with the named qualifier. -/
def addNamed (s : QualifierSet) (name : String) : Except UnknownQualifier QualifierSet :=
  (Qualifier.ofName? name).elim (.error ⟨name⟩) fun q => .ok (s ∪ single q)

theorem ofNames_eq (names : List String) : ofNames names = names.foldlM addNamed empty := by
  unfold ofNames
  congr 1
  funext s name
  unfold addNamed
  cases Qualifier.ofName? name <;> rfl

/-- The set with some more qualifiers. -/
def addAll (s : QualifierSet) (qs : List Qualifier) : QualifierSet :=
  qs.foldl (fun s q => s ∪ single q) s

theorem foldlM_addNamed (qs : List Qualifier) (s : QualifierSet) :
    (qs.map Qualifier.name).foldlM addNamed s = .ok (s.addAll qs) := by
  induction qs generalizing s with
  | nil => rfl
  | cons q qs ih =>
    rw [List.map_cons, List.foldlM_cons, addNamed, Qualifier.ofName?_name]
    exact ih _

theorem ofNames_map_name (qs : List Qualifier) :
    ofNames (qs.map Qualifier.name) = .ok (empty.addAll qs) := by
  rw [ofNames_eq, foldlM_addNamed]

theorem ofNames_unknown (qs : List Qualifier) {n : String} (hn : ¬ Qualifier.IsName n)
    (after : List String) :
    ofNames (qs.map Qualifier.name ++ n :: after) = .error ⟨n⟩ := by
  rw [ofNames_eq, List.foldlM_append, foldlM_addNamed]
  change (n :: after).foldlM addNamed (empty.addAll qs) = _
  rw [List.foldlM_cons, addNamed, Qualifier.ofName?_eq_none hn]
  rfl

theorem ofNames_eq_ok_iff : ofNames names = .ok s ↔
    ∃ qs : List Qualifier, names = qs.map Qualifier.name ∧ s = empty.addAll qs := by
  constructor
  · intro h
    by_cases hnames : ∀ n ∈ names, Qualifier.IsName n
    · obtain ⟨qs, rfl⟩ := Qualifier.exists_eq_map_name hnames
      exact ⟨qs, rfl, (Except.ok.inj ((ofNames_map_name qs).symm.trans h)).symm⟩
    · obtain ⟨qs, n, after, rfl, hn⟩ := Qualifier.exists_first_unknown hnames
      exact nomatch (ofNames_unknown qs hn after).symm.trans h
  · rintro ⟨qs, rfl, rfl⟩
    exact ofNames_map_name qs

theorem ofNames_eq_error_iff {e : UnknownQualifier} : ofNames names = .error e ↔
    ∃ before after, names = before ++ e.name :: after ∧
      (∀ n ∈ before, Qualifier.IsName n) ∧ ¬ Qualifier.IsName e.name := by
  constructor
  · intro h
    by_cases hnames : ∀ n ∈ names, Qualifier.IsName n
    · obtain ⟨qs, rfl⟩ := Qualifier.exists_eq_map_name hnames
      exact nomatch (ofNames_map_name qs).symm.trans h
    · obtain ⟨qs, n, after, rfl, hn⟩ := Qualifier.exists_first_unknown hnames
      obtain rfl : (⟨n⟩ : UnknownQualifier) = e :=
        Except.error.inj ((ofNames_unknown qs hn after).symm.trans h)
      exact ⟨_, after, rfl, Qualifier.forall_isName_map qs, hn⟩
  · rintro ⟨before, after, rfl, hbefore, hn⟩
    obtain ⟨qs, rfl⟩ := Qualifier.exists_eq_map_name hbefore
    exact ofNames_unknown qs hn after

/-! ## The members -/

theorem includes_single (s : QualifierSet) (q : Qualifier) : s.includes (single q) = s.has q := by
  rw [includes, single, BitVec.and_twoPow, has]
  cases s.bits.getLsbD q.index with
  | true => simp
  | false => cases q <;> rfl

theorem has_addAll (qs : List Qualifier) (s : QualifierSet) (q : Qualifier) :
    (s.addAll qs).has q = true ↔ s.has q = true ∨ q ∈ qs := by
  induction qs generalizing s with
  | nil => simp [addAll]
  | cons p qs ih =>
    rw [addAll, List.foldl_cons, ← addAll, ih, has_union, has_single, List.mem_cons,
      Bool.or_eq_true, decide_eq_true_eq, or_assoc, eq_comm (a := p)]

theorem has_of_ofNames (h : ofNames names = .ok s) (q : Qualifier) :
    s.has q = true ↔ q.name ∈ names := by
  obtain ⟨qs, rfl, rfl⟩ := ofNames_eq_ok_iff.mp h
  rw [has_addAll, has_empty, List.mem_map_of_injective Qualifier.name_injective]
  simp

theorem mem_toList {q : Qualifier} : q ∈ s.toList ↔ s.has q = true := by
  simp [toList, Qualifier.mem_all]

theorem pairwise_toList (s : QualifierSet) :
    s.toList.Pairwise fun p q => p.index < q.index :=
  Qualifier.pairwise_all.sublist List.filter_sublist

/-! ## No other bits -/

/-- No bit of the word is set but those of qualifiers. -/
def Named (s : QualifierSet) : Prop :=
  ∀ i, s.bits.getLsbD i = true → ∃ q : Qualifier, q.index = i

theorem named_empty : empty.Named := fun i h => by simp [empty] at h

theorem named_single (q : Qualifier) : (single q).Named := fun i h => by
  rw [single, BitVec.getLsbD_twoPow, Bool.and_eq_true, decide_eq_true_eq, decide_eq_true_eq] at h
  exact ⟨q, h.2⟩

theorem Named.union (hs : s.Named) (ht : t.Named) : (s ∪ t).Named := fun i h => by
  have h : (s.bits ||| t.bits).getLsbD i = true := h
  rw [BitVec.getLsbD_or, Bool.or_eq_true] at h
  exact h.elim (hs i) (ht i)

theorem Named.sdiff (hs : s.Named) (t : QualifierSet) : (s \ t).Named := fun i h => by
  have h : (s.bits &&& ~~~t.bits).getLsbD i = true := h
  rw [BitVec.getLsbD_and, Bool.and_eq_true] at h
  exact hs i h.1

theorem Named.unionIf (hs : s.Named) (ht : t.Named) (condition : Bool) :
    (s.unionIf t condition).Named := by
  cases condition with
  | true => exact hs.union ht
  | false => exact hs

theorem Named.addIf (hs : s.Named) (q : Qualifier) (condition : Bool) :
    (s.addIf q condition).Named :=
  hs.unionIf (named_single q) condition

theorem Named.addAll (hs : s.Named) (qs : List Qualifier) : (s.addAll qs).Named := by
  induction qs generalizing s with
  | nil => exact hs
  | cons q qs ih => exact ih (hs.union (named_single q))

/-- **Without other bits, a set is known by its members.** -/
theorem ext_has (hs : s.Named) (ht : t.Named) (h : ∀ q, s.has q = t.has q) : s = t := by
  obtain ⟨s⟩ := s
  obtain ⟨t⟩ := t
  congr 1
  refine BitVec.eq_of_getLsbD_eq fun i _ => ?_
  rw [Bool.eq_iff_iff]
  constructor
  · intro hbit
    obtain ⟨q, rfl⟩ := hs i hbit
    exact (h q).symm.trans hbit
  · intro hbit
    obtain ⟨q, rfl⟩ := ht i hbit
    exact (h q).trans hbit

/-- **A list of names gives back the set**, if no other bit is set. -/
theorem ofNames_names (hs : s.Named) : ofNames s.names = .ok s := by
  rw [names, ofNames_map_name]
  refine congrArg _ (ext_has (named_empty.addAll _) hs fun q => ?_)
  rw [Bool.eq_iff_iff, has_addAll, has_empty, mem_toList]
  simp

-- a bit that stands for nothing is lost
example : ofNames (QualifierSet.names ⟨0x0103⟩) = .ok ⟨0x0003⟩ := by decide

/-! ## What the operations make -/

/-- The sets that the operations make of the empty set and the single qualifiers: union, which is
also insertion, difference, which is removal, union on a condition, and reading a list of names. -/
inductive Reachable : QualifierSet → Prop
  | empty : Reachable empty
  | single (q : Qualifier) : Reachable (single q)
  | union {s t : QualifierSet} : Reachable s → Reachable t → Reachable (s ∪ t)
  | sdiff {s t : QualifierSet} : Reachable s → Reachable t → Reachable (s \ t)
  | unionIf {s t : QualifierSet} (condition : Bool) : Reachable s → Reachable t →
      Reachable (s.unionIf t condition)
  | ofNames {names : List String} {s : QualifierSet} : ofNames names = .ok s → Reachable s

/-- **No operation sets a bit without a name.** -/
theorem Reachable.named (h : Reachable s) : s.Named := by
  induction h with
  | empty => exact named_empty
  | single q => exact named_single q
  | union _ _ hs ht => exact hs.union ht
  | sdiff _ _ hs _ => exact hs.sdiff _
  | unionIf condition _ _ hs ht => exact hs.unionIf ht condition
  | ofNames h =>
    obtain ⟨qs, _, rfl⟩ := ofNames_eq_ok_iff.mp h
    exact named_empty.addAll qs

/-- **The operations make all sets without other bits, and only these.** -/
theorem reachable_iff_named : Reachable s ↔ s.Named :=
  ⟨Reachable.named, fun h => .ofNames (ofNames_names h)⟩

/-- **Lists of names encode the sets.** A list is read if and only if each item is the name of a
qualifier, and the first item that is not is the failure. What is read holds the named qualifiers
and nothing else, in whatever order and how often they are named, and is written as their names
in bit order, each once. And every set that the operations make is read back from its names. -/
theorem names_encode :
    (∀ names, ((∃ s, ofNames names = .ok s) ↔ ∀ n ∈ names, Qualifier.IsName n) ∧
      ∀ e, ofNames names = .error e ↔
        ∃ before after, names = before ++ e.name :: after ∧
          (∀ n ∈ before, Qualifier.IsName n) ∧ ¬ Qualifier.IsName e.name) ∧
    (∀ names s, ofNames names = .ok s →
      (∀ q, s.includes (single q) = true ↔ q.name ∈ names) ∧ s.Named ∧
      ∃ qs : List Qualifier, s.names = qs.map Qualifier.name ∧
        (∀ q, q ∈ qs ↔ q.name ∈ names) ∧ qs.Pairwise fun p q => p.index < q.index) ∧
    ∀ s, Reachable s → ofNames s.names = .ok s := by
  refine ⟨fun names => ⟨?_, fun e => ofNames_eq_error_iff⟩, fun names s h => ?_, fun s h =>
    ofNames_names h.named⟩
  · constructor
    · rintro ⟨s, h⟩
      obtain ⟨qs, rfl, _⟩ := ofNames_eq_ok_iff.mp h
      exact Qualifier.forall_isName_map qs
    · intro h
      obtain ⟨qs, rfl⟩ := Qualifier.exists_eq_map_name h
      exact ⟨_, ofNames_map_name qs⟩
  · have hhas := has_of_ofNames h
    exact ⟨fun q => by rw [includes_single, hhas], (Reachable.ofNames h).named, s.toList, rfl,
      fun q => mem_toList.trans (hhas q), s.pairwise_toList⟩

/-- A list with a repetition against the bit order, one with two unknown names, and a set that is
made by all operations. -/
theorem names_encode_three :
    let read := single .hold ∪ single .ac
    let made := ((empty ∪ read ∪ single .diode) \ single .ac).unionIf (single .dc) true
    (ofNames ["hold", "ac", "hold"] = .ok read ∧ read.names = ["ac", "hold"] ∧
      ∀ q, read.includes (single q) = true ↔ q.name ∈ ["hold", "ac", "hold"]) ∧
    ofNames ["dc", "peak", "Hold", "ac"] = .error ⟨"peak"⟩ ∧
    (Reachable made ∧ made.names = ["dc", "hold", "diode"] ∧ ofNames made.names = .ok made) := by
  intro read made
  have hread : ofNames ["hold", "ac", "hold"] = .ok read := by decide
  have hmade : Reachable made :=
    .unionIf true (.sdiff (.union (.union .empty (.ofNames hread)) (.single .diode)) (.single .ac))
      (.single .dc)
  have hpeak : ¬ Qualifier.IsName "peak" := by
    rintro ⟨q, hq⟩
    cases q <;> exact absurd hq (by decide)
  refine ⟨⟨hread, by decide, (names_encode.2.1 _ _ hread).1⟩, ?_, hmade, by decide,
    names_encode.2.2 _ hmade⟩
  exact ((names_encode.1 _).2 ⟨"peak"⟩).mpr
    ⟨["dc"], ["Hold", "ac"], rfl, List.forall_mem_singleton.mpr (Qualifier.isName_name .dc), hpeak⟩

end QualifierSet

end Multimeter
