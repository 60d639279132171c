/-!
# Qualifiers

The annunciators beside the number (AC, DC, hold, …), as a set in a 16-bit word. The low eight bits
stand for the qualifiers and the others for nothing. A set is written as the list of its names in
bit order.

* `Qualifier`: the eight qualifiers, in bit order.
* `QualifierSet`: sets of them; membership `has`, inclusion `includes`, union, difference.
* `QualifierSet.names`, `QualifierSet.ofNames`: writing a set and reading one.
-/

namespace Multimeter

/-- An annunciator that qualifies a reading. -/
inductive Qualifier where
  | ac
  | dc
  | autorange
  | hold
  | max
  | min
  | relative
  | diode
deriving DecidableEq, Repr

namespace Qualifier

def all : List Qualifier := [ac, dc, autorange, hold, max, min, relative, diode]

def name : Qualifier → String
  | ac => "ac"
  | dc => "dc"
  | autorange => "autorange"
  | hold => "hold"
  | max => "max"
  | min => "min"
  | relative => "relative"
  | diode => "diode"

/-- The position of the qualifier's bit. -/
def index : Qualifier → Nat
  | ac => 0
  | dc => 1
  | autorange => 2
  | hold => 3
  | max => 4
  | min => 5
  | relative => 6
  | diode => 7

def ofName? (s : String) : Option Qualifier := all.find? (·.name == s)

@[simp] theorem ofName?_name (q : Qualifier) : ofName? q.name = some q := by cases q <;> decide

theorem mem_all (q : Qualifier) : q ∈ all := by cases q <;> decide

end Qualifier

/-- A set of qualifiers, one bit each, in a word with room for more. -/
structure QualifierSet where
  bits : BitVec 16
deriving DecidableEq, Repr

/-- A name that no qualifier has. -/
structure UnknownQualifier where
  name : String
deriving DecidableEq, Repr

def UnknownQualifier.message (e : UnknownQualifier) : String :=
  "unknown measurement flag: " ++ e.name

namespace QualifierSet

def empty : QualifierSet := ⟨0⟩

def single (q : Qualifier) : QualifierSet := ⟨BitVec.twoPow 16 q.index⟩

instance : Union QualifierSet := ⟨fun s t => ⟨s.bits ||| t.bits⟩⟩

instance : SDiff QualifierSet := ⟨fun s t => ⟨s.bits &&& ~~~t.bits⟩⟩

def has (s : QualifierSet) (q : Qualifier) : Bool := s.bits.getLsbD q.index

def includes (s t : QualifierSet) : Bool := s.bits &&& t.bits == t.bits

def isEmpty (s : QualifierSet) : Bool := s.bits == 0

/-- The union with `t` when `condition` holds, else the set itself. -/
def unionIf (s t : QualifierSet) (condition : Bool) : QualifierSet :=
  if condition then s ∪ t else s

/-- The set with `q` added when `condition` holds. -/
def addIf (s : QualifierSet) (q : Qualifier) (condition : Bool) : QualifierSet :=
  s.unionIf (single q) condition

def toList (s : QualifierSet) : List Qualifier := Qualifier.all.filter s.has

def names (s : QualifierSet) : List String := s.toList.map Qualifier.name

/-- The set of the named qualifiers; the first name that no qualifier has is the failure. -/
def ofNames (names : List String) : Except UnknownQualifier QualifierSet :=
  names.foldlM (fun s n =>
    match Qualifier.ofName? n with
    | some q => .ok (s ∪ single q)
    | none => .error ⟨n⟩) empty

/-- The names in quotes, separated by commas, within brackets. -/
def listing (s : QualifierSet) : String :=
  "[" ++ ", ".intercalate (s.names.map fun n => "\"" ++ n ++ "\"") ++ "]"

@[simp] theorem has_empty (q : Qualifier) : empty.has q = false := by simp [has, empty]

@[simp] theorem has_union (s t : QualifierSet) (q : Qualifier) :
    (s ∪ t).has q = (s.has q || t.has q) :=
  BitVec.getLsbD_or

@[simp] theorem has_sdiff (s t : QualifierSet) (q : Qualifier) :
    (s \ t).has q = (s.has q && !t.has q) := by
  cases q <;> simp [has, SDiff.sdiff, Qualifier.index]

@[simp] theorem has_single (p q : Qualifier) : (single p).has q = decide (p = q) := by
  cases p <;> cases q <;> decide

@[simp] theorem has_unionIf (s t : QualifierSet) (condition : Bool) (q : Qualifier) :
    (s.unionIf t condition).has q = (s.has q || condition && t.has q) := by
  cases condition <;> simp [unionIf]

@[simp] theorem has_addIf (s : QualifierSet) (p : Qualifier) (condition : Bool) (q : Qualifier) :
    (s.addIf p condition).has q = (s.has q || condition && decide (p = q)) := by
  simp [addIf]

end QualifierSet

end Multimeter
