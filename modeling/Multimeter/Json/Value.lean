import Multimeter.Json.Numeral

/-!
# JSON values

* `TextUnit`: a character of a JSON string, or half of a surrogate pair that an escape left alone.
* `Json`: the values; objects keep their members in order and may repeat a name.
* `Json.ofString`, `Json.text?`: strings and their texts.
-/

namespace Multimeter

/-- One unit of a JSON string. -/
inductive TextUnit where
  | scalar (c : Char)
  /-- An escaped surrogate without its partner; no text contains it. -/
  | lone (code : UInt16)
deriving DecidableEq, Repr

def TextUnit.char? : TextUnit → Option Char
  | scalar c => some c
  | lone _ => none

inductive Json where
  | null
  | bool (b : Bool)
  | number (n : Numeral)
  | string (s : List TextUnit)
  | array (items : List Json)
  | object (members : List (List TextUnit × Json))
deriving Repr

def unitsOf (s : String) : List TextUnit := s.toList.map .scalar

/-- The text that units stand for, if none of them stands alone. -/
def textOf? (units : List TextUnit) : Option String := (units.mapM TextUnit.char?).map String.ofList

namespace Json

def ofString (s : String) : Json := string (unitsOf s)

def ofNat (n : Nat) : Json := number (.ofNat n)

def ofInt (n : Int) : Json := number (.ofInt n)

def ofMembers (members : List (String × Json)) : Json :=
  object (members.map fun m => (unitsOf m.1, m.2))

def ofStrings (items : List String) : Json := array (items.map ofString)

end Json

@[simp] theorem textOf?_unitsOf (s : String) : textOf? (unitsOf s) = some s := by
  have h : ∀ l : List Char, (l.map TextUnit.scalar).mapM TextUnit.char? = some l := by
    intro l
    induction l with
    | nil => rfl
    | cons c l ih => simp [TextUnit.char?, ih]
  simp [textOf?, unitsOf, h]

end Multimeter
