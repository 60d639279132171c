import Multimeter.Json.Value
import Multimeter.Text.HexByte

/-!
# Writing JSON

* `Json.compact`: without any blanks.
* `Json.pretty`: one item a line, indented by two blanks a level; empty arrays and objects on one
  line.
* `Json.stringText`: a string in quotes; only quotes, backslashes and control characters are
  escaped.
-/

namespace Multimeter.Json

/-- An escape with the four hexadecimal digits of a code. -/
def escapeCode (code : Nat) : List Char :=
  ['\\', 'u', Text.hexDigit (code / 4096 % 16), Text.hexDigit (code / 256 % 16),
    Text.hexDigit (code / 16 % 16), Text.hexDigit (code % 16)]

def unitText : TextUnit → List Char
  | .lone code => escapeCode code.toNat
  | .scalar c =>
    if c = '"' then ['\\', '"']
    else if c = '\\' then ['\\', '\\']
    else if c = '\n' then ['\\', 'n']
    else if c = '\r' then ['\\', 'r']
    else if c = '\t' then ['\\', 't']
    else if c.toNat = 8 then ['\\', 'b']
    else if c.toNat = 12 then ['\\', 'f']
    else if c.toNat < 32 then escapeCode c.toNat
    else [c]

def stringText (s : List TextUnit) : List Char := '"' :: s.flatMap unitText ++ ['"']

mutual

def compactText : Json → List Char
  | null => "null".toList
  | bool true => "true".toList
  | bool false => "false".toList
  | number n => n.text
  | string s => stringText s
  | array [] => ['[', ']']
  | array (item :: items) => '[' :: compactText item ++ compactItems items ++ [']']
  | object [] => ['\x7b', '\x7d']
  | object ((name, value) :: members) =>
    '\x7b' :: stringText name ++ ':' :: compactText value ++ compactMembers members ++ ['\x7d']

/-- Further items of an array, each behind a comma. -/
def compactItems : List Json → List Char
  | [] => []
  | item :: items => ',' :: compactText item ++ compactItems items

/-- Further members of an object, each behind a comma. -/
def compactMembers : List (List TextUnit × Json) → List Char
  | [] => []
  | (name, value) :: members =>
    ',' :: stringText name ++ ':' :: compactText value ++ compactMembers members

end

/-- A new line with the indentation of a level. -/
def newLine (level : Nat) : List Char := '\n' :: List.replicate (2 * level) ' '

mutual

/-- The characters of a value, one item a line, at a level of indentation. -/
def prettyText (level : Nat) : Json → List Char
  | null => "null".toList
  | bool true => "true".toList
  | bool false => "false".toList
  | number n => n.text
  | string s => stringText s
  | array [] => ['[', ']']
  | array (item :: items) =>
    '[' :: newLine (level + 1) ++ prettyText (level + 1) item ++ prettyItems (level + 1) items
      ++ newLine level ++ [']']
  | object [] => ['\x7b', '\x7d']
  | object ((name, value) :: members) =>
    '\x7b' :: newLine (level + 1) ++ stringText name ++ ':' :: ' ' :: prettyText (level + 1) value
      ++ prettyMembers (level + 1) members ++ newLine level ++ ['\x7d']

/-- Further items of an array, each behind a comma and on its own line. -/
def prettyItems (level : Nat) : List Json → List Char
  | [] => []
  | item :: items => ',' :: newLine level ++ prettyText level item ++ prettyItems level items

/-- Further members of an object, each behind a comma and on its own line. -/
def prettyMembers (level : Nat) : List (List TextUnit × Json) → List Char
  | [] => []
  | (name, value) :: members =>
    ',' :: newLine level ++ stringText name ++ ':' :: ' ' :: prettyText level value
      ++ prettyMembers level members

end

def compact (j : Json) : String := String.ofList j.compactText

def pretty (j : Json) : String := String.ofList (j.prettyText 0)

end Multimeter.Json
