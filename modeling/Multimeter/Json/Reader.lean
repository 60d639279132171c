import Multimeter.Json.Value
import Multimeter.Text.HexByte

/-!
# Reading JSON

* `Json.readNumeral`, `Json.readString`: a numeral and a string at the start of a text.
* `Json.readValue`: a value at the start of a text, and what follows it. Each step into a value or
  to the next item takes one unit of fuel.
* `Json.read?`: the value of a whole text; twice its length is always enough fuel.
-/

namespace Multimeter.Json

/-- The characters that may stand between tokens. -/
def isSpace (c : Char) : Bool := c = ' ' || c = '\n' || c = '\t' || c = '\r'

def skipSpaces (s : List Char) : List Char := s.dropWhile isSpace

/-! ## Numerals -/

def readDigits (s : List Char) : Option (List Char × List Char) :=
  let digits := s.takeWhile Char.isDigit
  if digits = [] then none else some (digits, s.dropWhile Char.isDigit)

/-- Reads the digits before the point: a lone zero, or digits that do not begin with zero. -/
def readWhole (s : List Char) : Option (List Char × List Char) :=
  match readDigits s with
  | some ('0' :: _ :: _, _) => none
  | found => found

/-- Reads a point and the digits behind it, if there is a point. -/
def readFraction : List Char → Option (List Char × List Char)
  | '.' :: r => readDigits r
  | s => some ([], s)

/-- Reads an exponent with or without a sign. -/
def readSignedExponent : List Char → Option (Option (Bool × List Char) × List Char)
  | '-' :: r => (readDigits r).map fun (ds, r) => (some (true, ds), r)
  | '+' :: r => (readDigits r).map fun (ds, r) => (some (false, ds), r)
  | s => (readDigits s).map fun (ds, r) => (some (false, ds), r)

/-- Reads an exponent, if there is one. -/
def readExponent : List Char → Option (Option (Bool × List Char) × List Char)
  | 'e' :: r => readSignedExponent r
  | 'E' :: r => readSignedExponent r
  | s => some (none, s)

def readMagnitude (negative : Bool) (s : List Char) : Option (Numeral × List Char) := do
  let (whole, s) ← readWhole s
  let (fraction, s) ← readFraction s
  let (exponent, s) ← readExponent s
  return (⟨negative, whole, fraction, exponent⟩, s)

def readNumeral : List Char → Option (Numeral × List Char)
  | '-' :: r => readMagnitude true r
  | s => readMagnitude false s

/-! ## Strings -/

def hexDigitValue? (c : Char) : Option Nat :=
  if c.toNat < 128 then (Text.hexValue? (UInt8.ofNat c.toNat)).map UInt8.toNat else none

/-- The code that four hexadecimal digits stand for. -/
def hexCode? (a b c d : Char) : Option Nat := do
  let a ← hexDigitValue? a
  let b ← hexDigitValue? b
  let c ← hexDigitValue? c
  let d ← hexDigitValue? d
  return ((a * 16 + b) * 16 + c) * 16 + d

/-- Whether a code is half of a surrogate pair. -/
def isSurrogate (code : Nat) : Bool := 0xd800 ≤ code && code < 0xe000

/-- The unit with a given code: a character, or half of a surrogate pair. -/
def unitOfCode (code : Nat) : TextUnit :=
  if isSurrogate code then .lone (UInt16.ofNat code) else .scalar (Char.ofNat code)

/-- The character that a letter stands for behind a backslash. -/
def escaped? (c : Char) : Option Char :=
  match c with
  | '"' => some '"'
  | '\\' => some '\\'
  | '/' => some '/'
  | 'b' => some '\x08'
  | 'f' => some '\x0c'
  | 'n' => some '\n'
  | 'r' => some '\r'
  | 't' => some '\t'
  | _ => none

/-- Reads units up to the closing quote. Control characters have to be escaped. -/
def readUnits : List Char → Option (List TextUnit × List Char)
  | [] => none
  | '"' :: r => some ([], r)
  | '\\' :: 'u' :: a :: b :: c :: d :: r => do
    let code ← hexCode? a b c d
    let (units, r) ← readUnits r
    return (unitOfCode code :: units, r)
  | '\\' :: c :: r => do
    let c ← escaped? c
    let (units, r) ← readUnits r
    return (.scalar c :: units, r)
  | c :: r =>
    if c.toNat < 32 || c = '\\' then none
    else (readUnits r).map fun (units, r) => (.scalar c :: units, r)

/-- The character of a surrogate pair, if the codes form one. -/
def pairChar? (high low : UInt16) : Option Char :=
  if 0xd800 ≤ high && high < 0xdc00 && 0xdc00 ≤ low && low < 0xe000 then
    some (Char.ofNat (0x10000 + (high.toNat - 0xd800) * 0x400 + (low.toNat - 0xdc00)))
  else none

/-- Puts the unit `u` before units that are joined already. -/
def joinUnit (u : TextUnit) (units : List TextUnit) : List TextUnit :=
  match u, units with
  | .lone high, .lone low :: rest =>
    match pairChar? high low with
    | some c => .scalar c :: rest
    | none => u :: units
  | _, _ => u :: units

/-- Joins the halves of surrogate pairs to characters. -/
def joinPairs (units : List TextUnit) : List TextUnit := units.foldr joinUnit []

def readString (s : List Char) : Option (List TextUnit × List Char) :=
  (readUnits s).map fun (units, r) => (joinPairs units, r)

/-! ## Values -/

mutual

/-- Reads a value without leading spaces. -/
def readValue : Nat → List Char → Option (Json × List Char)
  | 0, _ => none
  | fuel + 1, s =>
    match s with
    | 'n' :: 'u' :: 'l' :: 'l' :: r => some (.null, r)
    | 't' :: 'r' :: 'u' :: 'e' :: r => some (.bool true, r)
    | 'f' :: 'a' :: 'l' :: 's' :: 'e' :: r => some (.bool false, r)
    | '"' :: r => (readString r).map fun (units, r) => (.string units, r)
    | '[' :: r =>
      match skipSpaces r with
      | ']' :: r => some (.array [], r)
      | r => (readItems fuel r).map fun (items, r) => (.array items, r)
    | '\x7b' :: r =>
      match skipSpaces r with
      | '\x7d' :: r => some (.object [], r)
      | r => (readMembers fuel r).map fun (members, r) => (.object members, r)
    | s => (readNumeral s).map fun (n, r) => (.number n, r)

/-- Reads one item or more, up to the closing bracket. -/
def readItems : Nat → List Char → Option (List Json × List Char)
  | 0, _ => none
  | fuel + 1, s => do
    let (item, r) ← readValue fuel s
    match skipSpaces r with
    | ']' :: r => return ([item], r)
    | ',' :: r =>
      let (items, r) ← readItems fuel (skipSpaces r)
      return (item :: items, r)
    | _ => none

/-- Reads one member or more, up to the closing brace. -/
def readMembers : Nat → List Char → Option (List (List TextUnit × Json) × List Char)
  | 0, _ => none
  | fuel + 1, s =>
    match s with
    | '"' :: r => do
      let (name, r) ← readString r
      match skipSpaces r with
      | ':' :: r =>
        let (value, r) ← readValue fuel (skipSpaces r)
        match skipSpaces r with
        | '\x7d' :: r => return ([(name, value)], r)
        | ',' :: r =>
          let (members, r) ← readMembers fuel (skipSpaces r)
          return ((name, value) :: members, r)
        | _ => none
      | _ => none
    | _ => none

end

/-- The value of a text that holds nothing else but spaces. -/
def read? (s : String) : Option Json := do
  let cs := s.toList
  let (value, rest) ← readValue (2 * cs.length + 1) (skipSpaces cs)
  if skipSpaces rest = [] then return value else none

end Multimeter.Json
