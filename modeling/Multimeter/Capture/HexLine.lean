import Multimeter.Text.Blank
import Multimeter.Text.HexByte

/-!
# Lines of hex text

A line holds bytes as pairs of hexadecimal digits. Blanks may stand anywhere, also within a pair,
and `#` begins a comment.

* `HexLine.digits`: the line without comment and blanks.
* `HexLine.bytes`: the bytes of a line, or why it has none.
-/

namespace Multimeter.Capture

inductive HexError where
  | oddLength
  /-- The first byte of the text that is no digit, and its position. -/
  | invalidDigit (code : UInt8) (position : Nat)
deriving DecidableEq, Repr

namespace HexError

/-- A byte as a quoted character, taken as a code point. Quotes, backslashes and controls are
escaped. -/
def quotedByte (code : UInt8) : String :=
  let n := code.toNat
  let shown :=
    if n = 0 then "\\0"
    else if n = 9 then "\\t"
    else if n = 10 then "\\n"
    else if n = 13 then "\\r"
    else if n = 39 then "\\'"
    else if n = 92 then "\\\\"
    else if n < 32 || (127 ≤ n && n ≤ 160) || n = 173 then
      "\\u\x7b" ++ String.ofList (Nat.toDigits 16 n) ++ "\x7d"
    else String.ofList [Char.ofNat n]
  "'" ++ shown ++ "'"

def message : HexError → String
  | oddLength => "Odd number of digits"
  | invalidDigit code position =>
    s!"Invalid character {quotedByte code} at position {position}"

end HexError

namespace HexLine

def commentMark : Char := '#'

/-- The characters before the comment, without blanks. -/
def digits (line : List Char) : List Char := Text.dropBlanks (line.takeWhile (· ≠ commentMark))

/-- Reads pairs of digits, the first of which stands at `position`. -/
def pairs (position : Nat) : List UInt8 → Except HexError (List UInt8)
  | [] => .ok []
  | [_] => .error .oddLength
  | high :: low :: rest =>
    match Text.hexValue? high, Text.hexValue? low with
    | none, _ => .error (.invalidDigit high position)
    | some _, none => .error (.invalidDigit low (position + 1))
    | some h, some l => (pairs (position + 2) rest).map ((h * 16 + l) :: ·)

/-- The bytes of a line. An odd number of bytes in its digits is reported before any byte that is
no digit. -/
def bytes (line : List Char) : Except HexError (List UInt8) :=
  let codes := (String.ofList (digits line)).toUTF8.toList
  if codes.length % 2 = 1 then .error .oddLength else pairs 0 codes

end HexLine

end Multimeter.Capture
