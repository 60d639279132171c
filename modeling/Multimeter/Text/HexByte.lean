/-!
# Bytes as hexadecimal digits

* `Text.hexDigit`, `Text.hexValue?`: a digit and its value.
* `Text.hexPair`: the two lower-case digits of a byte, as error messages show it after `0x`.
-/

namespace Multimeter.Text

/-- The lower-case hexadecimal digit of a value below 16. -/
def hexDigit (n : Nat) : Char :=
  if n < 10 then Char.ofNat (48 + n) else Char.ofNat (87 + n)

/-- The value of a hexadecimal digit in either case, given by its code. -/
def hexValue? (code : UInt8) : Option UInt8 :=
  if 48 ≤ code && code ≤ 57 then some (code - 48)
  else if 65 ≤ code && code ≤ 70 then some (code - 55)
  else if 97 ≤ code && code ≤ 102 then some (code - 87)
  else none

/-- The two hexadecimal digits of a byte. -/
def hexPair (b : UInt8) : String :=
  String.ofList [hexDigit (b.toNat / 16), hexDigit (b.toNat % 16)]

/-- A byte as messages show it: `0x` and its two digits. -/
def byteLiteral (b : UInt8) : String := "0x" ++ hexPair b

end Multimeter.Text
