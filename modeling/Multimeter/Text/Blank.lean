/-!
# Blank characters

* `Text.isBlank`: the characters with the Unicode property White_Space.
* `Text.strip`: a text without the blanks at its ends.
* `Text.dropBlanks`: a text without any blanks.
-/

namespace Multimeter.Text

/-- The characters with the Unicode property White_Space. -/
def isBlank (c : Char) : Bool :=
  let n := c.toNat
  (0x09 ≤ n && n ≤ 0x0d) || n == 0x20 || n == 0x85 || n == 0xa0 || n == 0x1680 ||
    (0x2000 ≤ n && n ≤ 0x200a) || n == 0x2028 || n == 0x2029 || n == 0x202f || n == 0x205f ||
    n == 0x3000

/-- The characters of `s` between its leading and its trailing blanks. -/
def strip (s : List Char) : List Char :=
  ((s.dropWhile isBlank).reverse.dropWhile isBlank).reverse

/-- The characters of `s` that are not blank, in order. -/
def dropBlanks (s : List Char) : List Char := s.filter (!isBlank ·)

end Multimeter.Text
