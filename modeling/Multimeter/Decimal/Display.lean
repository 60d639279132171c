import Multimeter.Binary64

/-!
# Numbers on the display

The display shows decimal digits; a decimal exponent says where they stand in the base unit.

* `foldDigits`: the number that digits show behind a leading number.
* `displayDigits`: the shown decimals that belong to a decimal exponent.
-/

namespace Multimeter

/-- The number shown by `digits`, leading digit first, behind the number `lead`. The accumulator is
a 64-bit word. -/
def foldDigits (lead : UInt64) (digits : List UInt8) : UInt64 :=
  digits.foldl (fun acc d => acc * 10 + d.toUInt64) lead

/-- The least number of decimals a reading reports: tens of a mega unit. -/
def minDigits : Int := -6

/-- The greatest number of decimals a reading reports: pico units. -/
def maxDigits : Int := 12

/-- The decimals of a reading with this decimal exponent, negative for readings that end left of
the point. -/
def displayDigits (exponent : Int) : Int32 :=
  Int32.ofInt (max minDigits (min maxDigits (-exponent)))

theorem foldDigits_append (lead : UInt64) (a b : List UInt8) :
    foldDigits lead (a ++ b) = foldDigits (foldDigits lead a) b := by
  simp [foldDigits, List.foldl_append]

end Multimeter
