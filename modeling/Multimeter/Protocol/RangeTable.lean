/-!
# Range tables

A digit packet names its range by a number from 0 to 7. What that means depends on what is measured
and on the chip: a range table gives the decimal exponent of the last shown digit.

* `RangeRow`: the rows of a table; two measurements may share a row.
* `RangeTable`: a table, with `exponent?`.
* `RangeTable.slow11`, `fast11FiveDigits`, `fast11Clamp`, `fast11`, `fast14`: the five tables.
-/

namespace Multimeter

/-- What a row of a range table is used for. -/
inductive RangeRow where
  | voltage
  | microamp
  | milliamp
  | amp
  | manualAmp
  | rpm
  | resistance
  | frequency
  | capacitance
  | diode
  /-- Duty cycle has a fixed exponent; its row is only a placeholder. -/
  | dutyCycle
deriving DecidableEq, Repr

/-- The position of the row. Chips at 2400 baud report revolutions in the row that other chips use
for manual current, and the placeholder of duty cycle is the first row. -/
def RangeRow.index : RangeRow → Nat
  | voltage => 0
  | microamp => 1
  | milliamp => 2
  | amp => 3
  | manualAmp => 4
  | rpm => 4
  | resistance => 5
  | frequency => 6
  | capacitance => 7
  | diode => 8
  | dutyCycle => 0

/-- Decimal exponents by row and range. -/
structure RangeTable where
  rows : List (List Int)
deriving DecidableEq, Repr

namespace RangeTable

/-- The exponent in a row for a range, if the table has both. -/
def exponent? (t : RangeTable) (row range : Nat) : Option Int :=
  t.rows[row]? >>= (·[range]?)

/-- Chips at 2400 baud with 11-byte packets; the fifth row counts revolutions. -/
def slow11 : RangeTable where
  rows := [
    [-4, -3, -2, -1, 0, 0, 0, 0],
    [-7, -6, 0, 0, 0, 0, 0, 0],
    [-5, -4, 0, 0, 0, 0, 0, 0],
    [-2, 0, 0, 0, 0, 0, 0, 0],
    [1, 2, 3, 4, 5, 6, 0, 0],
    [-1, 0, 1, 2, 3, 4, 0, 0],
    [0, 1, 2, 3, 4, 5, 0, 0],
    [-12, -11, -10, -9, -8, -7, -6, -5],
    [-3, 0, 0, 0, 0, 0, 0, 0]]

/-- Chips at 19200 baud with 11-byte packets and a leading half digit. -/
def fast11FiveDigits : RangeTable where
  rows := [
    [-4, -3, -2, -1, -5, 0, 0, 0],
    [-8, -7, 0, 0, 0, 0, 0, 0],
    [-6, -5, 0, 0, 0, 0, 0, 0],
    [0, -3, 0, 0, 0, 0, 0, 0],
    [-4, -3, -2, -1, 0, 0, 0, 0],
    [-2, -1, 0, 1, 2, 3, 4, 0],
    [-1, 0, 0, 1, 2, 3, 4, 0],
    [-12, -11, -10, -9, -8, -7, -6, -5],
    [-4, 0, 0, 0, 0, 0, 0, 0]]

/-- Clamp meters at 19200 baud with 11-byte packets. -/
def fast11Clamp : RangeTable where
  rows := [
    [-3, -2, -1, 0, -4, 0, 0, 0],
    [-7, -6, 0, 0, 0, 0, 0, 0],
    [-5, -4, 0, 0, 0, 0, 0, 0],
    [-2, 0, 0, 0, 0, 0, 0, 0],
    [-3, -2, -1, 0, 0, 0, 0, 0],
    [-1, 0, 1, 2, 3, 4, 0, 0],
    [-1, 0, 0, 1, 2, 3, 4, 0],
    [-12, -11, -10, -9, -8, -7, -6, -5],
    [-3, 0, 0, 0, 0, 0, 0, 0]]

/-- Other chips at 19200 baud with 11-byte packets. -/
def fast11 : RangeTable where
  rows := [
    [-3, -2, -1, 0, -4, 0, 0, 0],
    [-7, -6, 0, 0, 0, 0, 0, 0],
    [-5, -4, 0, 0, 0, 0, 0, 0],
    [-3, -2, 0, 0, 0, 0, 0, 0],
    [0, 0, 0, 0, 0, 0, 0, 0],
    [-1, 0, 1, 2, 3, 4, 0, 0],
    [0, 1, 2, 3, 4, 0, 0, 0],
    [-12, -11, -10, -9, -8, -7, -6, 0],
    [-3, 0, 0, 0, 0, 0, 0, 0]]

/-- Chips at 19200 baud with 14-byte packets. -/
def fast14 : RangeTable where
  rows := [
    [-4, -3, -2, -1, -5, 0, 0, 0],
    [-8, -7, 0, 0, 0, 0, 0, 0],
    [-6, -5, 0, 0, 0, 0, 0, 0],
    [-3, 0, 0, 0, 0, 0, 0, 0],
    [-4, -3, -2, -1, 0, 0, 0, 0],
    [-2, -1, 0, 1, 2, 3, 4, 0],
    [-2, -1, 0, 0, 1, 2, 3, 4],
    [-12, -11, -10, -9, -8, -7, -6, -5],
    [-4, 0, 0, 0, 0, 0, 0, 0]]

end RangeTable

end Multimeter
