import Multimeter.Decimal.Shortest

/-!
# Numerals

A number in a JSON text is a numeral: digits, perhaps a point with digits, perhaps an exponent. A
numeral keeps its digits, so that what it stands for can depend on what is wanted of it.

* `Numeral.toInt?`: the integer that it stands for; a minus before zero is no integer.
* `Numeral.toBinary64?`: the 64-bit value that it stands for, if it is in range.
* `Numeral.ofInt`, `Numeral.ofBinary64`: the numerals that are written.
* `Numeral.text`: the characters of a numeral.
-/

namespace Multimeter

structure Numeral where
  negative : Bool
  /-- The digits before the point. -/
  whole : List Char
  /-- The digits behind the point, empty without a point. -/
  fraction : List Char
  /-- Whether the exponent is negative, and its digits. -/
  exponent : Option (Bool × List Char)
deriving DecidableEq, Repr

namespace Numeral

def digitValue (c : Char) : Nat := c.toNat - 48

def digitsValue (ds : List Char) : Nat := ds.foldl (fun n c => n * 10 + digitValue c) 0

/-! ## Integers -/

def ofNat (n : Nat) : Numeral := ⟨false, Nat.toDigits 10 n, [], none⟩

def ofInt (n : Int) : Numeral := ⟨n < 0, Nat.toDigits 10 n.natAbs, [], none⟩

/-- The integer that a numeral without point and exponent stands for. A minus before zero makes it a
zero with a sign, which is no integer. -/
def toInt? (n : Numeral) : Option Int :=
  if n.fraction = [] ∧ n.exponent = none then
    let value := digitsValue n.whole
    if n.negative then if value = 0 then none else some (-(value : Int))
    else some value
  else none

/-! ## 64-bit values -/

/-- Takes digits into a significand as long as it stays below `2 ^ 64`; returns the digits that did
not fit. -/
def accumulate (significand : Nat) : List Char → Nat × List Char
  | [] => (significand, [])
  | c :: cs =>
    let next := significand * 10 + digitValue c
    if next < 0x10000000000000000 then accumulate next cs else (significand, c :: cs)

/-- The greatest power of ten with a finite 64-bit value. -/
def maxPower : Nat := 308

/-- The fraction that the 64-bit value of `10 ^ k` stands for; up to 22 it is `10 ^ k` itself. -/
def powerRatio (k : Nat) : Nat × Nat := (Binary64.ofNat (Nat.pow 10 k)).ratio?.getD (1, 1)

/-- Divides by `10 ^ k`, by the greatest power at a time. -/
def divideByPower (x : Binary64) (k : Nat) : Binary64 :=
  if k ≤ maxPower then x.scale (powerRatio k).2 (powerRatio k).1
  else if x.isZero then x
  else
    divideByPower (x.scale (powerRatio maxPower).2 (powerRatio maxPower).1) (k - maxPower)
termination_by k
decreasing_by simp only [maxPower] at *; omega

/-- The value `significand * 10 ^ e`, through the 64-bit values of both, unless it is too great. -/
def ofParts? (significand : Nat) (e : Int) : Option Binary64 :=
  let x := Binary64.ofNat significand
  if e < 0 then some (divideByPower x e.natAbs)
  else if e.natAbs ≤ maxPower then
    let y := x.scale (powerRatio e.natAbs).1 (powerRatio e.natAbs).2
    if y.isInfinite then none else some y
  else if x.isZero then some x
  else none

def exponentValue (n : Numeral) : Int :=
  match n.exponent with
  | none => 0
  | some (negative, ds) => if negative then -(digitsValue ds : Int) else digitsValue ds

/-- The 64-bit value of a numeral. The significand takes the leading digits that fit into 64 bits;
further digits before the point only count places, further digits behind it do not count. -/
def toBinary64? (n : Numeral) : Option Binary64 :=
  let (w, extra) := accumulate 0 n.whole
  let (s, unused) := accumulate w n.fraction
  let e := (extra.length : Int) - ((n.fraction.length : Int) - unused.length) + n.exponentValue
  (ofParts? s e).map (·.negIf n.negative)

/-- How 64-bit values are written: positionally while the exponent of the first digit lies between
these bounds, otherwise with an exponent. -/
def leastPositional : Int := -5

/-- The greatest exponent of the first digit that is written positionally. -/
def greatestPositional : Int := 15

/-- The numeral of a decimal: positional numerals always have a point, an exponent is written after
the first digit. -/
def ofDecimal (negative : Bool) (d : Decimal) : Numeral :=
  let ds := Nat.toDigits 10 d.digits
  let e : Int := d.exponent + ds.length - 1
  if leastPositional ≤ e ∧ e ≤ greatestPositional then
    if e < 0 then ⟨negative, ['0'], List.replicate (-e - 1).toNat '0' ++ ds, none⟩
    else
      let whole := ds.take (e + 1).toNat
      let zeros := List.replicate ((e + 1).toNat - ds.length) '0'
      let fraction := ds.drop (e + 1).toNat
      ⟨negative, whole ++ zeros, if fraction = [] then ['0'] else fraction, none⟩
  else ⟨negative, ds.take 1, ds.drop 1, some (e < 0, Nat.toDigits 10 e.natAbs)⟩

/-- The numeral of a finite 64-bit value: its shortest decimal, with the sign of a zero kept. -/
def ofBinary64 (x : Binary64) : Numeral := ofDecimal x.isNegative x.shortest

/-! ## Text -/

/-- The characters of a numeral; an exponent is written with its sign. -/
def text (n : Numeral) : List Char :=
  (if n.negative then ['-'] else []) ++ n.whole
    ++ (if n.fraction = [] then [] else '.' :: n.fraction)
    ++ match n.exponent with
      | none => []
      | some (negative, ds) => 'e' :: (if negative then '-' else '+') :: ds

end Numeral

end Multimeter
