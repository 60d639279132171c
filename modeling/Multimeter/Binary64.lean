/-!
# 64-bit binary values

A reading carries its value in the 64-bit binary format: sign, eleven exponent bits, 52 fraction
bits. The value is held as its bit pattern, so that the payload of a NaN and the sign of a zero are
part of it, and every operation is exact integer arithmetic on the pattern.

* `Binary64.ratio?`: the exact magnitude of a finite value, as a fraction.
* `Binary64.ofRatio`: the value nearest to a fraction, a half to the even neighbour.
* `Binary64.scale10`: a value times a power of ten, rounded once.
* `Binary64.le`, `Binary64.equals`: the numeric order and the numeric equality.
-/

namespace Multimeter

/-- A value in the 64-bit binary format, held as its bit pattern. -/
structure Binary64 where
  bits : UInt64
deriving DecidableEq, Repr

namespace Binary64

def zero : Binary64 := ⟨0⟩

def one : Binary64 := ⟨0x3ff0000000000000⟩

def infinity : Binary64 := ⟨0x7ff0000000000000⟩

def negInfinity : Binary64 := ⟨0xfff0000000000000⟩

/-- The quiet NaN without sign and payload. -/
def notNumber : Binary64 := ⟨0x7ff8000000000000⟩

/-- All bits but the sign, as a number; it grows with the magnitude. -/
def magnitude (x : Binary64) : Nat := x.bits.toNat % 0x8000000000000000

def isNegative (x : Binary64) : Bool := 0x8000000000000000 ≤ x.bits.toNat

/-- Whether the pattern stands for no number. -/
def isNaN (x : Binary64) : Bool := infinity.magnitude < x.magnitude

def isInfinite (x : Binary64) : Bool := x.magnitude == infinity.magnitude

def isZero (x : Binary64) : Bool := x.magnitude == 0

def neg (x : Binary64) : Binary64 := ⟨x.bits ^^^ 0x8000000000000000⟩

def negIf (x : Binary64) (condition : Bool) : Binary64 := if condition then x.neg else x

/-! ## Exact magnitudes and rounding -/

/-- The magnitude of a finite value as integer significand and binary exponent. -/
def significand? (x : Binary64) : Option (Nat × Int) :=
  let e : Nat := x.magnitude / 0x10000000000000
  let f : Nat := x.magnitude % 0x10000000000000
  if e = 2047 then none
  else if e = 0 then some (f, -1074)
  else some (0x10000000000000 + f, (e : Int) - 1075)

/-- The magnitude of a finite value as a fraction. -/
def ratio? (x : Binary64) : Option (Nat × Nat) :=
  x.significand?.map fun (m, q) => (m * Nat.pow 2 q.toNat, Nat.pow 2 (-q).toNat)

/-- `num / den` rounded to an integer, a half to the even neighbour. -/
def roundDiv (num den : Nat) : Nat :=
  let q := num / den
  let twice := 2 * (num % den)
  if twice < den ∨ (twice = den ∧ q % 2 = 0) then q else q + 1

/-- The exponent `e` with `2 ^ e ≤ num / den < 2 ^ (e + 1)`. -/
def binaryScale (num den : Nat) : Int :=
  let e : Int := (num.log2 : Int) - den.log2
  if num * Nat.pow 2 (-e).toNat < den * Nat.pow 2 e.toNat then e - 1 else e

/-- The value nearest to `num / den`, a half to the even neighbour. The unit in the last place is
`2 ^ q`; a significand that rounds up to `2 ^ 53` carries into the exponent field, and past the
greatest finite value into infinity. -/
def ofRatio (num den : Nat) : Binary64 :=
  if num = 0 then zero
  else
    let q := max (binaryScale num den - 52) (-1074)
    let m := roundDiv (num * Nat.pow 2 (-q).toNat) (den * Nat.pow 2 q.toNat)
    let packed := (q + 1074).toNat * 0x10000000000000 + m
    if packed < infinity.magnitude then ⟨UInt64.ofNat packed⟩ else infinity

def ofNat (n : Nat) : Binary64 := ofRatio n 1

/-- `x * num / den`, rounded once. Infinities and NaN stay as they are. -/
def scale (x : Binary64) (num den : Nat) : Binary64 :=
  match x.ratio? with
  | none => x
  | some (n, d) => (ofRatio (n * num) (d * den)).negIf x.isNegative

/-- `x * 10 ^ e`, rounded once. Infinities and NaN stay as they are. -/
def scale10 (x : Binary64) (e : Int) : Binary64 :=
  x.scale (Nat.pow 10 e.toNat) (Nat.pow 10 (-e).toNat)

/-! ## Comparison -/

/-- The place of a number in the numeric order; both zeros are at 0. -/
def orderKey (x : Binary64) : Int := if x.isNegative then -(x.magnitude : Int) else x.magnitude

/-- Whether both are numbers and `x ≤ y`. -/
def le (x y : Binary64) : Bool := !x.isNaN && !y.isNaN && x.orderKey ≤ y.orderKey

/-- Whether both are numbers and numerically equal: zeros of either sign are, NaN never is. -/
def equals (x y : Binary64) : Bool := !x.isNaN && !y.isNaN && x.orderKey == y.orderKey

@[simp] theorem neg_neg (x : Binary64) : x.neg.neg = x := by
  cases x
  simp only [neg, UInt64.xor_assoc, UInt64.xor_self, UInt64.xor_zero]

theorem roundDiv_mul (n d : Nat) (h : 0 < d) : roundDiv (n * d) d = n := by
  simp [roundDiv, Nat.mul_div_cancel _ h, h]

end Binary64

end Multimeter
