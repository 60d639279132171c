import Multimeter.Binary64

/-!
# Shortest decimals

The reals that round to a 64-bit value form an interval, from halfway to the value below to halfway
to the value above, with its ends when the significand is even. The shortest decimal of a value is
the one with the fewest digits in its interval, of those the nearest to the value.

* `Decimal`: digits and a decimal exponent.
* `Binary64.readsBack`: whether a decimal lies in the interval of a value.
* `Binary64.shortest`: the shortest decimal of a value.
-/

namespace Multimeter

structure Decimal where
  digits : Nat
  exponent : Int
deriving DecidableEq, Repr

namespace Decimal

/-- Compares the decimal with `num / den`, exactly. -/
def compareRatio (d : Decimal) (num den : Nat) : Ordering :=
  compare (d.digits * Nat.pow 10 d.exponent.toNat * den) (num * Nat.pow 10 (-d.exponent).toNat)

/-- Moves trailing zeros of the digits into the exponent, at most `fuel` of them. -/
def stripZeros (d : Decimal) : Nat → Decimal
  | 0 => d
  | fuel + 1 =>
    if d.digits ≠ 0 ∧ d.digits % 10 = 0 then stripZeros ⟨d.digits / 10, d.exponent + 1⟩ fuel
    else d

end Decimal

def decimalLength (n : Nat) : Nat := (Nat.toDigits 10 n).length

/-- The least `k` with `num / den < 10 ^ k`. -/
def decimalScale (num den : Nat) : Int :=
  if den ≤ num then decimalLength (num / den)
  else
    let length := decimalLength (den / num)
    if den = num * Nat.pow 10 (length - 1) then 2 - (length : Int) else 1 - (length : Int)

namespace Binary64

/-- Whether the decimal rounds to the magnitude with significand `m` and binary exponent `q`. The
value below a power of two is only half as far away as the value above, except at the bottom of the
exponent range. -/
def readsBack (m : Nat) (q : Int) (d : Decimal) : Bool :=
  let narrowBelow := m == 0x10000000000000 && q > -1074
  let low := if narrowBelow then 4 * m - 1 else 4 * m - 2
  let high := 4 * m + 2
  let up := Nat.pow 2 q.toNat
  let den := 4 * Nat.pow 2 (-q).toNat
  let ends := m % 2 == 0
  let fromLow := d.compareRatio (low * up) den
  let fromHigh := d.compareRatio (high * up) den
  (fromLow == .gt || (ends && fromLow == .eq)) && (fromHigh == .lt || (ends && fromHigh == .eq))

/-- The decimal with `n` digits that is nearest to the magnitude among the two neighbours on its
grid that read back; an exact tie goes to the even neighbour. -/
def candidate (m : Nat) (q : Int) (n : Nat) : Option Decimal :=
  let num := m * Nat.pow 2 q.toNat
  let den := Nat.pow 2 (-q).toNat
  let grid := decimalScale num den - n
  let below := num * Nat.pow 10 (-grid).toNat / (den * Nat.pow 10 grid.toNat)
  let low : Decimal := ⟨below, grid⟩
  let high : Decimal := ⟨below + 1, grid⟩
  match readsBack m q low, readsBack m q high with
  | false, false => none
  | true, false => some low
  | false, true => some high
  | true, true =>
    match (Decimal.mk (2 * below + 1) grid).compareRatio (2 * num) den with
    | .lt => some high
    | .gt => some low
    | .eq => some (if below % 2 = 0 then low else high)

/-- The shortest decimal of a magnitude that is not zero. Seventeen digits are always enough. -/
def shortestMagnitude (m : Nat) (q : Int) : Decimal :=
  let found := (List.range' 1 17).findSome? (candidate m q)
  (found.getD ⟨m * Nat.pow 2 q.toNat * Nat.pow 5 (-q).toNat, min q 0⟩).stripZeros 400

def shortest (x : Binary64) : Decimal :=
  match x.significand? with
  | none => ⟨0, 0⟩
  | some (m, q) => if m = 0 then ⟨0, 0⟩ else shortestMagnitude m q

end Binary64

end Multimeter
