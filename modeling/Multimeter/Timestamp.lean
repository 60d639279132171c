/-!
# Time stamps

A time stamp counts nanoseconds from the beginning of 1970, without leap seconds.

* `Date.ofDays`: the Gregorian date of a day.
* `Timestamp.text?`: date and time of day in UTC, as in `2024-02-29T12:00:00.5Z`.
-/

namespace Multimeter

structure Date where
  year : Int
  month : Nat
  day : Nat
deriving DecidableEq, Repr

/-- The date of the day with number `days`, where day 0 is the first of January 1970. The years of
the computation begin in March, so that the leap day is the last of its year; 400 of them have
146097 days. -/
def Date.ofDays (days : Int) : Date :=
  let fromMarch := days + 719468
  let era := fromMarch / 146097
  let dayOfEra := (fromMarch % 146097).toNat
  let yearOfEra :=
    (dayOfEra - dayOfEra / 1460 + dayOfEra / 36524 - dayOfEra / 146096) / 365
  let dayOfYear := dayOfEra - (365 * yearOfEra + yearOfEra / 4 - yearOfEra / 100)
  let monthFromMarch := (5 * dayOfYear + 2) / 153
  let month := if monthFromMarch < 10 then monthFromMarch + 3 else monthFromMarch - 9
  { year := era * 400 + yearOfEra + if month ≤ 2 then 1 else 0
    month := month
    day := dayOfYear - (153 * monthFromMarch + 2) / 5 + 1 }

/-- A moment, in nanoseconds from the beginning of 1970. -/
structure Timestamp where
  nanoseconds : Int
deriving DecidableEq, Repr

namespace Timestamp

def epoch : Timestamp := ⟨0⟩

/-- The moment so many seconds and nanoseconds after the beginning of 1970. -/
def ofSeconds (seconds : Int) (nanoseconds : Nat) : Timestamp :=
  ⟨seconds * 1000000000 + nanoseconds⟩

def padded (width n : Nat) : List Char := (Nat.toDigits 10 n).leftpad width '0'

/-- The digits behind the point of a second, without zeros at the end; nothing for a whole
second. -/
def fractionText (nanoseconds : Nat) : List Char :=
  let digits := ((padded 9 nanoseconds).reverse.dropWhile (· = '0')).reverse
  if digits = [] then [] else '.' :: digits

/-- Date and time of day in UTC, if the year has at most four digits and is not negative. -/
def text? (t : Timestamp) : Option String :=
  let seconds := t.nanoseconds / 1000000000
  let date := Date.ofDays (seconds / 86400)
  let second := (seconds % 86400).toNat
  if 0 ≤ date.year ∧ date.year ≤ 9999 then
    some <| String.ofList <|
      padded 4 date.year.toNat ++ '-' :: padded 2 date.month ++ '-' :: padded 2 date.day
        ++ 'T' :: padded 2 (second / 3600) ++ ':' :: padded 2 (second / 60 % 60)
        ++ ':' :: padded 2 (second % 60)
        ++ fractionText (t.nanoseconds % 1000000000).toNat ++ ['Z']
  else none

end Timestamp

end Multimeter
