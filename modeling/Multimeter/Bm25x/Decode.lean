import Multimeter.Bm25x.Packet
import Multimeter.Decimal.Display
import Multimeter.Measurement.Reading

/-!
# Decoding segment packets

* `Packet.shownDigits?`: the digits on the display, when it shows a number.
* `Packet.shown`: the displayed magnitude and its exponent before the unit is scaled.
* `Packet.classify`: what is measured, in which unit.
* `Packet.decode`: the reading of a well-framed packet without contradicting annunciators.
-/

namespace Multimeter.Bm25x.Packet

/-- A temperature is shown with its unit in the last place. -/
def temperatureUnit? (p : Packet) : Option PhysicalUnit :=
  match p.glyph? 3 with
  | some .c => some .celsius
  | some .f => some .fahrenheit
  | _ => none

/-- The number of places that show the number: all but the unit of a temperature. -/
def numberPlaces (p : Packet) : Nat := if p.temperatureUnit?.isSome then 3 else digitCount

/-- The digits of the number, if every place shows one. -/
def shownDigits? (p : Packet) : Option (List UInt8) :=
  (List.range p.numberPlaces).mapM fun i => p.glyph? i >>= Glyph.digit?

/-- Whether the middle of the display shows `0L`: an open circuit. -/
def isOpen (p : Packet) : Bool := p.glyph? 1 == some (.digit 0) && p.glyph? 2 == some .l

/-- The exponent that a decimal point gives to a number of `count` digits. -/
def pointExponent (point : DecimalPoint) (count : Nat) : Int :=
  match point with
  | .lit i =>
    let position : Int := (i + count : Nat) - (digitCount : Nat)
    if 0 ≤ position ∧ position ≤ 3 then -position else 0
  | _ => 0

/-- The displayed magnitude and its decimal exponent, before sign and scaled unit. A display that is
no number is infinite when it shows an open circuit and unreadable otherwise. -/
def shown (p : Packet) : Binary64 × Int :=
  match p.shownDigits? with
  | some digits =>
    (.ofNat (foldDigits 0 digits).toNat, pointExponent p.point digits.length)
  | none => (if p.isOpen then .infinity else .notNumber, 0)

def litQualifiers (p : Packet) : QualifierSet :=
  QualifierSet.empty
    |>.addIf .autorange (p.isLit .autorange)
    |>.addIf .dc (p.isLit .dc)
    |>.addIf .ac (p.isLit .ac)
    |>.addIf .relative (p.isLit .relative)
    |>.addIf .hold (p.isLit .hold)
    |>.addIf .max (p.isLit .max)
    |>.addIf .min (p.isLit .min)

/-- What is measured. Volts with neither AC nor DC are a diode test. -/
def classify (p : Packet) : Quantity × PhysicalUnit :=
  match p.temperatureUnit? with
  | some unit => (.temperature, unit)
  | none =>
    if p.isLit .voltage then
      if p.isLit .ac || p.isLit .dc then (.voltage, .volt) else (.diode, .volt)
    else if p.isLit .current then (.current, .ampere)
    else if p.isLit .resistance then (.resistance, .ohm)
    else if p.isLit .capacitance then (.capacitance, .farad)
    else if p.isLit .frequency then (.frequency, .hertz)
    else (.gain, .unitless)

/-- The qualifiers of the reading; a diode test counts as DC. -/
def qualifiers (p : Packet) : QualifierSet :=
  if p.classify.1 = .diode then p.litQualifiers ∪ (.single .diode ∪ .single .dc)
  else p.litQualifiers

/-- Rejects a packet whose annunciators contradict each other. -/
def checkLamps (p : Packet) : Except Error Unit :=
  if 1 < p.modeCount then .error (.multipleModes p.modeCount)
  else if 1 < p.litScales.length then .error (.multiplePrefixes p.litScales.length)
  else if p.isLit .ac && p.isLit .dc then .error .acAndDc
  else .ok ()

/-- The decimal exponent of the last shown digit in the base unit. -/
def exponent (p : Packet) : Int := p.shown.2 + p.unitExponent

/-- The value in the base unit; the sign is applied last. -/
def value (p : Packet) : Binary64 := (p.shown.1.scale10 p.exponent).negIf p.isNegative

def reading (p : Packet) : Reading where
  quantity := p.classify.1
  unit := p.classify.2
  qualifiers := p.qualifiers
  value := p.value
  digits := displayDigits p.exponent

def decode (p : Packet) : Except Error Reading := do
  p.checkFraming
  p.checkLamps
  return p.reading

end Multimeter.Bm25x.Packet
