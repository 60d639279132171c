import Multimeter.Es519xx.Correction
import Multimeter.Decimal.Display
import Multimeter.Measurement.Reading

/-!
# Decoding digit packets

* `decodeAnnunciators`: framing and the corrected, consistent state of the meter.
* `signedDisplay`: the signed number on the display.
* `exponent`: the decimal exponent of its last digit.
* `classify`, `qualifiers`: what is measured.
* `decode`: the reading of a frame.
-/

namespace Multimeter.Es519xx

def checkFraming (profile : Profile) (frame : List UInt8) : Except Error Unit :=
  Packet.checkFraming ⟨frame, profile.packetSize⟩ profile.isRepeated

/-- The state of the meter, when the frame is well formed and the state consistent. -/
def decodeAnnunciators (profile : Profile) (frame : List UInt8) : Except Error Annunciators := do
  checkFraming profile frame
  let a ← Annunciators.ofPacket profile ⟨frame, profile.packetSize⟩
  (a.corrected profile).check
  return a.corrected profile

/-- The signed number on the display. Over and under range read as positive infinity whatever the
display shows, and a zero has no sign. -/
def signedDisplay (p : Packet) (a : Annunciators) : Except Error Binary64 :=
  if a.overflow || a.underflow then .ok .infinity
  else do
    let digits ← p.digits
    let shown := foldDigits (if a.digit4 then 1 else 0) digits
    return (Binary64.ofNat shown.toNat).negIf (a.sign && shown ≠ 0)

/-- Exponents by range while the bar annunciator is lit on a micro display. -/
def barMicroExponents : List Int := [-1, 0]

/-- Exponents by range while the bar annunciator is lit on a milli display. -/
def barMilliExponents : List Int := [-2, -1]

/-- The exponent of every duty cycle: one decimal. -/
def dutyCycleExponent : Int := -1

/-- The exponent of a range in a short list; a range beyond it is an invalid range byte. -/
def barExponent (p : Packet) (exponents : List Int) (range : Nat) : Except Error Int :=
  match exponents[range]? with
  | some e => .ok e
  | none => do throw (.invalidRange (← p.read 0))

/-- The decimal exponent of the last digit: from the bar lists while the bar is lit, fixed for duty
cycle, else from the range table of the format. -/
def exponent (profile : Profile) (p : Packet) (a : Annunciators) : Except Error Int := do
  let range ← p.rangeIndex
  let function ← p.function
  match a.rangeRow? with
  | none => throw (.unsupportedMode function)
  | some row =>
    if a.vbar then
      if a.micro then barExponent p barMicroExponents range
      else if a.milli then barExponent p barMilliExponents range
      else return 0
    else if a.dutyCycle then return dutyCycleExponent
    else
      match profile.rangeTable >>= (·.exponent? row.index range) with
      | some e => return e
      | none => throw (.unsupportedMode function)

/-- Whether a value counts as a closed circuit: from 0 to 25 ohm. -/
def isClosed (value : Binary64) : Bool :=
  Binary64.zero.le value && value.le (.ofNat 25)

/-- What is measured, in which unit, and the value to report: continuity reports one for a closed
circuit and zero for an open one. -/
def classify (a : Annunciators) (value : Binary64) : Quantity × PhysicalUnit × Binary64 :=
  if a.dutyCycle then (.dutyCycle, .percentage, value)
  else if a.rpm then (.rpm, .revolutionsPerMinute, value)
  else if a.diode then (.diode, .volt, value)
  else if a.continuity then
    (.continuity, .boolean, if isClosed value then .one else .zero)
  else if a.temperature && a.fahrenheit then (.temperature, .fahrenheit, value)
  else if a.temperature && a.celsius then (.temperature, .celsius, value)
  else if a.capacitance then (.capacitance, .farad, value)
  else if a.frequency then (.frequency, .hertz, value)
  else if a.resistance then (.resistance, .ohm, value)
  else if a.current then (.current, .ampere, value)
  else if a.voltage then (.voltage, .volt, value)
  else (.gain, .unitless, value)

/-- The coupling of the reading: a diode test counts as DC and never as AC. -/
def coupling (a : Annunciators) : QualifierSet :=
  let lit := QualifierSet.empty
    |>.addIf .ac a.ac
    |>.addIf .dc a.dc
    |>.addIf .autorange a.auto
  if a.diode then (lit \ .single .ac) ∪ (.single .diode ∪ .single .dc) else lit

def qualifiers (a : Annunciators) : QualifierSet :=
  coupling a
    |>.addIf .hold a.hold
    |>.addIf .max a.max
    |>.addIf .min a.min
    |>.addIf .relative a.relative

def decode (profile : Profile) (frame : List UInt8) : Except Error Reading := do
  let p : Packet := ⟨frame, profile.packetSize⟩
  let a ← decodeAnnunciators profile frame
  let shown ← signedDisplay p a
  let e ← exponent profile p a
  let (quantity, unit, value) := classify a (shown.scale10 e)
  return { quantity, unit, qualifiers := qualifiers a, value, digits := displayDigits e }

end Multimeter.Es519xx
