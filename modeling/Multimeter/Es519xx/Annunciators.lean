import Multimeter.Es519xx.Packet

/-!
# Annunciators of digit packets

The status, option and function bytes say what the meter is doing. Which bit means what depends on
the wire format.

* `FunctionCode`: the meanings of a function byte, with the standard and the alternate code table.
* `Annunciators`: everything one packet says about the meter, before classification.
* `Annunciators.ofPacket`: reading them from a packet, before any correction.
* `Annunciators.check`: the contradictions that reject a packet.
* `Annunciators.rangeRow?`: the row of the range table that the lit mode uses.
-/

namespace Multimeter.Es519xx

/-! ## Function codes -/

inductive FunctionCode where
  | voltage
  | amp
  | microAmp
  | milliAmp
  /-- Current in a range set by hand. -/
  | manualAmp
  | resistance
  | continuity
  | diode
  | frequency
  /-- Frequency, revolutions or duty cycle, as the judge bit chooses. -/
  | frequencyByJudge
  | capacitance
  /-- Celsius with the judge bit, Fahrenheit without. -/
  | temperature
  /-- An external adapter, by its input from 0 to 3. -/
  | adapter (input : UInt8)
deriving DecidableEq, Repr

namespace FunctionCode

def standard : List (UInt8 × FunctionCode) :=
  [(0x3b, voltage), (0x3d, microAmp), (0x3f, milliAmp), (0x30, amp), (0x39, manualAmp),
    (0x33, resistance), (0x35, continuity), (0x31, diode), (0x32, frequencyByJudge),
    (0x36, capacitance), (0x34, temperature), (0x3e, adapter 0), (0x3c, adapter 1),
    (0x38, adapter 2), (0x3a, adapter 3)]

def alternate : List (UInt8 × FunctionCode) :=
  [(0x3f, amp), (0x3e, microAmp), (0x3d, milliAmp), (0x3c, voltage), (0x37, resistance),
    (0x36, continuity), (0x3b, diode), (0x3a, frequency), (0x34, adapter 0), (0x35, adapter 0),
    (0x38, adapter 1), (0x39, adapter 1), (0x32, adapter 2), (0x33, adapter 2),
    (0x30, adapter 3), (0x31, adapter 3)]

/-- The meaning of a byte in one of the two tables. -/
def ofByte? (isAlternate : Bool) (b : UInt8) : Option FunctionCode :=
  (if isAlternate then alternate else standard).lookup b

end FunctionCode

/-! ## The state of the meter -/

/-- Everything one packet says about the meter. -/
structure Annunciators where
  judge : Bool := false
  sign : Bool := false
  batteryLow : Bool := false
  overflow : Bool := false
  underflow : Bool := false
  peakMax : Bool := false
  peakMin : Bool := false
  max : Bool := false
  min : Bool := false
  relative : Bool := false
  rmr : Bool := false
  dc : Bool := false
  ac : Bool := false
  auto : Bool := false
  vahz : Bool := false
  vasel : Bool := false
  vbar : Bool := false
  hold : Bool := false
  lpf0 : Bool := false
  lpf1 : Bool := false
  autoPowerOff : Bool := false
  /-- The leading half digit of a five-digit display. -/
  digit4 : Bool := false
  micro : Bool := false
  milli : Bool := false
  voltage : Bool := false
  current : Bool := false
  resistance : Bool := false
  continuity : Bool := false
  diode : Bool := false
  frequency : Bool := false
  rpm : Bool := false
  dutyCycle : Bool := false
  capacitance : Bool := false
  temperature : Bool := false
  celsius : Bool := false
  fahrenheit : Bool := false
  adapter : Option UInt8 := none
deriving DecidableEq, Repr

def bit (b : UInt8) (i : Nat) : Bool := b.toBitVec.getLsbD i

namespace Annunciators

/-- The status byte. The alternate layout has no judge bit, and either of two bits means overflow. -/
def ofStatus (alternate : Bool) (status : UInt8) : Annunciators :=
  if alternate then
    { sign := bit status 3
      batteryLow := bit status 2
      overflow := bit status 1 || bit status 0 }
  else
    { judge := bit status 3
      sign := bit status 2
      batteryLow := bit status 1
      overflow := bit status 0 }

/-- The four option bytes of a 14-byte packet. The selectable low-pass filter takes one bit more and
moves hold. -/
def withOptions14 (a : Annunciators) (selectableFilter : Bool) (o1 o2 o3 o4 : UInt8) :
    Annunciators :=
  let a := { a with
    max := bit o1 3
    min := bit o1 2
    relative := bit o1 1
    rmr := bit o1 0
    underflow := bit o2 3
    peakMax := bit o2 2
    peakMin := bit o2 1
    dc := bit o3 3
    ac := bit o3 2
    auto := bit o3 1
    vahz := bit o3 0
    vbar := bit o4 2 }
  if selectableFilter then { a with hold := bit o4 3, lpf1 := bit o4 1, lpf0 := bit o4 0 }
  else { a with hold := bit o4 1, lpf1 := bit o4 0 }

/-- The one option byte of the alternate layout. It has no AC bit: what is not DC is AC. -/
def withOptionsAlternate (a : Annunciators) (o2 : UInt8) : Annunciators :=
  { a with dc := bit o2 3, ac := !bit o2 3, auto := bit o2 2, autoPowerOff := bit o2 0 }

/-- The first option byte of an 11-byte packet, which differs from chip to chip. -/
def withFirstOption (a : Annunciators) (profile : Profile) (o1 : UInt8) : Annunciators :=
  if profile.baudRate = 2400 then
    { a with peakMax := bit o1 3, peakMin := bit o1 2, vahz := bit o1 0 }
  else if profile.fiveDigits then
    { a with
      underflow := bit o1 3, peakMax := bit o1 2, peakMin := bit o1 1, digit4 := bit o1 0 }
  else if profile.clampMeter then
    { a with underflow := bit o1 3, vasel := bit o1 2, vbar := bit o1 1 }
  else { a with hold := bit o1 3, max := bit o1 2, min := bit o1 1 }

/-- The second option byte of an 11-byte packet. Its last bit is automatic power-off at 2400 baud
and the V/A frequency selector otherwise. -/
def withSecondOption (a : Annunciators) (profile : Profile) (o2 : UInt8) : Annunciators :=
  let a := { a with dc := bit o2 3, ac := bit o2 2, auto := bit o2 1 }
  if profile.baudRate = 2400 then { a with autoPowerOff := bit o2 0 }
  else { a with vahz := bit o2 0 }

/-- The judge bit turns frequency into duty cycle (14-byte packets) or revolutions (others). -/
def selectFrequencyMode (a : Annunciators) (packetSize : Nat) : Annunciators :=
  if !a.judge then { a with frequency := true }
  else if packetSize = 14 then { a with dutyCycle := true }
  else { a with rpm := true }

def withFunction (a : Annunciators) (packetSize : Nat) : FunctionCode → Annunciators
  | .voltage => { a with voltage := true }
  | .amp => { a with current := true, auto := true }
  | .microAmp => { a with current := true, micro := true, auto := true }
  | .milliAmp => { a with current := true, milli := true, auto := true }
  | .manualAmp => { a with current := true, auto := false }
  | .resistance => { a with resistance := true }
  | .continuity => { a with continuity := true }
  | .diode => { a with diode := true }
  | .frequency => { a with frequency := true }
  | .frequencyByJudge => a.selectFrequencyMode packetSize
  | .capacitance => { a with capacitance := true }
  | .temperature => { a with temperature := true, celsius := a.judge, fahrenheit := !a.judge }
  | .adapter input => { a with adapter := some input }

/-- Reads the option bytes of the format's layout. -/
def readOptions (a : Annunciators) (profile : Profile) (p : Packet) :
    Except Error Annunciators := do
  if profile.packetSize = 14 then
    let o1 ← p.read 8
    let o2 ← p.read 9
    let o3 ← p.read 10
    let o4 ← p.read 11
    return a.withOptions14 profile.selectableFilter o1 o2 o3 o4
  else if profile.alternateFunctions then
    let o2 ← p.read 8
    return a.withOptionsAlternate o2
  else
    let o1 ← p.read 7
    let o2 ← p.read 8
    return (a.withFirstOption profile o1).withSecondOption profile o2

/-- Reads the status, option and function bytes, in this order. An unknown function code lights
nothing. -/
def ofPacket (profile : Profile) (p : Packet) : Except Error Annunciators := do
  let status ← p.status
  let a ← (ofStatus profile.alternateFunctions status).readOptions profile p
  let function ← p.function
  match FunctionCode.ofByte? profile.alternateFunctions function with
  | some code => return a.withFunction profile.packetSize code
  | none => return a

/-! ## Modes -/

def modes (a : Annunciators) : List Bool :=
  [a.voltage, a.current, a.resistance, a.frequency, a.capacitance, a.temperature, a.continuity,
    a.diode, a.rpm, a.dutyCycle]

def modeCount (a : Annunciators) : Nat := a.modes.countP (·)

/-- Rejects a state that contradicts itself. -/
def check (a : Annunciators) : Except Error Unit :=
  if a.micro && a.milli then .error .multipleMultipliers
  else if 1 < a.modeCount then .error (.multipleModes a.modeCount)
  else if a.ac && a.dc then .error .acAndDc
  else .ok ()

/-- The row of the range table for the lit mode; temperature and adapters have none. -/
def rangeRow? (a : Annunciators) : Option RangeRow :=
  if a.voltage then some .voltage
  else if a.current && a.micro then some .microamp
  else if a.current && a.milli then some .milliamp
  else if a.current && a.auto then some .amp
  else if a.current then some .manualAmp
  else if a.rpm then some .rpm
  else if a.resistance || a.continuity then some .resistance
  else if a.frequency then some .frequency
  else if a.capacitance then some .capacitance
  else if a.diode then some .diode
  else if a.dutyCycle then some .dutyCycle
  else none

end Annunciators

end Multimeter.Es519xx
