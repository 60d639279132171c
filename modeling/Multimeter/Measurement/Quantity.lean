/-!
# Quantities and units

What a meter measures and in which unit the reading is given. Reports write both by name, and the
unit also by its symbol.

* `Quantity`, `PhysicalUnit`: the two closed lists, with `name`, `ofName?` and `symbol`.
-/

namespace Multimeter

inductive Quantity where
  | voltage
  | current
  | resistance
  | capacitance
  | frequency
  | temperature
  | continuity
  | dutyCycle
  | rpm
  /-- A number without a unit: no mode annunciator is lit. -/
  | gain
  | diode
deriving DecidableEq, Repr

namespace Quantity

def all : List Quantity :=
  [voltage, current, resistance, capacitance, frequency, temperature, continuity, dutyCycle, rpm,
    gain, diode]

def name : Quantity → String
  | voltage => "voltage"
  | current => "current"
  | resistance => "resistance"
  | capacitance => "capacitance"
  | frequency => "frequency"
  | temperature => "temperature"
  | continuity => "continuity"
  | dutyCycle => "duty_cycle"
  | rpm => "rpm"
  | gain => "gain"
  | diode => "diode"

def ofName? (s : String) : Option Quantity := all.find? (·.name == s)

@[simp] theorem ofName?_name (q : Quantity) : ofName? q.name = some q := by cases q <;> decide

end Quantity

inductive PhysicalUnit where
  | volt
  | ampere
  | ohm
  | farad
  | hertz
  | celsius
  | fahrenheit
  /-- Closed (one) or open (zero). -/
  | boolean
  | percentage
  | revolutionsPerMinute
  | unitless
deriving DecidableEq, Repr

namespace PhysicalUnit

def all : List PhysicalUnit :=
  [volt, ampere, ohm, farad, hertz, celsius, fahrenheit, boolean, percentage,
    revolutionsPerMinute, unitless]

def name : PhysicalUnit → String
  | volt => "volt"
  | ampere => "ampere"
  | ohm => "ohm"
  | farad => "farad"
  | hertz => "hertz"
  | celsius => "celsius"
  | fahrenheit => "fahrenheit"
  | boolean => "boolean"
  | percentage => "percentage"
  | revolutionsPerMinute => "revolutions_per_minute"
  | unitless => "unitless"

/-- The symbol written behind a number, empty for truth values and plain numbers. -/
def symbol : PhysicalUnit → String
  | volt => "V"
  | ampere => "A"
  | ohm => "Ω"
  | farad => "F"
  | hertz => "Hz"
  | celsius => "°C"
  | fahrenheit => "°F"
  | boolean => ""
  | percentage => "%"
  | revolutionsPerMinute => "RPM"
  | unitless => ""

def ofName? (s : String) : Option PhysicalUnit := all.find? (·.name == s)

@[simp] theorem ofName?_name (u : PhysicalUnit) : ofName? u.name = some u := by cases u <;> decide

end PhysicalUnit

end Multimeter
