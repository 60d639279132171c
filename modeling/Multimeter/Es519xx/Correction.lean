import Multimeter.Es519xx.Annunciators

/-!
# Corrections

Some meters light annunciators that do not say what they measure. A correction pairs a condition
with the state that is meant; corrections are tried in order, each on the state that the earlier
ones left.

* `Correction`, `Correction.all`: the three corrections.
* `Annunciators.corrected`: the state after all of them.
-/

namespace Multimeter.Es519xx

/-- A condition on the state and the state that is meant when it holds. -/
structure Correction where
  name : String
  applies : Profile → Annunciators → Bool
  apply : Profile → Annunciators → Annunciators

namespace Correction

/-- With the V/A frequency selector lit, a voltage or current display shows the frequency of the
signal. -/
def selectorFrequency : Correction where
  name := "vahz-frequency"
  applies _ a := a.vahz && (a.voltage || a.current)
  apply profile a :=
    { a with voltage := false, current := false, milli := false, micro := false }
      |>.selectFrequencyMode profile.packetSize

/-- Clamp meters report their voltage range on the codes of small currents. -/
def selectorVoltage : Correction where
  name := "vasel-voltage"
  applies _ a := a.current && (a.micro || a.milli) && a.vasel
  apply _ a := { a with current := false, auto := false, voltage := true }

/-- Chips at 2400 baud exchange milliampere and ampere and have no manual ampere range. -/
def slowCurrent : Correction where
  name := "2400-baud-current"
  applies profile a := profile.baudRate == 2400 && a.current && (a.milli || !a.auto)
  apply _ a := { a with milli := !a.milli, auto := true }

/-- The corrections, in the order in which they are tried. -/
def all : List Correction := [selectorFrequency, selectorVoltage, slowCurrent]

end Correction

def Annunciators.corrected (a : Annunciators) (profile : Profile) : Annunciators :=
  Correction.all.foldl (fun a c => if c.applies profile a then c.apply profile a else a) a

end Multimeter.Es519xx
