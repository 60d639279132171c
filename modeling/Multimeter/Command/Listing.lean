import Multimeter.Command.Outcome
import Multimeter.Protocol.Variant

/-!
# Listing the wire formats

* `Command.listing`: two lines for each wire format: its name and sizes in columns, then what speaks
  it.
-/

namespace Multimeter.Command

/-- A text with blanks behind it up to a width. -/
def padRight (width : Nat) (text : String) : String :=
  String.ofList (text.toList.rightpad width ' ')

/-- A number with blanks before it up to a width. -/
def padLeft (width n : Nat) : String := String.ofList ((Nat.toDigits 10 n).leftpad width ' ')

def profileLines (p : Profile) : String :=
  s!"{padRight 28 p.name} {padLeft 5 p.baudRate.toNat} baud  {padLeft 2 p.frameLength} byte frames"
    ++ s!"  {p.digitCount} digits\n    {p.description} ("
    ++ ", ".intercalate p.chips ++ ")\n"

def listing : Outcome where
  output := String.join (Variant.all.map fun v => profileLines v.profile)

end Multimeter.Command
