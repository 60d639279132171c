import Multimeter.Binary64
import Multimeter.Measurement.Quantity
import Multimeter.Measurement.Qualifier

/-!
# Readings

One decoded display update.

* `Reading`: quantity, unit, qualifiers, value and shown decimals.
* `Reading.equals`: equality with numeric comparison of the values, beside the exact `=`.
-/

namespace Multimeter

/-- One decoded display update. The value is NaN when the display is unreadable and infinite when
the meter is over range; `digits` counts the shown decimals in the base unit. -/
structure Reading where
  quantity : Quantity
  unit : PhysicalUnit
  qualifiers : QualifierSet
  value : Binary64
  digits : Int32
deriving DecidableEq, Repr

namespace Reading

/-- Whether the meter signalled over-range or an open circuit. -/
def isOverRange (r : Reading) : Bool := r.value.isInfinite

/-- Equality of all parts, the values compared as numbers. -/
def equals (r s : Reading) : Bool :=
  r.quantity == s.quantity && r.unit == s.unit && r.qualifiers == s.qualifiers &&
    r.value.equals s.value && r.digits == s.digits

end Reading

end Multimeter
