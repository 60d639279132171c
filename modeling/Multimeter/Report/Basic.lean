import Multimeter.Measurement.Reading
import Multimeter.Scanner
import Multimeter.Tally

/-!
# Reports

What the analysis of a capture says: which tool read which input in which wire format, the scanner's
counters, all readings in stream order and the rejections.

* `Report` and its parts.
* `Report.Measurement.ofReading`: a reading as it stands in a report.
* `Report.stub`: a report without results.
* `Report.rejectedCount`: the number of rejected frames.
-/

namespace Multimeter

structure Report.Tool where
  name : String
  version : String
deriving DecidableEq, Repr

/-- The capture that was read: its path as given and its size. -/
structure Report.Input where
  path : String
  bytes : UInt64
deriving DecidableEq, Repr

/-- The wire format that the capture was read as. -/
structure Report.Protocol where
  name : String
  family : Family
  baudRate : UInt32
  frameLength : UInt64
  displayDigits : UInt64
deriving DecidableEq, Repr

/-- The scanner's counters at the end of the capture. -/
structure Report.Counters where
  bytesTotal : UInt64
  bytesSkipped : UInt64
  /-- Bytes at the end that form no complete frame. -/
  bytesTrailing : UInt64
  framesDecoded : UInt64
  framesRejected : UInt64
  parityMasked : Bool
deriving DecidableEq, Repr

/-- A reading in a report. A value that is no finite number is absent and named by `special`. -/
structure Report.Measurement where
  index : UInt64
  offset : UInt64
  quantity : Quantity
  unit : PhysicalUnit
  unitSymbol : String
  qualifiers : QualifierSet
  value : Option Binary64
  special : Option String
  digits : Int32
deriving DecidableEq, Repr

structure Report where
  version : UInt32
  tool : Report.Tool
  /-- When the capture was last modified, as text. -/
  generatedAt : String
  input : Report.Input
  protocol : Report.Protocol
  counters : Option Report.Counters
  measurements : List Report.Measurement
  rejections : List RejectionSummary
deriving DecidableEq, Repr

namespace Report

/-- The name of a value that is no finite number. -/
def specialName? (x : Binary64) : Option String :=
  if x.isNaN then some "nan"
  else if x.isInfinite then some (if x.isNegative then "-inf" else "inf")
  else none

/-- A reading as it stands in a report. -/
def Measurement.ofReading (index offset : UInt64) (r : Reading) : Measurement where
  index := index
  offset := offset
  quantity := r.quantity
  unit := r.unit
  unitSymbol := r.unit.symbol
  qualifiers := r.qualifiers
  value := if (specialName? r.value).isSome then none else some r.value
  special := specialName? r.value
  digits := r.digits

/-- The reading that a measurement stands for; a NaN has lost its payload. -/
def Measurement.toReading (m : Measurement) : Reading where
  quantity := m.quantity
  unit := m.unit
  qualifiers := m.qualifiers
  value :=
    m.value.getD
      (if m.special = some "inf" then .infinity
      else if m.special = some "-inf" then .negInfinity
      else .notNumber)
  digits := m.digits

/-- What a report says about a wire format. -/
def Protocol.ofVariant (v : Variant) : Protocol where
  name := v.name
  family := v.profile.family
  baudRate := v.profile.baudRate
  frameLength := UInt64.ofNat v.profile.frameLength
  displayDigits := UInt64.ofNat v.profile.digitCount

/-- The version of the report format. -/
def currentVersion : UInt32 := 1

def thisTool : Tool := ⟨"dmmwire", "0.1.0"⟩

/-- The time of a report whose capture has none. -/
def defaultTime : String := "1970-01-01T00:00:00Z"

def stub (path : String) (bytes : UInt64) : Report where
  version := currentVersion
  tool := thisTool
  generatedAt := defaultTime
  input := ⟨path, bytes⟩
  protocol := .ofVariant .bm25x
  counters := none
  measurements := []
  rejections := []

/-- The number of rejected frames that the rejections add up to. -/
def rejectedCount (r : Report) : UInt64 := r.rejections.foldl (fun count s => count + s.count) 0

end Report

end Multimeter
