import Multimeter.Json.Value
import Multimeter.Report.Basic

/-!
# Reports as JSON

Every part of a report is an object with fixed member names. Writing keeps the order of the members
and leaves out what is absent; reading takes the members in any order, ignores unknown ones, refuses
a known one that occurs twice, and takes an array of the values in order as well.

* `Json.fields?`: the values of named members, the reading side shared by all parts.
* `Report.toJson`, `Report.ofJson?`: a whole report, and likewise for each part.
-/

namespace Multimeter

namespace Json

/-! ## Reading members and simple values -/

/-- The values of the members called `names`, `none` where one is absent. An array stands for an
object with these members in order; its last members may be absent. -/
def fields? (names : List String) : Json → Option (List (Option Json))
  | object members =>
    if members.all (fun m => (textOf? m.1).isSome) ∧
        names.all (fun name => members.countP (fun m => m.1 == unitsOf name) ≤ 1) then
      some (names.map fun name => members.lookup (unitsOf name))
    else none
  | array items =>
    if items.length ≤ names.length then
      some (items.map some ++ List.replicate (names.length - items.length) none)
    else none
  | _ => none

def text? : Json → Option String
  | string units => textOf? units
  | _ => none

def bool? : Json → Option Bool
  | bool b => some b
  | _ => none

def int? : Json → Option Int
  | number n => n.toInt?
  | _ => none

/-- A natural number below `2 ^ width`. -/
def nat? (width : Nat) (j : Json) : Option Nat := do
  let n ← j.int?
  if 0 ≤ n ∧ n < (Nat.pow 2 width : Int) then return n.toNat else none

def uint32? (j : Json) : Option UInt32 := (j.nat? 32).map UInt32.ofNat

def uint64? (j : Json) : Option UInt64 := (j.nat? 64).map UInt64.ofNat

def int32? (j : Json) : Option Int32 := do
  let n ← j.int?
  if -0x80000000 ≤ n ∧ n < 0x80000000 then return Int32.ofInt n else none

/-- A 64-bit value in range. -/
def binary64? : Json → Option Binary64
  | number n => n.toBinary64?
  | _ => none

/-- The items of an array, each read by `read`. -/
def list? {α : Type} (read : Json → Option α) : Json → Option (List α)
  | array items => items.mapM read
  | _ => none

/-- The name of a fixed choice: a string, or an object whose only member has the name and no
value. -/
def choice? : Json → Option String
  | string units => textOf? units
  | object [(units, null)] => textOf? units
  | _ => none

/-- A value that may be absent or null. -/
def optional? {α : Type} (read : Json → Option α) : Option Json → Option (Option α)
  | none => some none
  | some null => some none
  | some j => (read j).map some

end Json

namespace Report

/-! ## The parts -/

def Tool.names : List String := ["name", "version"]

def Tool.toJson (t : Tool) : Json :=
  .ofMembers [("name", .ofString t.name), ("version", .ofString t.version)]

def Tool.ofJson? (j : Json) : Option Tool := do
  match ← j.fields? names with
  | [name, version] => return ⟨← name >>= Json.text?, ← version >>= Json.text?⟩
  | _ => none

def Input.names : List String := ["path", "bytes"]

def Input.toJson (i : Input) : Json :=
  .ofMembers [("path", .ofString i.path), ("bytes", .ofNat i.bytes.toNat)]

def Input.ofJson? (j : Json) : Option Input := do
  match ← j.fields? names with
  | [path, bytes] => return ⟨← path >>= Json.text?, ← bytes >>= Json.uint64?⟩
  | _ => none

def Protocol.names : List String := ["name", "family", "baud_rate", "frame_len", "display_digits"]

def Protocol.toJson (p : Protocol) : Json :=
  .ofMembers [
    ("name", .ofString p.name),
    ("family", .ofString p.family.name),
    ("baud_rate", .ofNat p.baudRate.toNat),
    ("frame_len", .ofNat p.frameLength.toNat),
    ("display_digits", .ofNat p.displayDigits.toNat)]

def Protocol.ofJson? (j : Json) : Option Protocol := do
  match ← j.fields? names with
  | [name, family, baudRate, frameLength, displayDigits] =>
    return {
      name := ← name >>= Json.text?
      family := ← family >>= Json.choice? >>= Family.ofName?
      baudRate := ← baudRate >>= Json.uint32?
      frameLength := ← frameLength >>= Json.uint64?
      displayDigits := ← displayDigits >>= Json.uint64? }
  | _ => none

def Counters.names : List String :=
  ["bytes_total", "bytes_skipped", "bytes_trailing", "frames_decoded", "frames_rejected",
    "parity_masked"]

def Counters.toJson (c : Counters) : Json :=
  .ofMembers [
    ("bytes_total", .ofNat c.bytesTotal.toNat),
    ("bytes_skipped", .ofNat c.bytesSkipped.toNat),
    ("bytes_trailing", .ofNat c.bytesTrailing.toNat),
    ("frames_decoded", .ofNat c.framesDecoded.toNat),
    ("frames_rejected", .ofNat c.framesRejected.toNat),
    ("parity_masked", .bool c.parityMasked)]

def Counters.ofJson? (j : Json) : Option Counters := do
  match ← j.fields? names with
  | [total, skipped, trailing, decoded, rejected, masked] =>
    return {
      bytesTotal := ← total >>= Json.uint64?
      bytesSkipped := ← skipped >>= Json.uint64?
      bytesTrailing := ← trailing >>= Json.uint64?
      framesDecoded := ← decoded >>= Json.uint64?
      framesRejected := ← rejected >>= Json.uint64?
      parityMasked := ← masked >>= Json.bool? }
  | _ => none

def qualifiersToJson (s : QualifierSet) : Json := .ofStrings s.names

/-- The qualifiers that a list names. -/
def qualifiersOfJson? (j : Json) : Option QualifierSet := do
  let names ← j.list? Json.text?
  (QualifierSet.ofNames names).toOption

def Measurement.names : List String :=
  ["index", "offset", "kind", "unit", "unit_symbol", "flags", "value", "special", "digits"]

/-- The member with an optional value, if it is there. -/
def member? (name : String) (value : Option Json) : List (String × Json) :=
  (value.map fun j => (name, j)).toList

def Measurement.toJson (m : Measurement) : Json :=
  .ofMembers <|
    [("index", .ofNat m.index.toNat),
      ("offset", .ofNat m.offset.toNat),
      ("kind", .ofString m.quantity.name),
      ("unit", .ofString m.unit.name),
      ("unit_symbol", .ofString m.unitSymbol),
      ("flags", qualifiersToJson m.qualifiers),
      ("value", (m.value.map fun x => .number (.ofBinary64 x)).getD .null)]
    ++ member? "special" (m.special.map .ofString)
    ++ [("digits", .ofInt m.digits.toInt)]

def Measurement.ofJson? (j : Json) : Option Measurement := do
  match ← j.fields? names with
  | [index, offset, quantity, unit, unitSymbol, qualifiers, value, special, digits] =>
    return {
      index := ← index >>= Json.uint64?
      offset := ← offset >>= Json.uint64?
      quantity := ← quantity >>= Json.choice? >>= Quantity.ofName?
      unit := ← unit >>= Json.choice? >>= PhysicalUnit.ofName?
      unitSymbol := ← unitSymbol >>= Json.text?
      qualifiers := ← qualifiers >>= qualifiersOfJson?
      value := ← Json.optional? Json.binary64? value
      special := ← Json.optional? Json.text? special
      digits := ← digits >>= Json.int32? }
  | _ => none

def rejectionNames : List String := ["id", "class", "message", "count", "examples"]

def rejectionToJson (r : RejectionSummary) : Json :=
  .ofMembers <|
    [("id", .ofString r.id),
      ("class", .ofString r.rejectionClass.name),
      ("message", .ofString r.message),
      ("count", .ofNat r.count.toNat)]
    ++ member? "examples" (if r.examples = [] then none else some (.ofStrings r.examples))

def rejectionOfJson? (j : Json) : Option RejectionSummary := do
  match ← j.fields? rejectionNames with
  | [id, rejectionClass, message, count, examples] =>
    return {
      id := ← id >>= Json.text?
      rejectionClass := ← rejectionClass >>= Json.choice? >>= RejectionClass.ofName?
      message := ← message >>= Json.text?
      count := ← count >>= Json.uint64?
      examples := ← (examples.map (Json.list? Json.text?)).getD (some []) }
  | _ => none

/-! ## The whole report -/

def names : List String :=
  ["report_version", "tool", "generated_at", "input", "protocol", "capture_summary",
    "measurements", "rejections"]

def toJson (r : Report) : Json :=
  .ofMembers <|
    [("report_version", .ofNat r.version.toNat),
      ("tool", r.tool.toJson),
      ("generated_at", .ofString r.generatedAt),
      ("input", r.input.toJson),
      ("protocol", r.protocol.toJson)]
    ++ member? "capture_summary" (r.counters.map Counters.toJson)
    ++ [("measurements", .array (r.measurements.map Measurement.toJson)),
      ("rejections", .array (r.rejections.map rejectionToJson))]

def ofJson? (j : Json) : Option Report := do
  match ← j.fields? names with
  | [version, tool, generatedAt, input, protocol, counters, measurements, rejections] =>
    return {
      version := ← version >>= Json.uint32?
      tool := ← tool >>= Tool.ofJson?
      generatedAt := ← generatedAt >>= Json.text?
      input := ← input >>= Input.ofJson?
      protocol := ← protocol >>= Protocol.ofJson?
      counters := ← Json.optional? Counters.ofJson? counters
      measurements := ← measurements >>= Json.list? Measurement.ofJson?
      rejections := ← rejections >>= Json.list? rejectionOfJson? }
  | _ => none

end Report

end Multimeter
