import Multimeter.Protocol.RangeTable
import Multimeter.Text.Blank

/-!
# Wire formats

The closed list of wire formats. Each format owns a profile: packet and frame size, baud rate,
layout switches and range table.

* `Variant`, `Variant.all`: the eight formats, in listing order.
* `Variant.profile`: the fixed parameters of a format.
* `Variant.ofName`: the format with a given name, blanks at the ends and letter case ignored.
-/

namespace Multimeter

inductive Family where
  /-- Segment packets: the bits of an LCD. -/
  | bm25x
  /-- Digit packets: ASCII digits. -/
  | es519xx
deriving DecidableEq, Repr

namespace Family

def name : Family → String
  | bm25x => "bm25x"
  | es519xx => "es519xx"

def ofName? (s : String) : Option Family := [bm25x, es519xx].find? (·.name == s)

@[simp] theorem ofName?_name (f : Family) : ofName? f.name = some f := by cases f <;> decide

end Family

inductive Variant where
  /-- Segment packets of 15 bytes at 9600 baud. -/
  | bm25x
  /-- 11-byte digit packets at 2400 baud. -/
  | slow11
  /-- 11-byte digit packets at 2400 baud with the alternate function codes. -/
  | slow11Alternate
  /-- 11-byte digit packets at 19200 baud with a leading half digit. -/
  | fast11FiveDigits
  /-- 11-byte digit packets at 19200 baud from clamp meters. -/
  | fast11Clamp
  /-- 11-byte digit packets at 19200 baud. -/
  | fast11
  /-- 14-byte digit packets at 19200 baud. -/
  | fast14
  /-- 14-byte digit packets at 19200 baud with a selectable low-pass filter. -/
  | fast14SelectableFilter
deriving DecidableEq, Repr

structure Profile where
  family : Family
  /-- The stable name on the command line and in reports. -/
  name : String
  description : String
  /-- Chips or meters known to speak the format. -/
  chips : List String
  baudRate : UInt32
  packetSize : Nat
  /-- The bytes of one display update: twice the packet where every packet is sent twice. -/
  frameLength : Nat
  fiveDigits : Bool
  clampMeter : Bool
  alternateFunctions : Bool
  selectableFilter : Bool
  rangeTable : Option RangeTable
deriving DecidableEq, Repr

namespace Profile

/-- Whether every packet is sent twice back to back. -/
def isRepeated (p : Profile) : Bool := p.frameLength == 2 * p.packetSize

/-- The number of digit places on the display that the packet carries. -/
def digitCount (p : Profile) : Nat :=
  match p.family with
  | .bm25x => 4
  | .es519xx => if p.packetSize == 14 then 5 else 4

end Profile

/-- A name that no wire format has. -/
structure UnknownVariant where
  name : String
deriving DecidableEq, Repr

def UnknownVariant.message (e : UnknownVariant) : String :=
  "unknown protocol variant '" ++ e.name ++ "'"

namespace Variant

/-- All formats, in listing order. -/
def all : List Variant :=
  [bm25x, slow11, slow11Alternate, fast11FiveDigits, fast11Clamp, fast11, fast14,
    fast14SelectableFilter]

def profile : Variant → Profile
  | bm25x =>
    { family := .bm25x
      name := "bm25x"
      description := "Brymen BM25x LCD segment stream"
      chips := ["BM251", "BM252", "BM253", "BM255", "BM257", "BM257s"]
      baudRate := 9600
      packetSize := 15
      frameLength := 15
      fiveDigits := false
      clampMeter := false
      alternateFunctions := false
      selectableFilter := false
      rangeTable := none }
  | slow11 =>
    { family := .es519xx
      name := "es519xx-2400-11b"
      description := "Cyrustek ES519XX, 2400 baud, 11 byte packets"
      chips := ["ES51962", "ES51971", "ES51972", "ES51978", "ES51989"]
      baudRate := 2400
      packetSize := 11
      frameLength := 22
      fiveDigits := false
      clampMeter := false
      alternateFunctions := false
      selectableFilter := false
      rangeTable := some .slow11 }
  | slow11Alternate =>
    { family := .es519xx
      name := "es519xx-2400-11b-altfn"
      description :=
        "Cyrustek ES519XX, 2400 baud, 11 byte packets, alternate function codes"
      chips := ["ES51960", "ES51977", "ES51988"]
      baudRate := 2400
      packetSize := 11
      frameLength := 22
      fiveDigits := false
      clampMeter := false
      alternateFunctions := true
      selectableFilter := false
      rangeTable := some .slow11 }
  | fast11FiveDigits =>
    { family := .es519xx
      name := "es519xx-19200-11b-5digits"
      description := "Cyrustek ES519XX, 19200 baud, 11 byte packets, 5 digit display"
      chips := ["ES51911", "ES51916", "ES51918"]
      baudRate := 19200
      packetSize := 11
      frameLength := 22
      fiveDigits := true
      clampMeter := false
      alternateFunctions := false
      selectableFilter := false
      rangeTable := some .fast11FiveDigits }
  | fast11Clamp =>
    { family := .es519xx
      name := "es519xx-19200-11b-clamp"
      description := "Cyrustek ES519XX, 19200 baud, 11 byte packets, clamp meter"
      chips := ["ES51967", "ES51969"]
      baudRate := 19200
      packetSize := 11
      frameLength := 22
      fiveDigits := false
      clampMeter := true
      alternateFunctions := false
      selectableFilter := false
      rangeTable := some .fast11Clamp }
  | fast11 =>
    { family := .es519xx
      name := "es519xx-19200-11b"
      description := "Cyrustek ES519XX, 19200 baud, 11 byte packets"
      chips := ["ES51981", "ES51982", "ES51983", "ES51984", "ES51986"]
      baudRate := 19200
      packetSize := 11
      frameLength := 22
      fiveDigits := false
      clampMeter := false
      alternateFunctions := false
      selectableFilter := false
      rangeTable := some .fast11 }
  | fast14 =>
    { family := .es519xx
      name := "es519xx-19200-14b"
      description := "Cyrustek ES519XX, 19200 baud, 14 byte packets"
      chips := ["ES51921", "ES51922"]
      baudRate := 19200
      packetSize := 14
      frameLength := 14
      fiveDigits := false
      clampMeter := false
      alternateFunctions := false
      selectableFilter := false
      rangeTable := some .fast14 }
  | fast14SelectableFilter =>
    { family := .es519xx
      name := "es519xx-19200-14b-sel-lpf"
      description :=
        "Cyrustek ES519XX, 19200 baud, 14 byte packets, selectable low-pass filter"
      chips := ["ES51931", "ES51932"]
      baudRate := 19200
      packetSize := 14
      frameLength := 14
      fiveDigits := false
      clampMeter := false
      alternateFunctions := false
      selectableFilter := true
      rangeTable := some .fast14 }

def name (v : Variant) : String := v.profile.name

def frameLength (v : Variant) : Nat := v.profile.frameLength

theorem frameLength_pos (v : Variant) : 0 < v.frameLength := by cases v <;> decide

/-- The format with a given name; blanks at the ends and the case of ASCII letters do not count. -/
def ofName (s : String) : Except UnknownVariant Variant :=
  let wanted := String.ofList ((Text.strip s.toList).map Char.toLower)
  match all.find? (·.name == wanted) with
  | some v => .ok v
  | none => .error ⟨s⟩

end Variant

end Multimeter
