import Multimeter.Protocol.Error

/-!
# Segment packets

A segment packet has fifteen bytes: a sync byte, then bytes whose high nibble counts their own
position and whose low nibbles carry the segments of an LCD. A packet is read at any length: bytes
past its end read as zero and lamps there are dark.

* `Lamp`: one annunciator bit.
* `Packet.checkFraming`: length, sync byte and counters.
* `Packet.glyph?`: the character in a digit place, from its seven segments.
* `Packet.point`, `Packet.unitScales`, `Packet.isNegative`: the other annunciators.
-/

namespace Multimeter.Bm25x

structure Packet where
  bytes : List UInt8
deriving DecidableEq, Repr

structure Lamp where
  offset : Nat
  bit : Nat
deriving DecidableEq, Repr

namespace Lamp

def sign : Lamp := ⟨3, 0⟩

def autorange : Lamp := ⟨1, 3⟩
def dc : Lamp := ⟨1, 2⟩
def ac : Lamp := ⟨1, 1⟩
def relative : Lamp := ⟨1, 0⟩
def hold : Lamp := ⟨11, 3⟩
def max : Lamp := ⟨13, 3⟩
def min : Lamp := ⟨14, 3⟩

def voltage : Lamp := ⟨14, 2⟩
def current : Lamp := ⟨14, 1⟩
def resistance : Lamp := ⟨12, 2⟩
def capacitance : Lamp := ⟨13, 2⟩
def frequency : Lamp := ⟨12, 1⟩

/-- The lamps that name what is measured. -/
def modes : List Lamp := [voltage, current, resistance, capacitance, frequency]

/-- The lamps that scale the unit, each with its decimal exponent: mega, kilo, milli, micro, nano.
When several are lit the first counts. -/
def unitScales : List (Lamp × Int) :=
  [(⟨11, 1⟩, 6), (⟨11, 0⟩, 3), (⟨13, 0⟩, -3), (⟨13, 1⟩, -6), (⟨12, 0⟩, -9)]

/-- The decimal point with number `i`, for `i` from 1 to 3; it stands left of digit `4 - i`. -/
def point (i : Nat) : Lamp := ⟨11 - 2 * i, 0⟩

end Lamp

/-- A character in one digit place of the LCD. -/
inductive Glyph where
  | digit (value : UInt8)
  | blank
  | minus
  | l
  | c
  | f
  | e
  | n
  | r
deriving DecidableEq, Repr

namespace Glyph

def patterns : List (UInt8 × Glyph) :=
  [(0xbe, .digit 0), (0xa0, .digit 1), (0xda, .digit 2), (0xf8, .digit 3), (0xe4, .digit 4),
    (0x7c, .digit 5), (0x7e, .digit 6), (0xa8, .digit 7), (0xfe, .digit 8), (0xfc, .digit 9),
    (0x00, .blank), (0x40, .minus), (0x16, .l), (0x1e, .c), (0x4e, .f), (0x5e, .e), (0x62, .n),
    (0x42, .r)]

def ofCode? (code : UInt8) : Option Glyph := patterns.lookup code

def digit? : Glyph → Option UInt8
  | digit value => some value
  | _ => none

end Glyph

inductive DecimalPoint where
  | dark
  /-- Exactly the point with this number, from 1 to 3. -/
  | lit (i : Nat)
  | several
deriving DecidableEq, Repr

namespace Packet

/-- The bytes of a whole packet. -/
def size : Nat := 15

def syncByte : UInt8 := 0x02

def digitCount : Nat := 4

/-- The byte at an offset, zero past the end. -/
def byte (p : Packet) (offset : Nat) : UInt8 := p.bytes[offset]?.getD 0

/-- Whether a lamp is lit; past the end all are dark. -/
def isLit (p : Packet) (lamp : Lamp) : Bool := (p.byte lamp.offset).toBitVec.getLsbD lamp.bit

/-- Checks the length, then the sync byte, then that each later byte counts its position. -/
def checkFraming (p : Packet) : Except Error Unit :=
  if p.bytes.length ≠ size then .error (.invalidLength size p.bytes.length)
  else if p.byte 0 ≠ syncByte then .error (.invalidSync (p.byte 0))
  else
    match (List.range' 1 (size - 1)).find? fun i => (p.byte i).toNat / 16 ≠ i with
    | some i => .error (.counterMismatch i (p.byte i))
    | none => .ok ()

/-- The seven segments of digit place `i`: three in the low nibble of one byte, four in that of the
next. -/
def segmentCode (p : Packet) (i : Nat) : UInt8 :=
  (p.byte (3 + 2 * i) &&& (0x0e : UInt8)) ||| (p.byte (4 + 2 * i) <<< (4 : UInt8))

/-- The character in digit place `i`, if its segments form one. -/
def glyph? (p : Packet) (i : Nat) : Option Glyph := Glyph.ofCode? (p.segmentCode i)

def litPoints (p : Packet) : List Nat := [1, 2, 3].filter fun i => p.isLit (.point i)

def point (p : Packet) : DecimalPoint :=
  match p.litPoints with
  | [] => .dark
  | [i] => .lit i
  | _ => .several

/-- The lit lamps that scale the unit, with their exponents. -/
def litScales (p : Packet) : List (Lamp × Int) := Lamp.unitScales.filter fun s => p.isLit s.1

/-- The decimal exponent of the scaled unit, 0 when no such lamp is lit. -/
def unitExponent (p : Packet) : Int := (p.litScales.head?.map Prod.snd).getD 0

def modeCount (p : Packet) : Nat := Lamp.modes.countP p.isLit

def isNegative (p : Packet) : Bool := p.isLit .sign

end Packet

end Multimeter.Bm25x
