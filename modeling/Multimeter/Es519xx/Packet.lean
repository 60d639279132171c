import Multimeter.Protocol.Error

/-!
# Digit packets

A digit packet of 11 or 14 bytes holds a range byte, four or five ASCII digits, a function byte, a
status byte, option bytes and CR LF. The 11-byte packets are sent twice. A packet is read at any
length; reading past its end is an error that names the length needed.

* `Packet.checkFraming`: length, equal copies and terminator.
* `Packet.digits`, `Packet.rangeIndex`, `Packet.function`, `Packet.status`: the fields.
-/

namespace Multimeter.Es519xx

/-- The bytes of a frame, read with the layout of packets of `size` bytes. -/
structure Packet where
  bytes : List UInt8
  size : Nat
deriving DecidableEq, Repr

namespace Packet

/-- Carriage return, the first byte of the terminator. -/
def carriageReturn : UInt8 := 13

/-- Line feed, the second byte of the terminator. -/
def lineFeed : UInt8 := 10

def digitCount (p : Packet) : Nat := if p.size = 14 then 5 else 4

/-- The function byte follows the digits. -/
def functionOffset (p : Packet) : Nat := 1 + p.digitCount

/-- The status byte follows the function byte. -/
def statusOffset (p : Packet) : Nat := p.functionOffset + 1

def read (p : Packet) (offset : Nat) : Except Error UInt8 :=
  match p.bytes[offset]? with
  | some b => .ok b
  | none => .error (.invalidLength (offset + 1) p.bytes.length)

/-- Checks that there are exactly `needed` bytes. -/
def checkLength (p : Packet) (needed : Nat) : Except Error Unit :=
  if p.bytes.length = needed then .ok () else .error (.invalidLength needed p.bytes.length)

/-- Checks that the packet is there twice and that the copies agree. -/
def checkRepeated (p : Packet) : Except Error Unit := do
  p.checkLength (2 * p.size)
  match (List.range p.size).find? fun i => p.bytes[i]? ≠ p.bytes[p.size + i]? with
  | some i => throw (.duplicateMismatch i)
  | none => return

/-- Checks that the byte at an offset is the one that terminates a packet there. -/
def checkByte (p : Packet) (offset : Nat) (expected : UInt8) : Except Error Unit := do
  let value ← p.read offset
  if value = expected then return else throw (.missingTerminator offset value)

def checkTerminator (p : Packet) : Except Error Unit := do
  p.checkByte (p.size - 2) carriageReturn
  p.checkByte (p.size - 1) lineFeed

/-- Checks the length, where packets are `repeated` the copies, and the terminator. -/
def checkFraming (p : Packet) (repeated : Bool) : Except Error Unit := do
  if repeated then p.checkRepeated else p.checkLength p.size
  p.checkTerminator

def function (p : Packet) : Except Error UInt8 := p.read p.functionOffset

def status (p : Packet) : Except Error UInt8 := p.read p.statusOffset

def isDigit (b : UInt8) : Bool := 48 ≤ b && b ≤ 57

def digit (p : Packet) (offset : Nat) : Except Error UInt8 := do
  let value ← p.read offset
  if isDigit value then return value - 48 else throw (.invalidDigit offset value)

def digits (p : Packet) : Except Error (List UInt8) :=
  (List.range' 1 p.digitCount).mapM p.digit

/-- The number of the range, from the ASCII digits `0` to `7`. -/
def rangeIndex (p : Packet) : Except Error Nat := do
  let value ← p.read 0
  if 48 ≤ value && value ≤ 55 then return (value - 48).toNat else throw (.invalidRange value)

end Packet

end Multimeter.Es519xx
