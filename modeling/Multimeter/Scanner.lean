import Multimeter.Frame

/-!
# Scanning a byte stream

A scanner finds frames in a stream that arrives in chunks. It keeps the bytes that may still become
a frame. A window that is not aligned is dropped by one byte; an aligned window is consumed whole,
whether it decodes or not.

* `ScanEvent`, `ScanStats`: what a scanner reports and counts.
* `drain`: all frames of a list of bytes, and the bytes left over.
* `Scanner.push`: feeding one chunk.
-/

namespace Multimeter

/-- One frame found in a stream, by the offset of its first byte. -/
inductive ScanEvent where
  | measurement (offset : Nat) (reading : Reading)
  | rejected (offset : Nat) (error : PacketError)
deriving DecidableEq, Repr

def ScanEvent.offset : ScanEvent → Nat
  | measurement offset _ => offset
  | rejected offset _ => offset

/-- The counters of a scanner, as exact numbers. None of them passes the number of bytes fed, and
neither does an offset: in a stream below `2 ^ 64` bytes each is the value of a 64-bit counter. -/
structure ScanStats where
  bytesTotal : Nat := 0
  /-- Bytes dropped while searching for an aligned frame. -/
  bytesSkipped : Nat := 0
  framesDecoded : Nat := 0
  framesRejected : Nat := 0
deriving DecidableEq, Repr

/-- What `drain` finds: the events in order, the counters that grew, and the bytes left over. -/
structure Drained where
  events : List ScanEvent
  skipped : Nat
  decoded : Nat
  rejected : Nat
  rest : List UInt8
deriving DecidableEq, Repr

/-- The frames in `bytes`, the first of which lies at `offset` of the stream. -/
def drain (v : Variant) (offset : Nat) (bytes : List UInt8) : Drained :=
  if _short : (bytes.take v.frameLength).length < v.frameLength then ⟨[], 0, 0, 0, bytes⟩
  else
    match v.checkFraming (bytes.take v.frameLength) with
    | .error _ =>
      let later := drain v (offset + 1) (bytes.drop 1)
      { later with skipped := later.skipped + 1 }
    | .ok _ =>
      let later := drain v (offset + v.frameLength) (bytes.drop v.frameLength)
      match v.decode (bytes.take v.frameLength) with
      | .ok reading =>
        { later with
          events := .measurement offset reading :: later.events
          decoded := later.decoded + 1 }
      | .error error =>
        { later with
          events := .rejected offset error :: later.events
          rejected := later.rejected + 1 }
termination_by bytes.length
decreasing_by
  all_goals
    have := v.frameLength_pos
    simp only [List.length_take] at _short
    simp only [List.length_drop]
    omega

structure Scanner where
  variant : Variant
  /-- Whether bit 7 of every byte is cleared, for cables that use it as parity. -/
  maskParity : Bool
  /-- The bytes kept because they may begin a frame. -/
  buffer : List UInt8 := []
  /-- The stream offset of the first kept byte. -/
  bufferOffset : Nat := 0
  stats : ScanStats := {}
deriving DecidableEq, Repr

namespace Scanner

def mask (maskParity : Bool) (b : UInt8) : UInt8 := if maskParity then b &&& 0x7f else b

/-- The number of bytes that wait for the rest of a frame. -/
def pending (s : Scanner) : Nat := s.buffer.length

/-- Feeds a chunk; returns the scanner afterwards and the events that the chunk completes. Counters
and the offset are those of 64-bit counters as long as the stream stays below `2 ^ 64` bytes. -/
def push (s : Scanner) (chunk : List UInt8) : Scanner × List ScanEvent :=
  let bytes := s.buffer ++ chunk.map (mask s.maskParity)
  let found := drain s.variant s.bufferOffset bytes
  ({ s with
      buffer := found.rest
      bufferOffset := s.bufferOffset + (bytes.length - found.rest.length)
      stats :=
        { bytesTotal := s.stats.bytesTotal + chunk.length
          bytesSkipped := s.stats.bytesSkipped + found.skipped
          framesDecoded := s.stats.framesDecoded + found.decoded
          framesRejected := s.stats.framesRejected + found.rejected } },
    found.events)

end Scanner

end Multimeter
