import Multimeter.Protocol.Variant
import Multimeter.Text.HexByte

/-!
# Packet errors

Why a packet is rejected. Each family has its own causes; reasons and classes are shared.

* `Bm25x.Error`, `Es519xx.Error`, `PacketError`: the causes, with their texts.
* `RejectionReason`: the stable reason of a cause, with its identifier, summary and class.
-/

namespace Multimeter

inductive Bm25x.Error where
  | invalidLength (expected actual : Nat)
  | invalidSync (value : UInt8)
  | counterMismatch (offset : Nat) (value : UInt8)
  | multipleModes (count : Nat)
  | multiplePrefixes (count : Nat)
  | acAndDc
deriving DecidableEq, Repr

inductive Es519xx.Error where
  | invalidLength (expected actual : Nat)
  | duplicateMismatch (offset : Nat)
  | missingTerminator (offset : Nat) (value : UInt8)
  | multipleMultipliers
  | multipleModes (count : Nat)
  | acAndDc
  | invalidDigit (offset : Nat) (value : UInt8)
  | invalidRange (value : UInt8)
  | unsupportedMode (function : UInt8)
deriving DecidableEq, Repr

inductive PacketError where
  | bm25x (e : Bm25x.Error)
  | es519xx (e : Es519xx.Error)
deriving DecidableEq, Repr

/-- The broad reasons, in reporting order. -/
inductive RejectionClass where
  /-- Length, sync byte, counters, repeated copy or terminator. -/
  | framing
  /-- Annunciators that contradict each other. -/
  | conflict
  /-- Display or range bytes that give no value. -/
  | decode
deriving DecidableEq, Repr

namespace RejectionClass

def name : RejectionClass → String
  | framing => "framing"
  | conflict => "conflict"
  | decode => "decode"

/-- The place in the reporting order. -/
def rank : RejectionClass → Nat
  | framing => 0
  | conflict => 1
  | decode => 2

def ofName? (s : String) : Option RejectionClass :=
  [framing, conflict, decode].find? (·.name == s)

@[simp] theorem ofName?_name (c : RejectionClass) : ofName? c.name = some c := by
  cases c <;> decide

end RejectionClass

/-- The stable reasons under which rejections are counted. -/
inductive RejectionReason where
  | frameCounter
  | frameLength
  | frameRepeat
  | frameSync
  | frameTerminator
  | acAndDc
  | multipleModes
  | multipleMultipliers
  | multiplePrefixes
  | valueDigit
  | valueMode
  | valueRange
deriving DecidableEq, Repr

namespace RejectionReason

def id : RejectionReason → String
  | frameCounter => "DMM-FRAME-COUNTER"
  | frameLength => "DMM-FRAME-LENGTH"
  | frameRepeat => "DMM-FRAME-REPEAT"
  | frameSync => "DMM-FRAME-SYNC"
  | frameTerminator => "DMM-FRAME-TERMINATOR"
  | acAndDc => "DMM-FLAGS-AC-DC"
  | multipleModes => "DMM-FLAGS-MULTIPLE-MODES"
  | multipleMultipliers => "DMM-FLAGS-MULTIPLE-MULTIPLIERS"
  | multiplePrefixes => "DMM-FLAGS-MULTIPLE-PREFIXES"
  | valueDigit => "DMM-VALUE-DIGIT"
  | valueMode => "DMM-VALUE-MODE"
  | valueRange => "DMM-VALUE-RANGE"

/-- The fixed description, without details of a packet. -/
def summary : RejectionReason → String
  | frameCounter => "byte counter nibble out of sequence"
  | frameLength => "frame length does not match the protocol"
  | frameRepeat => "repeated packet copy differs"
  | frameSync => "sync byte missing"
  | frameTerminator => "CR LF terminator missing"
  | acAndDc => "AC and DC both active"
  | multipleModes => "more than one measurement mode active"
  | multipleMultipliers => "more than one multiplier active"
  | multiplePrefixes => "more than one unit prefix active"
  | valueDigit => "display digit is not a decimal digit"
  | valueMode => "measurement mode has no exponent table"
  | valueRange => "range byte outside the exponent table"

def toClass : RejectionReason → RejectionClass
  | frameCounter | frameLength | frameRepeat | frameSync | frameTerminator => .framing
  | acAndDc | multipleModes | multipleMultipliers | multiplePrefixes => .conflict
  | valueDigit | valueMode | valueRange => .decode

end RejectionReason

def Bm25x.Error.message : Bm25x.Error → String
  | invalidLength expected actual => s!"invalid packet length: need {expected} bytes, got {actual}"
  | invalidSync value => "invalid sync byte: " ++ Text.byteLiteral value
  | counterMismatch offset value =>
    s!"nibble counter mismatch at byte {offset}: " ++ Text.byteLiteral value
  | multipleModes count => s!"more than one measurement mode active ({count})"
  | multiplePrefixes count => s!"more than one unit prefix active ({count})"
  | acAndDc => "both AC and DC flags set"

def Es519xx.Error.message : Es519xx.Error → String
  | invalidLength expected actual => s!"invalid packet length: need {expected} bytes, got {actual}"
  | duplicateMismatch offset => s!"repeated packet differs from the first copy at byte {offset}"
  | missingTerminator offset value =>
    s!"missing CR LF terminator at byte {offset}: " ++ Text.byteLiteral value
  | multipleMultipliers => "more than one multiplier active"
  | multipleModes count => s!"more than one measurement mode active ({count})"
  | acAndDc => "both AC and DC flags set"
  | invalidDigit offset value =>
    s!"invalid display digit at byte {offset}: " ++ Text.byteLiteral value
  | invalidRange value => "invalid range byte: " ++ Text.byteLiteral value
  | unsupportedMode function =>
    "no exponent defined for function byte " ++ Text.byteLiteral function

def Bm25x.Error.reason : Bm25x.Error → RejectionReason
  | invalidLength .. => .frameLength
  | invalidSync _ => .frameSync
  | counterMismatch .. => .frameCounter
  | multipleModes _ => .multipleModes
  | multiplePrefixes _ => .multiplePrefixes
  | acAndDc => .acAndDc

def Es519xx.Error.reason : Es519xx.Error → RejectionReason
  | invalidLength .. => .frameLength
  | duplicateMismatch _ => .frameRepeat
  | missingTerminator .. => .frameTerminator
  | multipleMultipliers => .multipleMultipliers
  | multipleModes _ => .multipleModes
  | acAndDc => .acAndDc
  | invalidDigit .. => .valueDigit
  | invalidRange _ => .valueRange
  | unsupportedMode _ => .valueMode

namespace PacketError

/-- The text of the error, led by the family. -/
def message : PacketError → String
  | bm25x e => "bm25x: " ++ e.message
  | es519xx e => "es519xx: " ++ e.message

def reason : PacketError → RejectionReason
  | bm25x e => e.reason
  | es519xx e => e.reason

def toClass (e : PacketError) : RejectionClass := e.reason.toClass

end PacketError

end Multimeter
