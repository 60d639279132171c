import Multimeter.Bm25x.Decode
import Multimeter.Es519xx.Decode

/-!
# Frames

A frame is the bytes of one display update in some wire format.

* `Variant.checkFraming`: the bytes are aligned as a frame of the format.
* `Variant.validate`: the frame is aligned and its annunciators are consistent.
* `Variant.decode`: the reading of the frame.
-/

namespace Multimeter.Variant

/-- Checks length and framing bytes only. A frame that passes is aligned in its stream, even if it
cannot be decoded. -/
def checkFraming (v : Variant) (frame : List UInt8) : Except PacketError Unit :=
  match v.profile.family with
  | .bm25x => (Bm25x.Packet.checkFraming ⟨frame⟩).mapError .bm25x
  | .es519xx => (Es519xx.checkFraming v.profile frame).mapError .es519xx

/-- Checks a frame without decoding a value: a segment packet by its framing, a digit packet also by
its annunciators. -/
def validate (v : Variant) (frame : List UInt8) : Except PacketError Unit :=
  match v.profile.family with
  | .bm25x => (Bm25x.Packet.checkFraming ⟨frame⟩).mapError .bm25x
  | .es519xx =>
    ((Es519xx.decodeAnnunciators v.profile frame).map fun _ => ()).mapError .es519xx

def decode (v : Variant) (frame : List UInt8) : Except PacketError Reading :=
  match v.profile.family with
  | .bm25x => (Bm25x.Packet.decode ⟨frame⟩).mapError .bm25x
  | .es519xx => (Es519xx.decode v.profile frame).mapError .es519xx

def isValid (v : Variant) (frame : List UInt8) : Bool := (v.validate frame).toBool

end Multimeter.Variant
