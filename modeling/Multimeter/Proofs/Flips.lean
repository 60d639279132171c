import Multimeter.Proofs.Framing

/-!
# Frames that differ in some bits

Two frames of a format are compared up to some bits of a packet. A bit is named by its offset in the
packet and its place in the byte; where a packet is sent twice, it is flipped in both copies.

* `flipBits`: a frame with bits flipped, in every copy of the packet alike.
* `FlipsOnly`: only bits of a list are flipped.
* `Variant.AlikeUpTo`: two frames that are equal but for the bits of a list.
* `Variant.idleBits`: the indicators and the bits that a layout does not assign.
* `Variant.displayBits`: digits, sign and leading half digit of a digit packet.
* `Variant.isOutOfRange`, `Variant.isSigned`: two lamps of a format, read off the bytes.
-/

namespace Multimeter

open Es519xx (bit)

/-! ## Flipped bits -/

/-- The frame with bits flipped, given by one byte for each offset of a packet. -/
def flipBits (size : Nat) (change : Nat → UInt8) (frame : List UInt8) : List UInt8 :=
  frame.mapIdx fun i b => b ^^^ change (i % size)

/-- Only bits of the list are flipped, each an offset with a place in the byte there. -/
def FlipsOnly (bits : List (Nat × Nat)) (change : Nat → UInt8) : Prop :=
  ∀ i k, bit (change i) k = true → (i, k) ∈ bits

section

variable {size : Nat} {change : Nat → UInt8} {frame : List UInt8} {bits : List (Nat × Nat)}

@[simp] theorem length_flipBits : (flipBits size change frame).length = frame.length :=
  List.length_mapIdx

theorem getElem?_flipBits (i : Nat) :
    (flipBits size change frame)[i]? = frame[i]?.map (· ^^^ change (i % size)) :=
  List.getElem?_mapIdx

theorem bit_xor (b c : UInt8) (k : Nat) : bit (b ^^^ c) k = (bit b k ^^ bit c k) := by
  simp [bit]

theorem bit_flipBits {i k : Nat} (h : bit (change (i % size)) k = false) :
    bit ((flipBits size change frame).getD i 0) k = bit (frame.getD i 0) k := by
  rw [List.getD_eq_getElem?_getD, List.getD_eq_getElem?_getD, getElem?_flipBits]
  cases frame[i]? with
  | none => rfl
  | some b => simp [bit_xor, h]

theorem flipsOnly_zero (bits : List (Nat × Nat)) : FlipsOnly bits fun _ => 0 :=
  fun i k hk => by simp [bit] at hk

theorem FlipsOnly.update (h : FlipsOnly bits change) (offset : Nat) {c : UInt8}
    (hc : ∀ k < 8, bit c k = true → (offset, k) ∈ bits) :
    FlipsOnly bits (Function.update change offset c) := by
  intro i k hk
  by_cases hi : i = offset
  · subst hi
    rw [Function.update_self] at hk
    exact hc k (BitVec.lt_of_getLsbD hk) hk
  · rw [Function.update_of_ne hi] at hk
    exact h i k hk

theorem FlipsOnly.mono {bits' : List (Nat × Nat)} (h : FlipsOnly bits change)
    (hsub : bits ⊆ bits') : FlipsOnly bits' change :=
  fun i k hk => hsub (h i k hk)

theorem FlipsOnly.bit_eq_false (h : FlipsOnly bits change) {i k : Nat} (hk : (i, k) ∉ bits) :
    bit (change i) k = false :=
  Bool.eq_false_iff.mpr fun hflip => hk (h i k hflip)

theorem FlipsOnly.eq_zero (h : FlipsOnly bits change) {i : Nat} (hi : ∀ b ∈ bits, b.1 ≠ i) :
    change i = 0 := by
  refine UInt8.eq_of_toBitVec_eq (BitVec.eq_of_getLsbD_eq fun k _ => ?_)
  have hk : bit (change i) k = false := h.bit_eq_false fun hmem => hi (i, k) hmem rfl
  simpa [bit] using hk

end

/-! ## Frames of a format -/

namespace Variant

abbrev flip (v : Variant) (change : Nat → UInt8) (frame : List UInt8) : List UInt8 :=
  flipBits v.profile.packetSize change frame

/-- The frames are equal but for bits of the list, which may differ in every copy alike. -/
def AlikeUpTo (v : Variant) (bits : List (Nat × Nat)) (frame frame' : List UInt8) : Prop :=
  ∃ change, FlipsOnly bits change ∧ frame' = v.flip change frame

/-- The high nibbles at some offsets; those of status and option bytes hold no lamp. -/
def highNibbles (offsets : List Nat) : List (Nat × Nat) :=
  offsets.flatMap fun i => [(i, 4), (i, 5), (i, 6), (i, 7)]

/-- Battery, peak, RMR, low-pass filter and automatic power-off, and the bits of status and options
that the layout does not assign; of a segment packet, the low nibble behind the sync byte and three
single bits. -/
def idleBits : Variant → List (Nat × Nat)
  | bm25x => [(2, 0), (2, 1), (2, 2), (2, 3), (11, 2), (12, 3), (14, 0)]
  | slow11 => highNibbles [6, 7, 8] ++ [(6, 1), (7, 3), (7, 2), (7, 1), (8, 0)]
  | slow11Alternate =>
    highNibbles [6, 7, 8] ++ [(6, 2), (7, 3), (7, 2), (7, 1), (7, 0), (8, 1), (8, 0)]
  | fast11FiveDigits => highNibbles [6, 7, 8] ++ [(6, 1), (7, 2), (7, 1)]
  | fast11Clamp => highNibbles [6, 7, 8] ++ [(6, 1), (7, 0)]
  | fast11 => highNibbles [6, 7, 8] ++ [(6, 1), (7, 0)]
  | fast14 =>
    highNibbles [7, 8, 9, 10, 11] ++
      [(7, 1), (8, 0), (9, 2), (9, 1), (9, 0), (11, 3), (11, 0)]
  | fast14SelectableFilter =>
    highNibbles [7, 8, 9, 10, 11] ++
      [(7, 1), (8, 0), (9, 2), (9, 1), (9, 0), (11, 1), (11, 0)]

/-- All bits of the bytes at some offsets. -/
def wholeBytes (offsets : List Nat) : List (Nat × Nat) :=
  offsets.flatMap fun i => (List.range 8).map fun k => (i, k)

/-- The digits of a digit packet, its sign and its leading half digit. -/
def displayBits : Variant → List (Nat × Nat)
  | bm25x => []
  | slow11 | fast11Clamp | fast11 => (6, 2) :: wholeBytes [1, 2, 3, 4]
  | slow11Alternate => (6, 3) :: wholeBytes [1, 2, 3, 4]
  | fast11FiveDigits => (6, 2) :: (7, 0) :: wholeBytes [1, 2, 3, 4]
  | fast14 | fast14SelectableFilter => (7, 2) :: wholeBytes [1, 2, 3, 4, 5]

/-- The bits that say that the meter is out of its range, above or below. -/
def rangeBits : Variant → List (Nat × Nat)
  | bm25x => []
  | slow11 | fast11 => [(6, 0)]
  | slow11Alternate => [(6, 1), (6, 0)]
  | fast11FiveDigits | fast11Clamp => [(6, 0), (7, 3)]
  | fast14 | fast14SelectableFilter => [(7, 0), (9, 3)]

def isOutOfRange (v : Variant) (frame : List UInt8) : Bool :=
  v.rangeBits.any fun b => bit (frame.getD b.1 0) b.2

def signBit : Variant → Nat × Nat
  | bm25x => (3, 0)
  | slow11 | fast11FiveDigits | fast11Clamp | fast11 => (6, 2)
  | slow11Alternate => (6, 3)
  | fast14 | fast14SelectableFilter => (7, 2)

def isSigned (v : Variant) (frame : List UInt8) : Bool :=
  bit (frame.getD v.signBit.1 0) v.signBit.2

end Variant

end Multimeter
