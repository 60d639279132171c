import Multimeter.Proofs.Bm25x.Lamps
import Multimeter.Proofs.Es519xx.Dependence

/-!
# Idle bits

Battery, filter and peak indicators, and the bits that a layout does not assign, are not read:
frames that only differ there have the same reading or the same error. One error shows them all the
same: a segment packet whose counters are out of step is refused with the byte in question.

* `Variant.decode_flip_of_es519xx`, `Variant.decode_flip_of_bm25x`: the two families.
* `PacketError.requote`: the error with the byte of another frame in it.
* **`Variant.decode_of_idle`**: frames that differ in idle bits.
-/

namespace Multimeter

namespace Variant

open Es519xx (Packet bit)

variable {v : Variant} {change : Nat → UInt8} {frame : List UInt8}

/-! ## Digit packets -/

theorem signedDisplay_flip (hv : v.profile.family = .es519xx) (h : FlipsOnly v.idleBits change) :
    Es519xx.signedDisplay (v.packet (v.flip change frame)) (v.state (v.flip change frame)) =
      Es519xx.signedDisplay (v.packet frame) (v.state frame) := by
  have hread : (∀ i ∈ List.range' 1 (v.packet []).digitCount,
        i % v.profile.packetSize = i ∧ ∀ b ∈ v.idleBits, b.1 ≠ i) ∧
      (∀ b ∈ v.signBit :: v.rangeBits, (b.1 % v.profile.packetSize, b.2) ∉ v.idleBits) ∧
      (v.profile.fiveDigits = true → (7 % v.profile.packetSize, 0) ∉ v.idleBits) := by
    cases v with
    | bm25x => exact nomatch hv
    | _ => decide
  obtain ⟨hplaces, hlamps, hhalf⟩ := hread
  have hlamp (b : Nat × Nat) (hb : b ∈ v.signBit :: v.rangeBits) :
      bit ((v.flip change frame).getD b.1 0) b.2 = bit (frame.getD b.1 0) b.2 :=
    bit_flipBits (h.bit_eq_false (hlamps b hb))
  obtain ⟨hover, hsign, hdigit4⟩ := display_state hv frame
  obtain ⟨hover', hsign', hdigit4'⟩ := display_state hv (v.flip change frame)
  refine Es519xx.signedDisplay_congr ?_ ?_ ?_ ?_
  · rw [hover, hover', isOutOfRange, isOutOfRange, Bool.eq_iff_iff, List.any_eq_true,
      List.any_eq_true]
    refine exists_congr fun b => and_congr_right fun hb => ?_
    rw [hlamp b (List.mem_cons_of_mem _ hb)]
  · rw [hsign, hsign']
    exact hlamp _ List.mem_cons_self
  · rw [hdigit4, hdigit4']
    cases hfive : v.profile.fiveDigits with
    | false => rfl
    | true => rw [bit_flipBits (h.bit_eq_false (hhalf hfive))]
  · refine mapM_congr fun i hi => ?_
    obtain ⟨hi, hbits⟩ := hplaces i hi
    have hread : (v.packet (v.flip change frame)).read i = (v.packet frame).read i :=
      Packet.read_flipBits (by rw [hi]; exact h.eq_zero hbits)
    rw [Packet.digit, Packet.digit, hread]

theorem decode_flip_of_es519xx (hv : v.profile.family = .es519xx)
    (h : FlipsOnly v.idleBits change) : v.decode (v.flip change frame) = v.decode frame :=
  decode_flip hv (h.mono (List.subset_append_left _ _)) (signedDisplay_flip hv h)

end Variant

/-! ## Segment packets -/

/-- The error with the byte of this frame in it, where an error quotes a byte of a segment
packet. -/
def PacketError.requote (frame : List UInt8) : PacketError → PacketError
  | .bm25x e => .bm25x (Bm25x.Packet.requote ⟨frame⟩ e)
  | e => e

namespace Variant

open Es519xx (bit)

variable {v : Variant} {change : Nat → UInt8} {frame frame' : List UInt8}

theorem decode_flip_of_bm25x (h : FlipsOnly bm25x.idleBits change) :
    Bm25x.Packet.decode ⟨bm25x.flip change frame⟩ =
      (Bm25x.Packet.decode ⟨frame⟩).mapError (Bm25x.Packet.requote ⟨bm25x.flip change frame⟩) := by
  have hlit (lamp : Bm25x.Lamp) (hlamp : (lamp.offset % 15, lamp.bit) ∉ bm25x.idleBits) :
      Bm25x.Packet.isLit ⟨bm25x.flip change frame⟩ lamp = Bm25x.Packet.isLit ⟨frame⟩ lamp := by
    have hsame : bit ((bm25x.flip change frame).getD lamp.offset 0) lamp.bit =
        bit (frame.getD lamp.offset 0) lamp.bit := bit_flipBits (h.bit_eq_false hlamp)
    rwa [List.getD_eq_getElem?_getD, List.getD_eq_getElem?_getD] at hsame
  refine Bm25x.Packet.decode_congr
    (Bm25x.Packet.checkFraming_congr length_flipBits ?_ fun i => ?_) ?_
  · refine Bm25x.Packet.byte_congr fun k => hlit ⟨0, k⟩ fun hmem => ?_
    have hsync : ∀ b ∈ bm25x.idleBits, b.1 ≠ 0 := by decide
    exact hsync _ hmem rfl
  · refine Bm25x.Packet.counter_congr fun k hk => hlit ⟨i, k⟩ fun hmem => ?_
    have hlow : ∀ b ∈ bm25x.idleBits, b.2 < 4 := by decide
    exact Nat.not_lt.mpr hk (hlow _ hmem)
  · have hread : ∀ lamp ∈ Bm25x.Lamp.sign :: Bm25x.Lamp.read,
        (lamp.offset % 15, lamp.bit) ∉ bm25x.idleBits := by decide
    exact fun lamp hlamp => hlit lamp (hread lamp hlamp)

theorem requote_of_isFrame (hframe : bm25x.IsFrame frame) :
    (bm25x.decode frame).mapError (PacketError.requote frame') = bm25x.decode frame := by
  have hframing : Bm25x.Packet.checkFraming ⟨frame⟩ = .ok () := mapError_eq_ok_iff.mp hframe
  rw [decode_of_bm25x frame rfl, Bm25x.Packet.decode_of_framed hframing]
  cases hlamps : Bm25x.Packet.checkLamps ⟨frame⟩ with
  | ok _ => rfl
  | error e =>
    show Except.error (PacketError.bm25x (Bm25x.Packet.requote ⟨frame'⟩ e)) = _
    rw [Bm25x.Packet.requote_of_checkLamps hlamps]
    rfl

/-- **Frames that differ in idle bits** have the same reading or the same error, but for the byte
that a counter mismatch quotes: digit packets whatever their bytes are, and segment packets that are
framed. -/
theorem decode_of_idle (h : v.AlikeUpTo v.idleBits frame frame') :
    v.decode frame' = (v.decode frame).mapError (PacketError.requote frame') ∧
    (v.profile.family = .es519xx ∨ v.IsFrame frame → v.decode frame' = v.decode frame) := by
  obtain ⟨change, hflips, rfl⟩ := h
  cases hv : v.profile.family with
  | bm25x =>
    obtain rfl : v = .bm25x := by
      revert hv
      cases v <;> decide
    have hquoted : bm25x.decode (bm25x.flip change frame) =
        (bm25x.decode frame).mapError (PacketError.requote (bm25x.flip change frame)) := by
      rw [decode_of_bm25x _ rfl, decode_of_bm25x _ rfl, decode_flip_of_bm25x hflips]
      cases Bm25x.Packet.decode ⟨frame⟩ <;> rfl
    refine ⟨hquoted, fun hframe => ?_⟩
    rw [hquoted, requote_of_isFrame (hframe.resolve_left (by decide))]
  | es519xx =>
    have hsame : v.decode (v.flip change frame) = v.decode frame :=
      decode_flip_of_es519xx hv hflips
    refine ⟨?_, fun _ => hsame⟩
    rw [hsame, decode_of_es519xx _ hv]
    cases Es519xx.decode v.profile frame <;> rfl

/-- A stray character with the battery, peak and filter lamps lit and a high nibble turned, a
voltage with idle bits in two bytes, and a counter out of step in front of an idle bit. -/
theorem decode_of_idle_three_frames :
    let stray : List UInt8 :=
      [0x30, 0x30, 0x2d, 0x30, 0x31, 0x32, 0x3b, 0x30, 0x30, 0x30, 0x3a, 0x30, 0x0d, 0x0a]
    let lowBattery : List UInt8 :=
      [0x30, 0x30, 0x2d, 0x30, 0x31, 0x32, 0x3b, 0x32, 0x30, 0x36, 0xfa, 0x39, 0x0d, 0x0a]
    let volts : List UInt8 := [0x02, 0x1c, 0x20, 0x30, 0x4a, 0x5a, 0x6d, 0x79, 0x8f, 0x94, 0xae,
      0xb0, 0xc0, 0xd0, 0xe4]
    let marked : List UInt8 := [0x02, 0x1c, 0x2f, 0x30, 0x4a, 0x5a, 0x6d, 0x79, 0x8f, 0x94, 0xae,
      0xb4, 0xc0, 0xd0, 0xe4]
    let misaligned : List UInt8 := [0x02, 0x1c, 0x3f, 0x30, 0x4a, 0x5a, 0x6d, 0x79, 0x8f, 0x94, 0xae,
      0xb0, 0xc0, 0xd0, 0xe4]
    let misread : List UInt8 := [0x02, 0x1c, 0x30, 0x30, 0x4a, 0x5a, 0x6d, 0x79, 0x8f, 0x94, 0xae,
      0xb0, 0xc0, 0xd0, 0xe4]
    (fast14.AlikeUpTo fast14.idleBits stray lowBattery ∧
      fast14.decode stray = .error (.es519xx (.invalidDigit 2 0x2d)) ∧
      fast14.decode lowBattery = .error (.es519xx (.invalidDigit 2 0x2d))) ∧
    (bm25x.AlikeUpTo bm25x.idleBits volts marked ∧ bm25x.IsFrame volts ∧
      bm25x.decode marked = bm25x.decode volts) ∧
    (bm25x.AlikeUpTo bm25x.idleBits misaligned misread ∧
      bm25x.decode misaligned = .error (.bm25x (.counterMismatch 2 0x3f)) ∧
      bm25x.decode misread = .error (.bm25x (.counterMismatch 2 0x30))) := by
  intro stray lowBattery volts marked misaligned misread
  have hlow : fast14.AlikeUpTo fast14.idleBits stray lowBattery :=
    ⟨_, ((((flipsOnly_zero _).update 7 (c := 0x02) (by decide)).update 9 (c := 0x06)
      (by decide)).update 10 (c := 0xc0) (by decide)).update 11 (c := 0x09) (by decide),
      by decide +kernel⟩
  have hmarked : bm25x.AlikeUpTo bm25x.idleBits volts marked :=
    ⟨_, ((flipsOnly_zero _).update 2 (c := 0x0f) (by decide)).update 11 (c := 0x04) (by decide),
      by decide +kernel⟩
  have hmisread : bm25x.AlikeUpTo bm25x.idleBits misaligned misread :=
    ⟨_, (flipsOnly_zero _).update 2 (c := 0x0f) (by decide), by decide +kernel⟩
  have hstray : fast14.decode stray = .error (.es519xx (.invalidDigit 2 0x2d)) := by
    decide +kernel
  have hvolts : bm25x.IsFrame volts := by decide +kernel
  have hcounter : bm25x.decode misaligned = .error (.bm25x (.counterMismatch 2 0x3f)) := by
    decide +kernel
  refine ⟨⟨hlow, hstray, ?_⟩, ⟨hmarked, hvolts, (decode_of_idle hmarked).2 (Or.inr hvolts)⟩,
    hmisread, hcounter, ?_⟩
  · rw [(decode_of_idle hlow).2 (Or.inl rfl), hstray]
  · rw [(decode_of_idle hmisread).1, hcounter]
    rfl

theorem not_forall_decode_eq_of_idle :
    ¬ ∀ (v : Variant) (frame frame' : List UInt8), v.AlikeUpTo v.idleBits frame frame' →
      v.decode frame' = v.decode frame := by
  intro hall
  have halike : bm25x.AlikeUpTo bm25x.idleBits
      [0x02, 0x10, 0x31, 0x30, 0x40, 0x50, 0x60, 0x70, 0x80, 0x90, 0xa0, 0xb0, 0xc0, 0xd0, 0xe0]
      [0x02, 0x10, 0x30, 0x30, 0x40, 0x50, 0x60, 0x70, 0x80, 0x90, 0xa0, 0xb0, 0xc0, 0xd0, 0xe0] :=
    ⟨_, (flipsOnly_zero _).update 2 (c := 0x01) (by decide), by decide +kernel⟩
  exact absurd (hall _ _ _ halike) (by decide +kernel)

end Variant

end Multimeter
