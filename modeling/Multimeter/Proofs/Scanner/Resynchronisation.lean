import Multimeter.Proofs.Scanner.Feed

/-!
# Packets between garbage

A meter with 14-byte packets sends every packet once, and nothing but the two bytes at its end marks
a packet. Garbage that holds these two bytes is taken for one. But a frame that begins in garbage
never ends inside the packet that follows, for the line feed of a packet is its last byte only: a
scanner finds in garbage what it would find there alone, and is in step at the next packet.

* `Stretch`: garbage and the packet behind it; `joined`: the stream of many stretches.
* `events_drain_stretch`: the events of one stretch in front of anything.
* `joinedEvents`, `events_drain_joined`: the events of a whole stream.
* **`Scanner.feed_resynchronised`**: every packet is reported where it begins, and all other events
  lie in garbage.
-/

namespace Multimeter

/-- Garbage, which may be empty, and the packet behind it. -/
structure Stretch where
  garbage : List UInt8
  packet : List UInt8
deriving DecidableEq, Repr

def Stretch.bytes (s : Stretch) : List UInt8 := s.garbage ++ s.packet

/-- The bytes of all stretches and of the garbage behind the last one. -/
def joined (stretches : List Stretch) (tail : List UInt8) : List UInt8 :=
  stretches.flatMap Stretch.bytes ++ tail

/-- Where stretch `i` begins, and behind the last stretch the garbage at the end. -/
def gapStart (stretches : List Stretch) (i : Nat) : Nat :=
  ((stretches.take i).flatMap Stretch.bytes).length

/-- The garbage in front of packet `i`, and behind the last packet the garbage at the end. -/
def gap (stretches : List Stretch) (tail : List UInt8) (i : Nat) : List UInt8 :=
  (stretches[i]?.map Stretch.garbage).getD tail

/-- What is found in the garbage alone, and the packets in between. -/
def joinedEvents (v : Variant) (offset : Nat) : List Stretch → List UInt8 → List ScanEvent
  | [], tail => (drain v offset tail).events
  | s :: stretches, tail =>
    (drain v offset s.garbage).events ++
      .ofOutcome (offset + s.garbage.length) (v.decode s.packet) ::
        joinedEvents v (offset + s.bytes.length) stretches tail

@[simp] theorem gapStart_zero (stretches : List Stretch) : gapStart stretches 0 = 0 := by
  simp [gapStart]

@[simp] theorem gapStart_cons_succ (s : Stretch) (stretches : List Stretch) (i : Nat) :
    gapStart (s :: stretches) (i + 1) = s.bytes.length + gapStart stretches i := by
  simp [gapStart]

theorem joined_cons (s : Stretch) (stretches : List Stretch) (tail : List UInt8) :
    joined (s :: stretches) tail = s.garbage ++ (s.packet ++ joined stretches tail) := by
  simp [joined, Stretch.bytes]

section

variable {v : Variant} (hv : v.frameLength = 14)

include hv

/-! ## One stretch -/

/-- The bytes that garbage leaves over begin no frame: the line feed at its end would stand inside
the packet behind them. -/
theorem not_isFrame_leftover {leftover packet : List UInt8} (hleft : leftover.length < 14)
    (hpacket : Es519xx.IsPacket 14 packet) (rest : List UInt8) :
    ∀ j < leftover.length,
      ¬ v.IsFrame (((leftover ++ (packet ++ rest)).drop j).take v.frameLength) := by
  intro j hj hframe
  have hlen := hpacket.length_eq
  rw [hv, Variant.isFrame_single_iff hv] at hframe
  obtain ⟨hfull, hterm⟩ := hframe
  have hlf := ((Es519xx.terminator_suffix_iff hfull).mp hterm).2
  rw [List.getElem?_take_of_lt (by omega), List.getElem?_drop,
    List.getElem?_append_right (by omega), List.getElem?_append_left (by omega)] at hlf
  exact hpacket.getElem?_ne_lineFeed (by omega) hlf

/-- **A packet behind garbage** is reported where it begins; in the garbage a scanner finds what it
would find there alone. -/
theorem events_drain_stretch {packet : List UInt8} (hpacket : Es519xx.IsPacket 14 packet)
    (offset : Nat) (garbage rest : List UInt8) :
    (drain v offset (garbage ++ (packet ++ rest))).events =
      (drain v offset garbage).events ++
        .ofOutcome (offset + garbage.length) (v.decode packet) ::
          (drain v (offset + garbage.length + 14) rest).events := by
  have hshort : (drain v offset garbage).rest.length < 14 := hv ▸ length_rest_drain_lt v offset garbage
  have hle := length_rest_drain_le v offset garbage
  have hframe : v.IsFrame packet :=
    (Variant.isFrame_single_iff hv packet).mpr ⟨hpacket.length_eq, hpacket.terminated⟩
  rw [drain_append, Drained.append]
  dsimp only
  rw [events_drain_skip _ (not_isFrame_leftover hv hshort hpacket rest), List.drop_left,
    Nat.add_assoc, Nat.sub_add_cancel hle, events_drain_append (by rw [hv, hpacket.length_eq]) hframe,
    hv]

/-! ## A whole stream -/

theorem events_drain_joined {stretches : List Stretch}
    (hpackets : ∀ s ∈ stretches, Es519xx.IsPacket 14 s.packet) (offset : Nat) (tail : List UInt8) :
    (drain v offset (joined stretches tail)).events = joinedEvents v offset stretches tail := by
  induction stretches generalizing offset with
  | nil => rfl
  | cons s stretches ih =>
    obtain ⟨hpacket, hrest⟩ := List.forall_mem_cons.mp hpackets
    have hbytes : offset + s.bytes.length = offset + s.garbage.length + 14 := by
      rw [Stretch.bytes, List.length_append, hpacket.length_eq, Nat.add_assoc]
    rw [joined_cons, events_drain_stretch hv hpacket, ← hbytes, ih hrest]
    rfl

end

section

variable {v : Variant}

theorem packet_mem_joinedEvents {stretches : List Stretch} (offset : Nat) (tail : List UInt8)
    {i : Nat} {s : Stretch} (hs : stretches[i]? = some s) :
    ScanEvent.ofOutcome (offset + gapStart stretches i + s.garbage.length) (v.decode s.packet) ∈
      joinedEvents v offset stretches tail := by
  induction stretches generalizing offset i with
  | nil => exact nomatch hs
  | cons first stretches ih =>
    rw [joinedEvents]
    cases i with
    | zero =>
      obtain rfl := Option.some.inj hs
      rw [gapStart_zero, Nat.add_zero]
      exact List.mem_append_right _ List.mem_cons_self
    | succ i =>
      have hmem := ih (offset + first.bytes.length) hs
      rw [gapStart_cons_succ, ← Nat.add_assoc]
      exact List.mem_append_right _ (List.mem_cons_of_mem _ hmem)

theorem mem_joinedEvents {stretches : List Stretch} {offset : Nat} {tail : List UInt8}
    {e : ScanEvent} (he : e ∈ joinedEvents v offset stretches tail) :
    (∃ i s, stretches[i]? = some s ∧
      e = .ofOutcome (offset + gapStart stretches i + s.garbage.length) (v.decode s.packet)) ∨
    ∃ i ≤ stretches.length, offset + gapStart stretches i ≤ e.offset ∧
      e.offset + v.frameLength ≤ offset + gapStart stretches i + (gap stretches tail i).length := by
  induction stretches generalizing offset with
  | nil =>
    refine Or.inr ⟨0, Nat.le_refl 0, ?_, ?_⟩
    · exact le_offset_of_mem_drain v _ _ e he
    · exact offset_add_le_of_mem_drain he
  | cons first stretches ih =>
    rw [joinedEvents, List.mem_append, List.mem_cons] at he
    -- in the first garbage, its packet, or behind it
    rcases he with he | rfl | he
    · refine Or.inr ⟨0, Nat.zero_le _, ?_, ?_⟩
      · exact le_offset_of_mem_drain v _ _ e he
      · exact offset_add_le_of_mem_drain he
    · exact Or.inl ⟨0, first, rfl, rfl⟩
    · rcases ih he with ⟨i, s, hs, heq⟩ | ⟨i, hi, hbegin, hend⟩
      · refine Or.inl ⟨i + 1, s, hs, ?_⟩
        rw [heq, gapStart_cons_succ, ← Nat.add_assoc]
      · refine Or.inr ⟨i + 1, Nat.succ_le_succ hi, ?_, ?_⟩
        · rwa [gapStart_cons_succ, ← Nat.add_assoc]
        · rw [gapStart_cons_succ, ← Nat.add_assoc]
          exact hend

end

namespace Scanner

/-- **A scanner resynchronises at every packet**, whatever garbage stands between packets: each packet
is reported exactly where it begins, and all other frames lie wholly inside one piece of garbage. -/
theorem feed_resynchronised {v : Variant} (hv : v.frameLength = 14) {stretches : List Stretch}
    (hpackets : ∀ s ∈ stretches, Es519xx.IsPacket 14 s.packet) (tail : List UInt8)
    {chunks : List (List UInt8)} (hchunks : chunks.flatten = joined stretches tail) :
    let events := ((fresh v false).feed chunks).2
    let reported (i : Nat) (s : Stretch) :=
      ScanEvent.ofOutcome (gapStart stretches i + s.garbage.length) (v.decode s.packet)
    (∀ i s, stretches[i]? = some s → reported i s ∈ events) ∧
    ∀ e ∈ events, (∃ i s, stretches[i]? = some s ∧ e = reported i s) ∨
      ∃ i ≤ stretches.length, gapStart stretches i ≤ e.offset ∧
        e.offset + v.frameLength ≤ gapStart stretches i + (gap stretches tail i).length := by
  intro events reported
  have hevents : events = joinedEvents v 0 stretches tail := by
    rw [← events_drain_joined hv hpackets, ← hchunks, ← masked_false chunks.flatten]
    exact events_feed_fresh v false chunks
  rw [hevents]
  refine ⟨fun i s hs => ?_, fun e he => ?_⟩
  · have hmem := packet_mem_joinedEvents (v := v) 0 tail hs
    rwa [Nat.zero_add] at hmem
  · have hsplit := mem_joinedEvents he
    simp only [Nat.zero_add] at hsplit
    exact hsplit

/-- Two packets, with twelve stray bytes and a terminator between them, which are taken for a frame. -/
theorem feed_resynchronised_stray_terminator :
    let a : List UInt8 :=
      [0x31, 0x31, 0x32, 0x33, 0x34, 0x35, 0x3b, 0x30, 0x30, 0x30, 0x3a, 0x30, 0x0d, 0x0a]
    let b : List UInt8 :=
      [0x31, 0x31, 0x32, 0x33, 0x34, 0x35, 0x3b, 0x30, 0x30, 0x30, 0x3e, 0x30, 0x0d, 0x0a]
    let stray : List UInt8 := List.replicate 12 0xff ++ Es519xx.terminator ++ [0x0d]
    let stretches : List Stretch := [⟨a.drop 4, a⟩, ⟨stray, b⟩]
    let chunks := [a.drop 4 ++ a.take 7, a.drop 7 ++ stray, [], b ++ a.take 4]
    let events := ((fresh .fast14 false).feed chunks).2
    (Variant.fast14.frameLength = 14 ∧ (∀ s ∈ stretches, Es519xx.IsPacket 14 s.packet) ∧
      chunks.flatten = joined stretches (a.take 4)) ∧
    (.ofOutcome 10 (Variant.fast14.decode a) ∈ events ∧
      .ofOutcome 39 (Variant.fast14.decode b) ∈ events) ∧
    events.map ScanEvent.offset = [10, 24, 39] := by
  intro a b stray stretches chunks events
  have ha : Es519xx.IsPacket 14 a := ⟨a.take 12, rfl, rfl, by decide +kernel⟩
  have hb : Es519xx.IsPacket 14 b := ⟨b.take 12, rfl, rfl, by decide +kernel⟩
  have hpackets : ∀ s ∈ stretches, Es519xx.IsPacket 14 s.packet := by
    simp only [stretches, List.forall_mem_cons]
    exact ⟨ha, hb, List.forall_mem_nil _⟩
  have hchunks : chunks.flatten = joined stretches (a.take 4) := by decide
  have hv : Variant.fast14.frameLength = 14 := rfl
  have h := feed_resynchronised hv hpackets (a.take 4) hchunks
  exact ⟨⟨hv, hpackets, hchunks⟩, ⟨h.1 0 ⟨a.drop 4, a⟩ rfl, h.1 1 ⟨stray, b⟩ rfl⟩,
    by decide +kernel⟩

end Scanner

end Multimeter
