import Multimeter.Proofs.Scanner.Feed

/-!
# Packets that are sent twice

A meter with 11-byte packets sends every packet twice. A scanner in step pairs the two copies of one
packet. Behind a capture that begins in the middle of a frame it may be half a frame early and pair
the second copy of a packet with the first copy of an equal next one; at the first packet that
differs it slips back into step.

* `twice`: the bytes of packets that are sent twice.
* `Reported`: the events report the packets in order, each once.
* `reported_in_step`, `reported_half_early`: what is reported in the two phases.
* `reported_behind`: garbage in front leads to one of the two.
* **`Scanner.feed_twice_reported_once`**: every packet is reported exactly once.
-/

namespace Multimeter

/-- The bytes of packets that are sent twice. -/
def twice (packets : List (List UInt8)) : List UInt8 :=
  (packets.map fun packet => packet ++ packet).flatten

/-- The events report the packets in order, each once. The first copy of the first packet begins at
`start`; the event of a packet lies where its first copy begins, or half a frame before. -/
inductive Reported (v : Variant) : Nat → List (List UInt8) → List ScanEvent → Prop where
  | nil (start : Nat) : Reported v start [] []
  | cons {start : Nat} {packet : List UInt8} {packets : List (List UInt8)} {e : ScanEvent}
      {events : List ScanEvent} (outcome_eq : e.outcome = v.decode (packet ++ packet))
      (offset_eq : e.offset = start ∨ e.offset + 11 = start)
      (rest : Reported v (start + 22) packets events) :
      Reported v start (packet :: packets) (e :: events)

namespace Reported

variable {v : Variant} {start : Nat} {packets : List (List UInt8)} {events : List ScanEvent}

theorem map_outcome (h : Reported v start packets events) :
    events.map ScanEvent.outcome = packets.map fun packet => v.decode (packet ++ packet) := by
  induction h with
  | nil start => rfl
  | cons outcome_eq offset_eq rest ih => rw [List.map_cons, List.map_cons, outcome_eq, ih]

theorem length_eq (h : Reported v start packets events) : events.length = packets.length := by
  have := congrArg List.length h.map_outcome
  rwa [List.length_map, List.length_map] at this

theorem offset_getElem? (h : Reported v start packets events) {i : Nat} {e : ScanEvent}
    (he : events[i]? = some e) :
    e.offset = start + 22 * i ∨ e.offset + 11 = start + 22 * i := by
  induction h generalizing i with
  | nil start => exact nomatch he
  | cons outcome_eq offset_eq rest ih =>
    cases i with
    | zero =>
      obtain rfl := Option.some.inj he
      exact offset_eq
    | succ i =>
      have := ih he
      omega

end Reported

theorem twice_cons (packet : List UInt8) (packets : List (List UInt8)) :
    twice (packet :: packets) = packet ++ (packet ++ twice packets) := by
  simp [twice]

section

variable {v : Variant} (hv : v.frameLength = 22)

include hv

/-! ## The two phases -/

theorem reported_in_step {packets : List (List UInt8)}
    (hpackets : ∀ packet ∈ packets, Es519xx.IsPacket 11 packet) (offset : Nat) :
    Reported v offset packets (drain v offset (twice packets)).events := by
  induction packets generalizing offset with
  | nil =>
    rw [events_drain_of_short (by rw [hv]; decide)]
    exact .nil offset
  | cons packet packets ih =>
    obtain ⟨hpacket, hrest⟩ := List.forall_mem_cons.mp hpackets
    rw [twice_cons, ← List.append_assoc,
      events_drain_append (by rw [List.length_append, hpacket.length_eq, hv])
        (Variant.isFrame_append_self hv hpacket), hv]
    refine .cons (ScanEvent.outcome_ofOutcome _ _) (Or.inl (ScanEvent.offset_ofOutcome _ _)) ?_
    exact ih hrest (offset + 22)

/-- Between two packets that differ no window is aligned: at the first byte the copies differ, and
behind it the line feed of the first copy would have to stand inside the second packet. -/
theorem not_isFrame_between {first second : List UInt8} (hfirst : first.length = 11)
    (hsecond : Es519xx.IsPacket 11 second) (hne : first ≠ second) (rest : List UInt8) :
    ∀ j < 11, ¬ v.IsFrame (((first ++ (second ++ rest)).drop j).take v.frameLength) := by
  intro j hj hframe
  rw [hv] at hframe
  have hlen := hsecond.length_eq
  by_cases hj0 : j = 0
  · subst hj0
    have htake : (first ++ (second ++ rest)).take 22 = first ++ second := by
      rw [← List.append_assoc, List.take_append_of_le_length (by rw [List.length_append]; omega),
        List.take_of_length_le (by rw [List.length_append]; omega)]
    rw [List.drop_zero, htake] at hframe
    exact hne (Variant.eq_of_isFrame_append hv hfirst hframe)
  · -- the line feed in the middle of the window is byte `j - 1` of the second packet
    have hlf := (Variant.lineFeed_of_isFrame hv hframe).2.1
    rw [List.getElem?_take_of_lt (by omega), List.getElem?_drop,
      List.getElem?_append_right (by omega), List.getElem?_append_left (by omega)] at hlf
    exact hsecond.getElem?_ne_lineFeed (by omega) hlf

/-- **Half a frame early**, on the second copy of a packet that has been reported, a scanner goes on
with the first copies of equal packets and is in step again at the first packet that differs. -/
theorem reported_half_early {packet : List UInt8} (hpacket : Es519xx.IsPacket 11 packet)
    {packets : List (List UInt8)} (hpackets : ∀ p ∈ packets, Es519xx.IsPacket 11 p)
    (offset : Nat) :
    Reported v (offset + 11) packets (drain v offset (packet ++ twice packets)).events := by
  induction packets generalizing packet offset with
  | nil =>
    have hlen := hpacket.length_eq
    rw [events_drain_of_short (by rw [hv, twice, List.map_nil, List.flatten_nil]; simp [hlen])]
    exact .nil _
  | cons next packets ih =>
    obtain ⟨hnext, hrest⟩ := List.forall_mem_cons.mp hpackets
    by_cases heq : packet = next
    · subst heq
      rw [twice_cons, ← List.append_assoc,
        events_drain_append (by rw [List.length_append, hpacket.length_eq, hv])
          (Variant.isFrame_append_self hv hpacket), hv]
      refine .cons (ScanEvent.outcome_ofOutcome _ _) (Or.inr ?_) ?_
      · rw [ScanEvent.offset_ofOutcome]
      · exact ih hpacket hrest (offset + 22)
    · have hskip := not_isFrame_between hv hpacket.length_eq hnext heq (next ++ twice packets)
      rw [← twice_cons] at hskip
      rw [events_drain_skip 11 hskip, List.drop_left' hpacket.length_eq]
      exact reported_in_step hv hpackets (offset + 11)

/-! ## Garbage in front -/

/-- A frame that begins in the garbage and ends behind it pairs the last eleven bytes of the garbage
with the first copy of the first packet. -/
theorem straddling_frame {garbage packet rest : List UInt8}
    (hpacket : Es519xx.IsPacket 11 packet) (hpos : 0 < garbage.length)
    (hshort : garbage.length < 22)
    (hframe : v.IsFrame ((garbage ++ (packet ++ (packet ++ rest))).take 22)) :
    garbage = packet := by
  have hlen := hpacket.length_eq
  -- the line feed at the end of the frame can only be that of the first copy
  have hlf := (Variant.lineFeed_of_isFrame hv hframe).2.2
  rw [List.getElem?_take_of_lt (by omega), List.getElem?_append_right (by omega)] at hlf
  have hgarbage : garbage.length = 11 := by
    by_contra hne
    by_cases hsecond : 21 - garbage.length < 11
    · rw [List.getElem?_append_left (by omega)] at hlf
      exact hpacket.getElem?_ne_lineFeed (by omega) hlf
    · rw [List.getElem?_append_right (by omega), List.getElem?_append_left (by omega)] at hlf
      exact hpacket.getElem?_ne_lineFeed (by omega) hlf
  have htake : (garbage ++ (packet ++ (packet ++ rest))).take 22 = garbage ++ packet := by
    rw [← List.append_assoc, List.take_append_of_le_length (by rw [List.length_append]; omega),
      List.take_of_length_le (by rw [List.length_append]; omega)]
  rw [htake] at hframe
  exact Variant.eq_of_isFrame_append hv hgarbage hframe

/-- **Behind garbage** the packets are reported in order, each once, by the events whose frames end
behind the garbage. -/
theorem reported_behind {packets : List (List UInt8)}
    (hpackets : ∀ packet ∈ packets, Es519xx.IsPacket 11 packet) (offset : Nat)
    (garbage : List UInt8) :
    Reported v (offset + garbage.length) packets
      ((drain v offset (garbage ++ twice packets)).events.filter
        fun e => offset + garbage.length < e.offset + 22) := by
  -- frames and skipped bytes shorten the garbage until less than a frame of it is left
  induction hn : garbage.length using Nat.strongRecOn generalizing offset garbage with
  | ind n ih =>
    subst hn
    have hbeyond (hshort : garbage.length < 22) :
        (drain v offset (garbage ++ twice packets)).events.filter
            (fun e => offset + garbage.length < e.offset + 22) =
          (drain v offset (garbage ++ twice packets)).events := by
      refine List.filter_eq_self.mpr fun e he => ?_
      have := le_offset_of_mem_drain v offset _ e he
      rw [decide_eq_true_eq]
      omega
    by_cases hempty : garbage = []
    · subst hempty
      rw [hbeyond (by decide)]
      exact reported_in_step hv hpackets offset
    by_cases hframe : v.IsFrame ((garbage ++ twice packets).take 22)
    · have hlen : 22 ≤ (garbage ++ twice packets).length := by
        have := (Variant.lineFeed_of_isFrame hv hframe).1
        rw [List.length_take] at this
        omega
      by_cases hshort : garbage.length < 22
      · cases packets with
        | nil =>
          rw [twice, List.map_nil, List.flatten_nil, List.append_nil] at hlen
          omega
        | cons packet packets =>
          have hpacket := (List.forall_mem_cons.mp hpackets).1
          rw [twice_cons] at hframe
          -- the garbage is the second copy of a packet equal to the first one
          obtain rfl := straddling_frame hv hpacket (List.length_pos_iff.mpr hempty) hshort hframe
          rw [hbeyond hshort, hpacket.length_eq]
          exact reported_half_early hv hpacket hpackets offset
      · have hdrop : (garbage.drop 22).length = garbage.length - 22 := List.length_drop
        have hrest := ih (garbage.length - 22) (by omega) (offset + 22) (garbage.drop 22) hdrop
        rw [show offset + 22 + (garbage.length - 22) = offset + garbage.length by omega] at hrest
        rw [events_drain_of_aligned (by rwa [hv]) (by rwa [hv]), hv,
          List.drop_append_of_le_length (by omega), List.filter_cons, if_neg]
        · exact hrest
        · rw [ScanEvent.offset_ofOutcome, decide_eq_true_eq]
          omega
    · obtain ⟨b, garbage, rfl⟩ := List.exists_cons_of_ne_nil hempty
      have hrest := ih garbage.length (by rw [List.length_cons]; omega) (offset + 1) garbage rfl
      rw [List.length_cons,
        events_drain_skip 1 fun j hj => by rwa [Nat.lt_one_iff.mp hj, List.drop_zero, hv],
        show offset + (garbage.length + 1) = offset + 1 + garbage.length by omega]
      exact hrest

end

namespace Scanner

/-- **Every packet is reported exactly once**, also behind a capture that begins in the middle of a
frame and also when neighbouring packets are equal. -/
theorem feed_twice_reported_once {v : Variant} (hv : v.frameLength = 22) (garbage : List UInt8)
    {packets : List (List UInt8)} (hpackets : ∀ packet ∈ packets, Es519xx.IsPacket 11 packet)
    {chunks : List (List UInt8)} (hchunks : chunks.flatten = garbage ++ twice packets) :
    let events := ((fresh v false).feed chunks).2
    let beyond := events.filter fun e => garbage.length < e.offset + v.frameLength
    beyond.length = packets.length ∧
    beyond.map ScanEvent.outcome = packets.map (fun packet => v.decode (packet ++ packet)) ∧
    ∀ i e, beyond[i]? = some e →
      e.offset = garbage.length + 22 * i ∨ e.offset + 11 = garbage.length + 22 * i := by
  intro events beyond
  have h : Reported v garbage.length packets beyond := by
    have hbehind := reported_behind hv hpackets 0 garbage
    rw [Nat.zero_add, ← hchunks] at hbehind
    simp only [beyond, events, events_feed_fresh, masked_false, hv]
    exact hbehind
  exact ⟨h.length_eq, h.map_outcome, fun i e he => h.offset_getElem? he⟩

/-- A capture that begins in the second copy of a packet equal to the next one: the scanner is half
a frame early for one packet and then in step. -/
theorem feed_twice_reported_once_half_early :
    let a : List UInt8 := [0x30, 0x30, 0x31, 0x32, 0x33, 0x33, 0x30, 0x30, 0x30, 0x0d, 0x0a]
    let b : List UInt8 := [0x30, 0x30, 0x31, 0x32, 0x34, 0x33, 0x30, 0x30, 0x30, 0x0d, 0x0a]
    let garbage := a.drop 5 ++ a
    let packets := [a, b, b]
    let chunks := [garbage.take 3, garbage.drop 3 ++ a, a ++ b, [], b ++ b ++ b]
    let beyond := ((fresh .slow11 false).feed chunks).2.filter fun e =>
      garbage.length < e.offset + Variant.slow11.frameLength
    (Variant.slow11.frameLength = 22 ∧ (∀ packet ∈ packets, Es519xx.IsPacket 11 packet) ∧
      chunks.flatten = garbage ++ twice packets) ∧
    (beyond.length = 3 ∧
      beyond.map ScanEvent.outcome =
        packets.map fun packet => Variant.slow11.decode (packet ++ packet)) ∧
    beyond.map ScanEvent.offset = [6, 39, 61] := by
  intro a b garbage packets chunks beyond
  have ha : Es519xx.IsPacket 11 a := ⟨a.take 9, rfl, rfl, by decide +kernel⟩
  have hb : Es519xx.IsPacket 11 b := ⟨b.take 9, rfl, rfl, by decide +kernel⟩
  have hpackets : ∀ packet ∈ packets, Es519xx.IsPacket 11 packet := by
    simp only [packets, List.forall_mem_cons]
    exact ⟨ha, hb, hb, List.forall_mem_nil _⟩
  have hchunks : chunks.flatten = garbage ++ twice packets := by decide
  have hv : Variant.slow11.frameLength = 22 := rfl
  obtain ⟨hlen, houtcome, _⟩ := feed_twice_reported_once hv garbage hpackets hchunks
  exact ⟨⟨hv, hpackets, hchunks⟩, ⟨hlen, houtcome⟩, by decide +kernel⟩

end Scanner

end Multimeter
