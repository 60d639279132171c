import Mathlib.Data.List.Chain
import Multimeter.Proofs.Scanner.Sweep

/-!
# Which windows are reported

An event stands for an aligned window, and an aligned window is reported or lies across the frame
of an event that begins before it.

* `mem_sweep_sound`, `exists_covering_event`: the two directions, for one pass.
* **`Scanner.feed_sound_and_covering`**: both for a scanner, however the stream is cut.
* `gap_of_isFrame_bm25x`: aligned segment windows never overlap.
* **`Scanner.mem_offsets_bm25x_iff`**: a scanner for segment packets reports every aligned window.
-/

namespace Multimeter

section

variable {v : Variant} {stream : List UInt8} {p : Nat}

theorem mem_sweep_sound {e : ScanEvent} (he : e ∈ (sweep v stream p).events) :
    e.offset + v.frameLength ≤ stream.length ∧ v.IsFrame (v.window stream e.offset) ∧
      e.outcome = v.decode (v.window stream e.offset) := by
  fun_induction sweep v stream p with
  | case1 p hfits hframe later ih =>
    rcases List.mem_cons.mp he with rfl | he
    · rw [ScanEvent.offset_ofOutcome, ScanEvent.outcome_ofOutcome]
      exact ⟨hfits, hframe, rfl⟩
    · exact ih he
  | case2 p hfits hframe later ih => exact ih he
  | case3 p hend => simp at he

theorem exists_covering_event {q : Nat} (hq : p ≤ q) (hfits : q + v.frameLength ≤ stream.length)
    (hframe : v.IsFrame (v.window stream q)) :
    ∃ e ∈ (sweep v stream p).events, e.offset ≤ q ∧ q < e.offset + v.frameLength := by
  fun_induction sweep v stream p with
  | case1 p hfits' hframe' later ih =>
    by_cases hbehind : p + v.frameLength ≤ q
    · obtain ⟨e, he, hcover⟩ := ih hbehind
      exact ⟨e, List.mem_cons_of_mem _ he, hcover⟩
    · refine ⟨_, List.mem_cons_self, ?_⟩
      rw [ScanEvent.offset_ofOutcome]
      omega
  | case2 p hfits' hskip later ih =>
    have hne : p ≠ q := fun h => hskip (h ▸ hframe)
    exact ih (by omega)
  | case3 p hend => omega

theorem pairwise_offset_sweep :
    (sweep v stream p).events.Pairwise fun e e' => e.offset + v.frameLength ≤ e'.offset := by
  have h := pairwise_offset_drain v p (stream.drop p)
  rwa [drain_eq_sweep] at h

end

namespace Scanner

/-- **Soundness, and no frame is lost.** Events are in order and their frames do not overlap; each
stands for an aligned window of the stream and carries what decoding it gives; and every aligned
window is reported or begins strictly inside the frame of an event. -/
theorem feed_sound_and_covering (v : Variant) (maskParity : Bool) (chunks : List (List UInt8)) :
    let stream := masked maskParity chunks.flatten
    let events := ((fresh v maskParity).feed chunks).2
    ((events.map ScanEvent.offset).Pairwise (· < ·) ∧
      (events.map ScanEvent.offset).IsChain fun o o' => o + v.frameLength ≤ o') ∧
    (∀ e ∈ events, e.offset + v.frameLength ≤ stream.length ∧
      v.IsFrame (v.window stream e.offset) ∧ e.outcome = v.decode (v.window stream e.offset)) ∧
    ∀ p, p + v.frameLength ≤ stream.length → v.IsFrame (v.window stream p) →
      (∃ e ∈ events, e.offset = p) ∨
        ∃ e ∈ events, e.offset < p ∧ p < e.offset + v.frameLength := by
  intro stream events
  have hevents : events = (sweep v stream 0).events := events_feed_eq_sweep v maskParity chunks
  have hgap : (events.map ScanEvent.offset).Pairwise fun o o' => o + v.frameLength ≤ o' := by
    rw [List.pairwise_map, hevents]
    exact pairwise_offset_sweep
  have hpos := v.frameLength_pos
  refine ⟨⟨hgap.imp fun h => by omega, hgap.isChain⟩, fun e he => ?_, fun p hfits hframe => ?_⟩
  · rw [hevents] at he
    exact mem_sweep_sound he
  · rw [hevents]
    obtain ⟨e, he, hle, hlt⟩ := exists_covering_event (Nat.zero_le p) hfits hframe
    rcases Nat.eq_or_lt_of_le hle with heq | hlt'
    · exact Or.inl ⟨e, he, heq⟩
    · exact Or.inr ⟨e, he, hlt', hlt⟩

/-- Three equal packets of 11 bytes: the second and the third are aligned as a frame, too. -/
theorem feed_sound_and_covering_three_copies :
    let packet : List UInt8 := [0x30, 0x30, 0x31, 0x32, 0x33, 0x33, 0x30, 0x30, 0x30, 0x0d, 0x0a]
    let chunks := [packet, packet, packet]
    let events := ((fresh .slow11 false).feed chunks).2
    (11 + Variant.slow11.frameLength ≤ (masked false chunks.flatten).length ∧
      Variant.slow11.IsFrame (Variant.slow11.window (masked false chunks.flatten) 11)) ∧
    ((∃ e ∈ events, e.offset = 11) ∨
      ∃ e ∈ events, e.offset < 11 ∧ 11 < e.offset + Variant.slow11.frameLength) ∧
    events.map ScanEvent.offset = [0] := by
  intro packet chunks events
  have hfits : 11 + Variant.slow11.frameLength ≤ (masked false chunks.flatten).length := by decide
  have hframe : Variant.slow11.IsFrame (Variant.slow11.window (masked false chunks.flatten) 11) := by
    decide
  exact ⟨⟨hfits, hframe⟩, (feed_sound_and_covering .slow11 false chunks).2.2 11 hfits hframe,
    by decide +kernel⟩

end Scanner

/-! ## Segment packets -/

theorem byte_window_bm25x (stream : List UInt8) (p : Nat) {i : Nat} (hi : i < 15) :
    Bm25x.Packet.byte ⟨Variant.bm25x.window stream p⟩ i = stream[p + i]?.getD 0 := by
  rw [Bm25x.Packet.byte, Variant.getElem?_window .bm25x stream p hi]

/-- **Aligned segment windows never overlap**: the sync byte of the second would count its position
in the first, but its high nibble is zero. -/
theorem gap_of_isFrame_bm25x {stream : List UInt8} {p q : Nat} (hpq : p < q)
    (hp : Variant.bm25x.IsFrame (Variant.bm25x.window stream p))
    (hq : Variant.bm25x.IsFrame (Variant.bm25x.window stream q)) : p + 15 ≤ q := by
  by_contra hnear
  obtain ⟨_, _, hcounters⟩ := (Variant.isFrame_bm25x_iff _).mp hp
  obtain ⟨_, hsync, _⟩ := (Variant.isFrame_bm25x_iff _).mp hq
  have hcount := hcounters (q - p) (by omega) (by unfold Bm25x.Packet.size; omega)
  rw [byte_window_bm25x stream p (by omega), Nat.add_sub_cancel' (Nat.le_of_lt hpq)] at hcount
  rw [byte_window_bm25x stream q (by omega), Nat.add_zero] at hsync
  rw [hsync] at hcount
  have hzero : Bm25x.Packet.syncByte.toNat / 16 = 0 := by decide
  omega

namespace Scanner

/-- **A scanner for segment packets reports every aligned window**, and two of them are never less
than a frame apart. -/
theorem mem_offsets_bm25x_iff (chunks : List (List UInt8)) :
    let stream := chunks.flatten
    let events := ((fresh .bm25x false).feed chunks).2
    (∀ p, p ∈ events.map ScanEvent.offset ↔
      p + 15 ≤ stream.length ∧ Variant.bm25x.IsFrame (Variant.bm25x.window stream p)) ∧
    ∀ p q, p < q → Variant.bm25x.IsFrame (Variant.bm25x.window stream p) →
      Variant.bm25x.IsFrame (Variant.bm25x.window stream q) → p + 15 ≤ q := by
  intro stream events
  refine ⟨fun p => ?_, fun p q hpq hp hq => gap_of_isFrame_bm25x hpq hp hq⟩
  have hevents : events = (sweep .bm25x stream 0).events := by
    have h := events_feed_eq_sweep .bm25x false chunks
    rwa [masked_false] at h
  rw [hevents]
  constructor
  · rintro hmem
    obtain ⟨e, he, rfl⟩ := List.mem_map.mp hmem
    obtain ⟨hfits, hframe, _⟩ := mem_sweep_sound he
    exact ⟨hfits, hframe⟩
  · rintro ⟨hfits, hframe⟩
    have hlen : Variant.bm25x.frameLength = 15 := rfl
    obtain ⟨e, he, hle, hlt⟩ :=
      exists_covering_event (Nat.zero_le p) (by rwa [hlen]) hframe
    rcases Nat.eq_or_lt_of_le hle with rfl | hbefore
    · exact List.mem_map_of_mem he
    · -- the frame that covers the window would begin less than a frame before it
      have hgap := gap_of_isFrame_bm25x hbefore (mem_sweep_sound he).2.1 hframe
      omega

/-- A frame that breaks off, then two whole ones. -/
theorem mem_offsets_bm25x_iff_after_broken :
    let frame : List UInt8 := [0x02, 0x1c, 0x20, 0x30, 0x4a, 0x5a, 0x6d, 0x79, 0x8f, 0x94, 0xae,
      0xb0, 0xc0, 0xd0, 0xe4]
    let chunks := [frame.take 10 ++ frame.take 3, frame.drop 3, frame]
    (10 < 25 ∧ Variant.bm25x.IsFrame (Variant.bm25x.window chunks.flatten 10) ∧
      Variant.bm25x.IsFrame (Variant.bm25x.window chunks.flatten 25)) ∧ 10 + 15 ≤ 25 ∧
    10 ∈ ((fresh .bm25x false).feed chunks).2.map ScanEvent.offset ∧
    0 ∉ ((fresh .bm25x false).feed chunks).2.map ScanEvent.offset := by
  intro frame chunks
  have h10 : Variant.bm25x.IsFrame (Variant.bm25x.window chunks.flatten 10) := by decide
  have h25 : Variant.bm25x.IsFrame (Variant.bm25x.window chunks.flatten 25) := by decide
  have h := mem_offsets_bm25x_iff chunks
  exact ⟨⟨by decide, h10, h25⟩, h.2 10 25 (by decide) h10 h25,
    (h.1 10).mpr ⟨by decide, h10⟩, fun h0 => absurd ((h.1 0).mp h0).2 (by decide)⟩

end Scanner

end Multimeter
