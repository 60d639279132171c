import Multimeter.Proofs.Scanner.Feed

/-!
# Masked parity

A scanner that masks parity differs from a plain one only in the bytes that it takes in, so it is a
plain scanner behind a filter. A segment packet counts up to 14 in its high nibbles and needs bit 7
there: behind the filter no such packet is left.

* `Scanner.lowSeven`: the byte that stays when bit 7 is cleared; `mask_true`.
* `Scanner.observe`: what can be seen of a scanner behind each push.
* `Scanner.push_withMask`: one push; **`Scanner.observe_withMask`**: every run.
* **`drain_of_forall_not_isFrame`**: bytes without a frame are skipped, all but the last few.
* **`Scanner.masked_parity`**: masking is clearing bit 7, and it silences segment packets.
-/

namespace Multimeter

/-! ## Bytes without a frame -/

theorem drain_of_forall_not_isFrame {v : Variant} (offset : Nat) {bytes : List UInt8}
    (h : ∀ j, ¬ v.IsFrame ((bytes.drop j).take v.frameLength)) :
    let k := bytes.length - (v.frameLength - 1)
    drain v offset bytes = ⟨[], k, 0, 0, bytes.drop k⟩ := by
  intro k
  have hpos := v.frameLength_pos
  induction offset, bytes using drain_induction v with
  | short offset bytes hlen =>
    have hk : k = 0 := by omega
    rw [drain_of_short hlen, hk, List.drop_zero]
  | skip offset bytes hlen hf ih =>
    have hlater : ∀ j, ¬ v.IsFrame (((bytes.drop 1).drop j).take v.frameLength) := by
      intro j
      rw [List.drop_drop]
      exact h (1 + j)
    have hk : k = (bytes.drop 1).length - (v.frameLength - 1) + 1 := by
      rw [List.length_drop]
      omega
    rw [drain_of_not_aligned hlen hf, ih hlater, hk, List.drop_drop, Nat.add_comm 1]
    rfl
  | frame offset bytes hlen hf ih => exact absurd hf (h 0)

theorem not_isFrame_bm25x_of_forall_lt {frame : List UInt8} (h : ∀ b ∈ frame, b < 0x80) :
    ¬ Variant.bm25x.IsFrame frame := by
  intro hframe
  obtain ⟨hlength, _, hcounters⟩ := (Variant.isFrame_bm25x_iff frame).mp hframe
  have hlt : 8 < frame.length := by
    rw [hlength]
    decide
  have hbyte : Bm25x.Packet.byte ⟨frame⟩ 8 = frame[8] := by
    simp [Bm25x.Packet.byte, hlt]
  have hcount : frame[8].toNat / 16 = 8 := by
    rw [← hbyte]
    exact hcounters 8 (by decide) (by decide)
  have hlow : frame[8].toNat < 128 := h _ (List.getElem_mem hlt)
  omega

namespace Scanner

/-! ## Clearing bit 7 -/

/-- The byte with the same low seven bits and bit 7 cleared. -/
def lowSeven (b : UInt8) : UInt8 := UInt8.ofNat (b.toNat % 128)

theorem toNat_lowSeven (b : UInt8) : (lowSeven b).toNat = b.toNat % 128 := by
  rw [lowSeven, UInt8.toNat_ofNat']
  omega

theorem mask_true (b : UInt8) : mask true b = lowSeven b := by
  apply UInt8.toNat_inj.mp
  rw [toNat_lowSeven]
  exact Nat.and_two_pow_sub_one_eq_mod b.toNat 7

theorem lowSeven_of_lt {b : UInt8} (h : b < 0x80) : lowSeven b = b := by
  have hlow : b.toNat < 128 := h
  apply UInt8.toNat_inj.mp
  rw [toNat_lowSeven, Nat.mod_eq_of_lt hlow]

theorem lowSeven_lt (b : UInt8) : lowSeven b < 0x80 := by
  change (lowSeven b).toNat < 128
  rw [toNat_lowSeven]
  omega

theorem masked_true (stream : List UInt8) : masked true stream = stream.map lowSeven :=
  List.map_congr_left fun b _ => mask_true b

theorem map_lowSeven_of_forall_lt {stream : List UInt8} (h : ∀ b ∈ stream, b < 0x80) :
    stream.map lowSeven = stream := by
  rw [List.map_congr_left fun b hb => lowSeven_of_lt (h b hb), List.map_id']

/-! ## What can be seen of a scanner -/

/-- What a scanner shows behind a push. -/
structure Observation where
  /-- The events of the push, with their offsets. -/
  events : List ScanEvent
  stats : ScanStats
  pending : Nat
deriving DecidableEq, Repr

/-- What a scanner shows behind each of some pushes. -/
def observe (s : Scanner) : List (List UInt8) → List Observation
  | [] => []
  | chunk :: rest =>
    ⟨(s.push chunk).2, (s.push chunk).1.stats, (s.push chunk).1.pending⟩ ::
      (s.push chunk).1.observe rest

/-- The scanner with masking switched. -/
def withMask (s : Scanner) (maskParity : Bool) : Scanner := { s with maskParity := maskParity }

theorem push_withMask (s : Scanner) (chunk : List UInt8) :
    (s.withMask true).push chunk =
      (((s.withMask false).push (chunk.map lowSeven)).1.withMask true,
        ((s.withMask false).push (chunk.map lowSeven)).2) := by
  have htrue : chunk.map (mask true) = chunk.map lowSeven := masked_true chunk
  have hfalse : (chunk.map lowSeven).map (mask false) = chunk.map lowSeven := masked_false _
  simp only [push, withMask, htrue, hfalse, List.length_map]

/-- **A masked scanner is a plain one behind a filter**, through every run. -/
theorem observe_withMask (s : Scanner) (chunks : List (List UInt8)) :
    (s.withMask true).observe chunks =
      (s.withMask false).observe (chunks.map (List.map lowSeven)) := by
  induction chunks generalizing s with
  | nil => rfl
  | cons chunk rest ih =>
    rw [List.map_cons, observe, observe, push_withMask, ih]
    rfl

theorem observe_fresh_true (v : Variant) (chunks : List (List UInt8)) :
    (fresh v true).observe chunks = (fresh v false).observe (chunks.map (List.map lowSeven)) :=
  observe_withMask (fresh v true) chunks

theorem feed_fresh_true (v : Variant) (chunks : List (List UInt8)) :
    (fresh v true).feed chunks =
      (((fresh v false).push (chunks.flatten.map lowSeven)).1.withMask true,
        ((fresh v false).push (chunks.flatten.map lowSeven)).2) := by
  rw [feed_fresh]
  exact push_withMask (fresh v true) chunks.flatten

/-! ## Masked segment packets -/

theorem drain_masked_bm25x (offset : Nat) (stream : List UInt8) :
    drain .bm25x offset (stream.map lowSeven) =
      ⟨[], stream.length - 14, 0, 0, (stream.map lowSeven).drop (stream.length - 14)⟩ := by
  have hnone (j : Nat) : ¬ Variant.bm25x.IsFrame
      (((stream.map lowSeven).drop j).take Variant.bm25x.frameLength) := by
    apply not_isFrame_bm25x_of_forall_lt
    intro b hb
    obtain ⟨a, _, rfl⟩ := List.mem_map.mp (List.mem_of_mem_drop (List.mem_of_mem_take hb))
    exact lowSeven_lt a
  have hdrain := drain_of_forall_not_isFrame offset hnone
  rwa [List.length_map] at hdrain

theorem feed_masked_bm25x (chunks : List (List UInt8)) :
    let s := (fresh .bm25x true).feed chunks
    let n := chunks.flatten.length
    s.2 = [] ∧ s.1.pending = min n 14 ∧ s.1.stats = ⟨n, n - min n 14, 0, 0⟩ := by
  intro s n
  have hdrain := drain_masked_bm25x 0 chunks.flatten
  rw [← masked_true] at hdrain
  refine ⟨?_, ?_, ?_⟩
  · rw [events_feed_fresh, hdrain]
  · rw [pending_feed_fresh, hdrain, List.length_drop, length_masked]
    omega
  · rw [stats_feed_fresh, hdrain]
    simp only [ScanStats.mk.injEq, and_true]
    omega

/-- **Masking parity is clearing bit 7.** A masked scanner shows behind each push what a plain one
shows of the chunks without bit 7; streams with the same low seven bits cannot be told apart, in
whatever chunks they arrive; and where bit 7 is clear already, masking changes nothing. But a masked
scanner for segment packets finds none in any stream. -/
theorem masked_parity :
    (∀ (v : Variant) (chunks : List (List UInt8)), (fresh v true).observe chunks =
      (fresh v false).observe (chunks.map (List.map lowSeven))) ∧
    (∀ (v : Variant) (chunks chunks' : List (List UInt8)),
      chunks.map (List.map lowSeven) = chunks'.map (List.map lowSeven) →
      (fresh v true).observe chunks = (fresh v true).observe chunks') ∧
    (∀ (v : Variant) (chunks chunks' : List (List UInt8)),
      chunks.flatten.map lowSeven = chunks'.flatten.map lowSeven →
      (fresh v true).feed chunks = (fresh v true).feed chunks') ∧
    (∀ (v : Variant) (chunks : List (List UInt8)), (∀ b ∈ chunks.flatten, b < 0x80) →
      (fresh v true).observe chunks = (fresh v false).observe chunks) ∧
    ∀ chunks : List (List UInt8),
      let s := (fresh .bm25x true).feed chunks
      let n := chunks.flatten.length
      s.2 = [] ∧ s.1.pending = min n 14 ∧ s.1.stats = ⟨n, n - min n 14, 0, 0⟩ := by
  refine ⟨observe_fresh_true, ?_, ?_, ?_, feed_masked_bm25x⟩
  · intro v chunks chunks' h
    rw [observe_fresh_true, observe_fresh_true, h]
  · intro v chunks chunks' h
    rw [feed_fresh_true, feed_fresh_true, h]
  · intro v chunks h
    rw [observe_fresh_true]
    -- the filter leaves every chunk as it is
    congr 1
    rw [List.map_congr_left fun chunk hchunk => map_lowSeven_of_forall_lt fun b hb =>
      h b (List.mem_flatten.mpr ⟨chunk, hchunk, hb⟩), List.map_id']

/-- A digit packet with bit 7 set in every byte and in every other byte, in other chunks, and the
packet without bit 7. -/
theorem masked_parity_three_streams :
    let clean : List (List UInt8) := [[49, 49, 50, 51, 52, 53, 59], [48, 48, 48, 58, 48, 13, 10]]
    let noisy := clean.map (List.map (· ||| 0x80))
    let uneven : List (List UInt8) :=
      [[177], [49, 178, 51, 180, 53, 187, 48, 176, 48, 186, 48], [141, 10]]
    (noisy.map (List.map lowSeven) = clean.map (List.map lowSeven) ∧
      uneven.flatten.map lowSeven = clean.flatten.map lowSeven ∧ ∀ b ∈ clean.flatten, b < 0x80) ∧
    (fresh .fast14 true).observe noisy = (fresh .fast14 false).observe clean ∧
    (fresh .fast14 true).feed uneven = (fresh .fast14 true).feed clean := by
  intro clean noisy uneven
  have hnoisy : noisy.map (List.map lowSeven) = clean.map (List.map lowSeven) := by decide
  have huneven : uneven.flatten.map lowSeven = clean.flatten.map lowSeven := by decide
  have hclean : ∀ b ∈ clean.flatten, b < 0x80 := by simp [clean]
  obtain ⟨_, hchunks, hstreams, hclear, _⟩ := masked_parity
  exact ⟨⟨hnoisy, huneven, hclean⟩,
    (hchunks .fast14 noisy clean hnoisy).trans (hclear .fast14 clean hclean),
    hstreams .fast14 uneven clean huneven⟩

end Scanner

end Multimeter
