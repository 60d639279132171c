import Multimeter.Proofs.Tally

/-!
# The summaries of a tally

A tally is judged by the rejections that were added to it, whatever family each of them is of: one
summary for each identifier among them, and every field of it is read off the additions with this
identifier. What a summary says besides its examples does not depend on the order of the additions.

* `RejectionReason.id_injective`: reasons are told apart by their identifiers.
* `RejectionSummary.Describes`: the fields of a summary, by the additions.
* `RejectionSummary.totals`: what a summary says besides its examples;
  **`Tally.totals_summaries_perm`**.
* **`Tally.summaries_describe`**: the summaries of any sequence of additions.
-/

namespace Multimeter

theorem RejectionReason.id_injective : Function.Injective id := by
  intro r r' h
  cases r <;> cases r' <;> first | rfl | exact absurd h (by decide)

/-- The fields of a summary, by the additions with its identifier: they share its class and its
message, and it has their number and the texts of the first three of them. -/
structure RejectionSummary.Describes (s : RejectionSummary) (l : List (Nat × PacketError)) :
    Prop where
  occurs : ∃ e ∈ l, e.2.reason.id = s.id
  class_eq : ∀ e ∈ l, e.2.reason.id = s.id → s.rejectionClass = e.2.toClass
  message_eq : ∀ e ∈ l, e.2.reason.id = s.id → s.message = e.2.reason.summary
  count_eq : s.count = UInt64.ofNat (Tally.withId l s.id).length
  toNat_count : (Tally.withId l s.id).length < 2 ^ 64 →
    s.count.toNat = (Tally.withId l s.id).length
  examples_eq : s.examples = ((Tally.withId l s.id).take (min 3 (Tally.withId l s.id).length)).map
    fun e => s!"offset {e.1}: {e.2.message}"

namespace RejectionSummary

theorem describes_of_mem_summaries {s : RejectionSummary} {l : List (Nat × PacketError)}
    (hs : s ∈ (Tally.ofRejections l).summaries) : s.Describes l := by
  obtain ⟨first, hmem, hfirst, hclass, hmessage, hcount, hexamples⟩ :=
    Tally.exists_of_mem_summaries hs
  have hsame {e : Nat × PacketError} (he : e.2.reason.id = s.id) : first.2.reason = e.2.reason :=
    RejectionReason.id_injective (hfirst.trans he.symm)
  refine ⟨⟨first, hmem, hfirst⟩, fun e _ hid => ?_, fun e _ hid => ?_, hcount, fun hfits => ?_, ?_⟩
  · rw [hclass, PacketError.toClass, hsame hid, PacketError.toClass]
  · rw [hmessage, hsame hid]
  · rw [hcount]
    exact UInt64.toNat_ofNat_of_lt' hfits
  · have htake : (Tally.withId l s.id).take Tally.maxExamples =
        (Tally.withId l s.id).take (min 3 (Tally.withId l s.id).length) := by
      simp [Tally.maxExamples, List.take_eq_take_iff]
    rw [hexamples, htake]
    rfl

/-- What a summary says besides its examples. -/
def totals (s : RejectionSummary) : String × RejectionClass × String × UInt64 :=
  (s.id, s.rejectionClass, s.message, s.count)

theorem Describes.totals_eq {s s' : RejectionSummary} {l l' : List (Nat × PacketError)}
    (hs : s.Describes l) (hs' : s'.Describes l') (h : l.Perm l') (hid : s.id = s'.id) :
    s.totals = s'.totals := by
  obtain ⟨e, he, heid⟩ := hs.occurs
  have he' : e ∈ l' := h.mem_iff.mp he
  have hclass := (hs.class_eq e he heid).trans (hs'.class_eq e he' (heid.trans hid)).symm
  have hmessage := (hs.message_eq e he heid).trans (hs'.message_eq e he' (heid.trans hid)).symm
  have hcount : s.count = s'.count := by
    rw [hs.count_eq, hs'.count_eq, ← hid]
    exact congrArg UInt64.ofNat (h.filter _).length_eq
  rw [totals, totals, hid, hclass, hmessage, hcount]

end RejectionSummary

namespace Tally

variable {l l' : List (Nat × PacketError)}

theorem mem_totals_of_perm (h : l.Perm l') {x : String × RejectionClass × String × UInt64}
    (hx : x ∈ (ofRejections l).summaries.map (·.totals)) :
    x ∈ (ofRejections l').summaries.map (·.totals) := by
  obtain ⟨s, hs, rfl⟩ := List.mem_map.mp hx
  have hdescribes := RejectionSummary.describes_of_mem_summaries hs
  obtain ⟨e, he, hid⟩ := hdescribes.occurs
  obtain ⟨s', hs', hid'⟩ := List.mem_map.mp (mem_map_id_summaries.mpr ⟨e, h.mem_iff.mp he, hid⟩)
  refine List.mem_map.mpr ⟨s', hs', ?_⟩
  exact ((RejectionSummary.describes_of_mem_summaries hs').totals_eq hdescribes h.symm hid')

/-- **The order of the additions** is only seen in the examples. -/
theorem totals_summaries_perm (h : l.Perm l') :
    (ofRejections l).summaries.map (·.totals) = (ofRejections l').summaries.map (·.totals) := by
  -- The order does not look at the examples, and lists in this order with the same members are equal.
  let bare (x : String × RejectionClass × String × UInt64) : RejectionSummary :=
    ⟨x.1, x.2.1, x.2.2.1, x.2.2.2, []⟩
  have hsorted (t : Tally) :
      (t.summaries.map (·.totals)).Pairwise (InvImage RejectionSummary.Before bare) :=
    List.pairwise_map.mpr t.pairwise_summaries
  have hasymm : Std.Asymm (InvImage RejectionSummary.Before bare) :=
    ⟨fun x y => Std.Asymm.asymm (bare x) (bare y)⟩
  exact List.Pairwise.eq_of_mem_iff (hsorted _) (hsorted _)
    fun x => ⟨mem_totals_of_perm h, mem_totals_of_perm h.symm⟩

/-- **The summaries of any sequence of additions.** There is exactly one for each identifier that
occurs, in strict order by class and identifier; each describes the additions with its identifier;
and reordering the additions changes nothing but examples. -/
theorem summaries_describe (l : List (Nat × PacketError)) :
    (((ofRejections l).summaries.map (·.id)).Nodup ∧
      ∀ id, id ∈ (ofRejections l).summaries.map (·.id) ↔ ∃ e ∈ l, e.2.reason.id = id) ∧
    (ofRejections l).summaries.Pairwise RejectionSummary.Before ∧
    (∀ s ∈ (ofRejections l).summaries, s.Describes l) ∧
    ∀ l', l.Perm l' →
      (ofRejections l').summaries.map (·.totals) = (ofRejections l).summaries.map (·.totals) := by
  exact ⟨⟨nodup_id_summaries _, fun id => mem_map_id_summaries⟩, pairwise_summaries _,
    fun s => RejectionSummary.describes_of_mem_summaries, fun l' h => (totals_summaries_perm h).symm⟩

/-- AC together with DC, four times and from both families, with a short packet and a wrong range in
between. -/
theorem summaries_describe_both_families :
    let added : List (Nat × PacketError) :=
      [(0, .bm25x .acAndDc), (15, .es519xx (.invalidRange 0x39)), (30, .es519xx .acAndDc),
        (52, .bm25x .acAndDc), (67, .es519xx (.invalidLength 22 3)), (70, .bm25x .acAndDc)]
    let conflict : RejectionSummary :=
      { id := "DMM-FLAGS-AC-DC"
        rejectionClass := .conflict
        message := "AC and DC both active"
        count := 4
        examples := ["offset 0: bm25x: both AC and DC flags set",
          "offset 30: es519xx: both AC and DC flags set",
          "offset 52: bm25x: both AC and DC flags set"] }
    (ofRejections added).summaries.map (·.id) =
      ["DMM-FRAME-LENGTH", "DMM-FLAGS-AC-DC", "DMM-VALUE-RANGE"] ∧
    (conflict ∈ (ofRejections added).summaries ∧ conflict.Describes added) ∧
    (added.Perm added.reverse ∧ (ofRejections added.reverse).summaries.map (·.totals) =
      (ofRejections added).summaries.map (·.totals)) := by
  intro added conflict
  have hsummaries : (ofRejections added).summaries =
      [⟨"DMM-FRAME-LENGTH", .framing, "frame length does not match the protocol", 1,
          ["offset 67: es519xx: invalid packet length: need 22 bytes, got 3"]⟩,
        conflict,
        ⟨"DMM-VALUE-RANGE", .decode, "range byte outside the exponent table", 1,
          ["offset 15: es519xx: invalid range byte: 0x39"]⟩] :=
    summaries_eq_of_perm (by decide +kernel)
      (by simp [RejectionSummary.Before, RejectionClass.rank, conflict])
  have hids : (ofRejections added).summaries.map (·.id) =
      ["DMM-FRAME-LENGTH", "DMM-FLAGS-AC-DC", "DMM-VALUE-RANGE"] := by
    rw [hsummaries]
    rfl
  have hmem : conflict ∈ (ofRejections added).summaries := by
    rw [hsummaries]
    exact List.mem_cons_of_mem _ List.mem_cons_self
  have hperm : added.Perm added.reverse := (List.reverse_perm added).symm
  obtain ⟨_, _, hdescribes, hreordered⟩ := summaries_describe added
  exact ⟨hids, ⟨hmem, hdescribes conflict hmem⟩, hperm, hreordered _ hperm⟩

end Tally

end Multimeter
