import Mathlib.Algebra.BigOperators.Group.List.Basic
import Mathlib.Algebra.GroupWithZero.Nat
import Mathlib.Data.List.Induction
import Mathlib.Data.List.Sort
import Mathlib.Data.String.Basic
import Multimeter.Proofs.Lookup
import Multimeter.Tally

/-!
# What a tally keeps

Counting rejections one by one keeps, of every identifier, the class and the message of its first
rejection, how often it came and its first texts. The order in which different identifiers come does
not matter.

* `Tally.ofRejections`: all rejections of a list, counted in order; `Tally.withId`: those with an
  identifier.
* `Tally.lookup_set`, `Tally.total_add`: what one rejection changes.
* **`Tally.lookup_ofRejections`**: what a tally keeps of an identifier.
* **`Tally.pairwise_summaries`**: the summaries of any tally are in order, no two of one identifier.
* `Tally.mem_summaries_iff`, `Tally.mem_map_id_summaries`: what they are.
* `Tally.sum_count_summaries`: their sum.
-/

namespace Multimeter

namespace Tally

/-- Counts all rejections of a list, each with its offset, in order. -/
def ofRejections (l : List (Nat × PacketError)) : Tally := l.foldl (fun t e => t.add e.1 e.2) {}

/-- The additions with an identifier, in order. -/
def withId (l : List (Nat × PacketError)) (id : String) : List (Nat × PacketError) :=
  l.filter fun e => e.2.reason.id = id

theorem ofRejections_concat (l : List (Nat × PacketError)) (e : Nat × PacketError) :
    ofRejections (l ++ [e]) = (ofRejections l).add e.1 e.2 := by
  rw [ofRejections, List.foldl_append]
  rfl

theorem withId_concat (l : List (Nat × PacketError)) (e : Nat × PacketError) (id : String) :
    withId (l ++ [e]) id = if id = e.2.reason.id then withId l id ++ [e] else withId l id := by
  unfold withId
  rw [List.filter_append]
  split_ifs with h
  · rw [List.filter_cons_of_pos (by simpa using h.symm), List.filter_nil]
  · rw [List.filter_cons_of_neg (by simpa using Ne.symm h), List.filter_nil, List.append_nil]

theorem mem_withId {l : List (Nat × PacketError)} {id : String} {e : Nat × PacketError} :
    e ∈ withId l id ↔ e ∈ l ∧ e.2.reason.id = id := by
  rw [withId, List.mem_filter, decide_eq_true_eq]

end Tally

/-! ## One entry -/

/-- What is kept of rejections that share an identifier. Before the first of them it is nothing. -/
def TallyEntry.ofRejections? (l : List (Nat × PacketError)) : Option TallyEntry :=
  l.head?.map fun first =>
    { rejectionClass := first.2.toClass
      message := first.2.reason.summary
      count := UInt64.ofNat l.length
      examples := (l.take Tally.maxExamples).map fun e => Tally.exampleText e.1 e.2 }

theorem TallyEntry.ofRejections?_concat (l : List (Nat × PacketError)) (e : Nat × PacketError) :
    ofRejections? (l ++ [e]) =
      some (((ofRejections? l).getD (.opened e.2)).record (Tally.exampleText e.1 e.2)) := by
  have htake : (l ++ [e]).take Tally.maxExamples =
      if (l.take Tally.maxExamples).length < Tally.maxExamples then l.take Tally.maxExamples ++ [e]
      else l.take Tally.maxExamples := by
    rw [List.length_take]
    split_ifs with hfull
    · have hroom : (l ++ [e]).length ≤ Tally.maxExamples := by
        rw [List.length_append, List.length_singleton]
        omega
      rw [List.take_of_length_le hroom, List.take_of_length_le (by omega)]
    · rw [List.take_append_of_le_length (by omega)]
  cases l with
  | nil => rfl
  | cons first rest =>
    have hcount : UInt64.ofNat (first :: rest ++ [e]).length =
        UInt64.ofNat (first :: rest).length + 1 := by
      rw [List.length_append, List.length_singleton, UInt64.ofNat_add]
      rfl
    rw [ofRejections?, htake, hcount]
    simp only [ofRejections?, record, List.cons_append, List.head?_cons, Option.map_some,
      Option.getD_some, List.length_map]
    split_ifs
    · rw [List.map_append, List.map_singleton]
    · rfl

/-! ## Entries by identifier -/

namespace Tally

theorem lookup_set (t : Tally) (id id' : String) (entry : TallyEntry) :
    (t.set id entry).byId.lookup id' = if id' = id then some entry else t.byId.lookup id' :=
  lookup_replace t.byId id id' entry

/-- **A tally keeps the class and the message of the first rejection with an identifier, their
number and the first three texts**, and nothing of an identifier that did not occur. -/
theorem lookup_ofRejections (l : List (Nat × PacketError)) (id : String) :
    (ofRejections l).byId.lookup id = TallyEntry.ofRejections? (withId l id) := by
  -- From the right, where the rejection stands that is counted last.
  induction l using List.reverseRecOn with
  | nil => rfl
  | append_singleton l e ih =>
    rw [ofRejections_concat, add, lookup_set, withId_concat]
    split_ifs with h
    · rw [TallyEntry.ofRejections?_concat, ← ih, h, entry]
    · exact ih

end Tally

/-! ## The order of summaries -/

theorem RejectionClass.rank_inj {c c' : RejectionClass} : c.rank = c'.rank ↔ c = c' := by
  cases c <;> cases c' <;> decide

namespace RejectionSummary

/-- The order of summaries: by class, and within a class by identifier. -/
def Before (s s' : RejectionSummary) : Prop :=
  s.rejectionClass.rank < s'.rejectionClass.rank ∨
    s.rejectionClass = s'.rejectionClass ∧ s.id < s'.id

instance : Std.TransCmp cmp := inferInstanceAs (Std.TransCmp (compareLex _ _))

theorem cmp_eq_lt_iff {s s' : RejectionSummary} : s.cmp s' = .lt ↔ s.Before s' := by
  rw [cmp, compareLex, compareOn, compareOn, Ordering.then_eq_lt, compare_lt_iff_lt,
    compare_eq_iff_eq, compare_lt_iff_lt, RejectionClass.rank_inj, Before]

theorem id_eq_of_cmp_eq {s s' : RejectionSummary} (h : s.cmp s' = .eq) : s.id = s'.id :=
  compare_eq_iff_eq.mp (Ordering.then_eq_eq.mp h).2

theorem isLE_cmp_or (s s' : RejectionSummary) : ((s.cmp s').isLE || (s'.cmp s).isLE) = true := by
  have hswap : s'.cmp s = (s.cmp s').swap := Std.OrientedCmp.eq_swap
  rw [hswap]
  cases s.cmp s' <;> rfl

instance : Std.Asymm Before where
  asymm s s' h h' := by
    have hswap : s.cmp s' = (s'.cmp s).swap := Std.OrientedCmp.eq_swap
    rw [cmp_eq_lt_iff.mpr h, cmp_eq_lt_iff.mpr h'] at hswap
    contradiction

end RejectionSummary

namespace Tally

variable (t : Tally)

theorem perm_summaries : t.summaries.Perm (t.byId.map fun e => .ofEntry e.1 e.2) :=
  List.mergeSort_perm _ _

theorem nodup_id_summaries : (t.summaries.map (·.id)).Nodup := by
  rw [(t.perm_summaries.map _).nodup_iff, List.map_map]
  exact t.nodup

/-- **Summaries are in order**, and no two have the same class and identifier. -/
theorem pairwise_summaries : t.summaries.Pairwise RejectionSummary.Before := by
  have hsorted : t.summaries.Pairwise fun s s' => (s.cmp s').isLE :=
    List.pairwise_mergeSort (fun _ _ _ => Std.TransCmp.isLE_trans) RejectionSummary.isLE_cmp_or _
  have hdistinct : t.summaries.Pairwise fun s s' => s.id ≠ s'.id :=
    List.pairwise_map.mp t.nodup_id_summaries
  refine hsorted.imp₂ (fun s s' hle hne => ?_) hdistinct
  rw [← RejectionSummary.cmp_eq_lt_iff]
  exact (Ordering.isLE_iff_eq_lt_or_eq_eq.mp hle).resolve_right
    fun heq => hne (RejectionSummary.id_eq_of_cmp_eq heq)

variable {t} in
/-- The order leaves no choice: any list of the summaries that is in order is the sorted one. -/
theorem summaries_eq_of_perm {l : List RejectionSummary}
    (h : (t.byId.map fun e => .ofEntry e.1 e.2).Perm l) (hl : l.Pairwise RejectionSummary.Before) :
    t.summaries = l :=
  (t.perm_summaries.trans h).eq_of_pairwise' t.pairwise_summaries hl

theorem mem_summaries {s : RejectionSummary} :
    s ∈ t.summaries ↔ ∃ entry, t.byId.lookup s.id = some entry ∧ s = .ofEntry s.id entry := by
  rw [t.perm_summaries.mem_iff, List.mem_map]
  constructor
  · rintro ⟨⟨id, entry⟩, he, rfl⟩
    exact ⟨entry, (lookup_eq_some_iff_mem t.nodup).mpr he, rfl⟩
  · rintro ⟨entry, he, hs⟩
    exact ⟨(s.id, entry), (lookup_eq_some_iff_mem t.nodup).mp he, hs.symm⟩

end Tally

/-! ## The summaries of a list of rejections -/

namespace Tally

variable {l : List (Nat × PacketError)} {s : RejectionSummary}

theorem mem_summaries_iff : s ∈ (ofRejections l).summaries ↔
    ∃ entry, TallyEntry.ofRejections? (withId l s.id) = some entry ∧ s = .ofEntry s.id entry := by
  rw [mem_summaries, lookup_ofRejections]

theorem exists_of_mem_summaries (hs : s ∈ (ofRejections l).summaries) :
    ∃ first ∈ l, first.2.reason.id = s.id ∧ s.rejectionClass = first.2.toClass ∧
      s.message = first.2.reason.summary ∧ s.count = UInt64.ofNat (withId l s.id).length ∧
      s.examples = ((withId l s.id).take maxExamples).map fun e => exampleText e.1 e.2 := by
  obtain ⟨entry, hentry, hs⟩ := mem_summaries_iff.mp hs
  obtain ⟨first, hfirst, rfl⟩ := Option.map_eq_some_iff.mp hentry
  obtain ⟨hmem, hid⟩ := mem_withId.mp (List.mem_of_head? hfirst)
  exact ⟨first, hmem, hid, congrArg (·.rejectionClass) hs, congrArg (·.message) hs,
    congrArg (·.count) hs, congrArg (·.examples) hs⟩

theorem mem_map_id_summaries {id : String} :
    id ∈ (ofRejections l).summaries.map (·.id) ↔ ∃ e ∈ l, e.2.reason.id = id := by
  constructor
  · intro hid
    obtain ⟨s, hs, rfl⟩ := List.mem_map.mp hid
    obtain ⟨first, hmem, hfirst, -⟩ := exists_of_mem_summaries hs
    exact ⟨first, hmem, hfirst⟩
  · rintro ⟨e, he, hid⟩
    obtain ⟨first, rest, hwith⟩ := List.exists_cons_of_ne_nil
      (List.ne_nil_of_mem (mem_withId.mpr ⟨he, hid⟩))
    have hentry : ∃ entry, TallyEntry.ofRejections? (withId l id) = some entry := by
      rw [hwith]
      exact ⟨_, rfl⟩
    obtain ⟨entry, hentry⟩ := hentry
    exact List.mem_map.mpr ⟨.ofEntry id entry, mem_summaries_iff.mpr ⟨entry, hentry, rfl⟩, rfl⟩

theorem summaries_eq_nil_iff : (ofRejections l).summaries = [] ↔ l = [] := by
  rw [← List.map_eq_nil_iff (f := (·.id)), List.eq_nil_iff_forall_not_mem,
    List.eq_nil_iff_forall_not_mem]
  simp only [mem_map_id_summaries]
  exact ⟨fun h e he => h _ ⟨e, he, rfl⟩, fun h id ⟨e, he, _⟩ => h e he⟩

theorem sampled_of_mem_summaries (h : l.length < 2 ^ 64) (hs : s ∈ (ofRejections l).summaries) :
    1 ≤ s.count.toNat ∧ s.examples.length = min 3 s.count.toNat := by
  obtain ⟨first, hmem, hid, -, -, hcount, hexamples⟩ := exists_of_mem_summaries hs
  have hle : (withId l s.id).length ≤ l.length := List.length_filter_le _ l
  have hfits : s.count.toNat = (withId l s.id).length := by
    rw [hcount]
    exact UInt64.toNat_ofNat_of_lt' (Nat.lt_of_le_of_lt hle h)
  rw [hfits, hexamples, List.length_map, List.length_take]
  exact ⟨List.length_pos_of_mem (mem_withId.mpr ⟨hmem, hid⟩), rfl⟩

/-! ## The sum of the counts -/

/-- The rejections that a tally counts. -/
def total (t : Tally) : Nat := (t.byId.map fun e => e.2.count.toNat).sum

theorem sum_count_eq {entries : List (String × TallyEntry)} (h : (entries.map Prod.fst).Nodup)
    (id : String) : (entries.map fun e => e.2.count.toNat).sum =
      (entries.lookup id).elim 0 (·.count.toNat) +
        ((entries.filter fun e => e.1 ≠ id).map fun e => e.2.count.toNat).sum := by
  induction entries with
  | nil => rfl
  | cons e rest ih =>
    obtain ⟨hfresh, hrest⟩ := List.nodup_cons.mp h
    by_cases hid : e.1 = id
    · have hothers : (rest.filter fun e => e.1 ≠ id) = rest :=
        List.filter_eq_self.mpr fun e' he' =>
          decide_eq_true fun heq => hfresh (hid.trans heq.symm ▸ List.mem_map_of_mem he')
      rw [List.filter_cons_of_neg (by simpa using hid), hothers, List.lookup_cons,
        beq_iff_eq.mpr hid.symm, List.map_cons, List.sum_cons]
      rfl
    · rw [List.filter_cons_of_pos (by simpa using hid), List.lookup_cons,
        beq_false_of_ne (Ne.symm hid), List.map_cons, List.sum_cons, List.map_cons, List.sum_cons,
        ih hrest]
      exact Nat.add_left_comm _ _ _

theorem total_add (t : Tally) (offset : Nat) (e : PacketError) (h : t.total + 1 < 2 ^ 64) :
    (t.add offset e).total = t.total + 1 := by
  have hsplit := sum_count_eq t.nodup e.reason.id
  have hold : (t.byId.lookup e.reason.id).elim 0 (·.count.toNat) = (t.entry e).count.toNat := by
    rw [entry]
    cases t.byId.lookup e.reason.id <;> rfl
  have hcount : ((t.entry e).record (exampleText offset e)).count.toNat =
      (t.entry e).count.toNat + 1 := by
    change ((t.entry e).count + 1).toNat = _
    rw [UInt64.toNat_add, UInt64.toNat_one]
    unfold total at h
    omega
  rw [hold] at hsplit
  rw [add, set, total, List.map_cons, List.sum_cons, hcount, total, hsplit]
  omega

theorem total_ofRejections (h : l.length < 2 ^ 64) : (ofRejections l).total = l.length := by
  induction l using List.reverseRecOn with
  | nil => rfl
  | append_singleton l e ih =>
    rw [List.length_append, List.length_singleton] at h ⊢
    have htotal := ih (by omega)
    rw [ofRejections_concat, total_add _ _ _ (by omega), htotal]

/-- **The counts add up to the number of rejections.** -/
theorem sum_count_summaries (h : l.length < 2 ^ 64) :
    ((ofRejections l).summaries.map fun s => s.count.toNat).sum = l.length := by
  rw [((perm_summaries _).map _).sum_eq, List.map_map]
  exact total_ofRejections h

end Tally

end Multimeter
