import Multimeter.Protocol.Error

/-!
# Tally of rejections

Rejections are counted by identifier, with the texts of the first three of each.

* `Tally.add`: counting one rejection.
* `Tally.summaries`: one summary for each identifier that occurred, sorted by class and then by
  identifier.
-/

namespace Multimeter

/-- What is kept of the rejections with one identifier. -/
structure TallyEntry where
  rejectionClass : RejectionClass
  message : String
  count : UInt64
  examples : List String
deriving DecidableEq, Repr

/-- Entries by identifier, each identifier at most once. -/
structure Tally where
  byId : List (String × TallyEntry) := []
  nodup : (byId.map Prod.fst).Nodup := by exact List.nodup_nil
deriving DecidableEq, Repr

/-- The rejections with one identifier, as reports show them. -/
structure RejectionSummary where
  id : String
  rejectionClass : RejectionClass
  message : String
  count : UInt64
  examples : List String
deriving DecidableEq, Repr

/-- How many texts are kept of each identifier. -/
def Tally.maxExamples : Nat := 3

namespace TallyEntry

/-- The entry that the first rejection with an identifier opens. -/
def opened (e : PacketError) : TallyEntry where
  rejectionClass := e.toClass
  message := e.reason.summary
  count := 0
  examples := []

def record (entry : TallyEntry) (text : String) : TallyEntry :=
  { entry with
    count := entry.count + 1
    examples :=
      if entry.examples.length < Tally.maxExamples then entry.examples ++ [text]
      else entry.examples }

end TallyEntry

namespace RejectionSummary

def ofEntry (id : String) (entry : TallyEntry) : RejectionSummary where
  id := id
  rejectionClass := entry.rejectionClass
  message := entry.message
  count := entry.count
  examples := entry.examples

/-- By class and, within a class, by identifier. -/
def cmp : RejectionSummary → RejectionSummary → Ordering :=
  compareLex (compareOn (·.rejectionClass.rank)) (compareOn (·.id))

end RejectionSummary

namespace Tally

def exampleText (offset : Nat) (e : PacketError) : String := s!"offset {offset}: {e.message}"

/-- What is kept of the identifier of an error so far. -/
def entry (t : Tally) (e : PacketError) : TallyEntry :=
  (t.byId.lookup e.reason.id).getD (.opened e)

/-- The tally with the entry of `id` replaced. -/
def set (t : Tally) (id : String) (entry : TallyEntry) : Tally where
  byId := (id, entry) :: t.byId.filter fun e => e.1 ≠ id
  nodup := by
    rw [List.map_cons, List.nodup_cons]
    refine ⟨fun h => ?_, t.nodup.sublist (List.filter_sublist.map _)⟩
    obtain ⟨e, he, hid⟩ := List.mem_map.mp h
    exact of_decide_eq_true (List.mem_filter.mp he).2 hid

/-- Counts one rejection at an offset of the stream. -/
def add (t : Tally) (offset : Nat) (e : PacketError) : Tally :=
  t.set e.reason.id ((t.entry e).record (exampleText offset e))

/-- One summary for each identifier that occurred, by class and then by identifier. -/
def summaries (t : Tally) : List RejectionSummary :=
  (t.byId.map fun e => .ofEntry e.1 e.2).mergeSort fun s s' => (s.cmp s').isLE

end Tally

end Multimeter
