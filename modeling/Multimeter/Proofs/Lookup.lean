import Mathlib.Tactic.Common

/-!
# Lists with keys

Lists of pairs, looked up by their first components.

* `lookup_filter_ne`, `lookup_replace`: leaving out a key, and replacing what stands under it.
* `lookup_eq_some_iff_mem`: what is found, when no key occurs twice.
-/

namespace Multimeter

variable {α β : Type} [DecidableEq α] {l : List (α × β)} {a a' : α} {b : β}

theorem lookup_filter_ne (l : List (α × β)) (h : a' ≠ a) :
    (l.filter fun e => e.1 ≠ a).lookup a' = l.lookup a' := by
  induction l with
  | nil => rfl
  | cons e rest ih =>
    obtain ⟨first, b⟩ := e
    by_cases hfirst : first = a
    · have hother : (a' == first) = false := beq_false_of_ne (hfirst ▸ h)
      rw [List.filter_cons_of_neg (by simpa using hfirst), ih, List.lookup_cons, hother]
    · rw [List.filter_cons_of_pos (by simpa using hfirst), List.lookup_cons, List.lookup_cons, ih]

theorem lookup_replace (l : List (α × β)) (a a' : α) (b : β) :
    ((a, b) :: l.filter fun e => e.1 ≠ a).lookup a' =
      if a' = a then some b else l.lookup a' := by
  rw [List.lookup_cons]
  split_ifs with h
  · rw [beq_iff_eq.mpr h]
  · rw [beq_false_of_ne h]
    exact lookup_filter_ne l h

theorem lookup_eq_some_iff_mem (hnodup : (l.map Prod.fst).Nodup) :
    l.lookup a = some b ↔ (a, b) ∈ l := by
  constructor
  · intro h
    obtain ⟨front, behind, rfl, -⟩ := List.lookup_eq_some_iff.mp h
    exact List.mem_append_right front List.mem_cons_self
  · intro h
    obtain ⟨front, behind, rfl⟩ := List.append_of_mem h
    refine List.lookup_eq_some_iff.mpr ⟨front, behind, rfl, fun e he => bne_iff_ne.mpr ?_⟩
    rw [List.map_append, List.nodup_append] at hnodup
    exact (hnodup.2.2 e.1 (List.mem_map_of_mem he) a (List.mem_map_of_mem List.mem_cons_self)).symm

end Multimeter
