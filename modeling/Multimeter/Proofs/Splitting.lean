import Mathlib.Tactic.Common

/-!
# Splitting at separators

What the pieces of a list that is split at a separator are, besides the laws of `List.splitOn` and
`List.intercalate`.

* `Text.splitOn_cons`, `Text.splitOn_append_of_not_mem`: splitting behind items that are no separators.
* `Text.not_mem_of_mem_splitOn`, `Text.getLast?_splitOn_ne_nil`: no piece holds a separator, and the
  last one is empty only behind a separator.
-/

namespace Multimeter.Text

variable {α : Type} [DecidableEq α] {separator : α}

theorem splitOn_cons (separator a : α) (rest : List α) :
    ∃ piece pieces, rest.splitOn separator = piece :: pieces ∧
      (a :: rest).splitOn separator =
        if a = separator then [] :: piece :: pieces else (a :: piece) :: pieces := by
  obtain ⟨piece, pieces, hrest⟩ := List.exists_cons_of_ne_nil (List.splitOn_ne_nil separator rest)
  refine ⟨piece, pieces, hrest, ?_⟩
  rw [List.splitOn_cons_eq_if_modifyHead, hrest]
  simp only [beq_iff_eq, List.modifyHead_cons]

theorem splitOn_append_of_not_mem {front : List α} (h : separator ∉ front) (rest : List α) :
    (front ++ rest).splitOn separator = (rest.splitOn separator).modifyHead (front ++ ·) := by
  induction front with
  | nil => exact (congrFun List.modifyHead_id _).symm
  | cons a front ih =>
    have ha : ¬ (a == separator) = true := fun heq => List.ne_of_not_mem_cons h (beq_iff_eq.mp heq).symm
    rw [List.cons_append, List.splitOn_cons_eq_if_modifyHead, if_neg ha,
      ih (List.not_mem_of_not_mem_cons h), List.modifyHead_modifyHead]
    rfl

theorem not_mem_of_mem_splitOn {items piece : List α} (h : piece ∈ items.splitOn separator) :
    separator ∉ piece := by
  induction items generalizing piece with
  | nil => simp_all
  | cons a rest ih =>
    obtain ⟨first, pieces, hrest, hsplit⟩ := splitOn_cons separator a rest
    have hfirst : separator ∉ first := ih (hrest ▸ List.mem_cons_self)
    rw [hsplit] at h
    split_ifs at h with ha
    · rcases List.mem_cons.mp h with rfl | h
      · exact List.not_mem_nil
      · exact ih (hrest ▸ h)
    · rcases List.mem_cons.mp h with rfl | h
      · simp [Ne.symm ha, hfirst]
      · exact ih (hrest ▸ List.mem_cons_of_mem first h)

/-- The last piece is empty only behind a separator, or when there are no items at all. -/
theorem getLast?_splitOn_ne_nil {items : List α} (hne : items ≠ [])
    (hlast : items.getLast? ≠ some separator) :
    (items.splitOn separator).getLast? ≠ some [] := by
  induction items with
  | nil => exact (hne rfl).elim
  | cons a rest ih =>
    obtain ⟨first, pieces, hrest, hsplit⟩ := splitOn_cons separator a rest
    rw [hsplit]
    by_cases hnil : rest = []
    · subst hnil
      obtain ⟨rfl, rfl⟩ : first = [] ∧ pieces = [] := by simpa using hrest.symm
      have ha : a ≠ separator := fun ha => hlast (by simp [ha])
      simp [ha]
    · have hlater := ih hnil (by rwa [List.getLast?_cons_of_ne_nil hnil] at hlast)
      rw [hrest] at hlater
      split_ifs with ha
      · rwa [List.getLast?_cons_cons]
      · cases pieces with
        | nil => simp
        | cons next pieces => rwa [List.getLast?_cons_cons] at hlater ⊢

end Multimeter.Text
