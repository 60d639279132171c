/-!
# Blocks of a list

* `Text.blocks`: the pieces of a fixed size, the last of which may be shorter.
-/

namespace Multimeter.Text

variable {α : Type}

/-- The pieces of `n + 1` items each; the last piece may be shorter. -/
def blocks (n : Nat) (items : List α) : List (List α) :=
  match items with
  | [] => []
  | a :: rest => (a :: rest.take n) :: blocks n (rest.drop n)
termination_by items.length
decreasing_by simp only [List.length_drop, List.length_cons]; omega

theorem flatten_blocks (n : Nat) (items : List α) : (blocks n items).flatten = items := by
  fun_induction blocks n items with
  | case1 => rfl
  | case2 a rest ih => simp [ih]

end Multimeter.Text
