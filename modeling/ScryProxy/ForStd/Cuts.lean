import Mathlib.Data.List.Basic

/-!
# Where a list is cut

`List.splitOn` cuts a list at every separator.  Each part begins at one of the places
of the list, its start or what follows a separator, and goes on to the next separator
(`splitOn_eq_map_places`).
-/

namespace Cuts

variable {α : Type} [BEq α]

/-- What follows each separator. -/
def after (sep : α) : List α → List (List α)
  | [] => []
  | a :: l => if a == sep then l :: after sep l else after sep l

/-- Where the parts of the list begin. -/
def places (sep : α) (l : List α) : List (List α) := l :: after sep l

theorem splitOn_eq_map_places (sep : α) (l : List α) :
    l.splitOn sep = (places sep l).map (List.takeWhile (· != sep)) := by
  induction l with
  | nil => rfl
  | cons a l ih =>
    rw [List.splitOn] at ih
    rw [List.splitOn, List.splitOnP_cons_eq_if_modifyHead, ih]
    cases hsep : a == sep with
    | true => simp [places, after, hsep, bne]
    | false => simp [places, after, hsep, bne]

/-- The first part. -/
theorem takeWhile_mem_splitOn (sep : α) (l : List α) :
    l.takeWhile (· != sep) ∈ l.splitOn sep := by
  rw [splitOn_eq_map_places]
  exact List.mem_map_of_mem List.mem_cons_self

end Cuts
