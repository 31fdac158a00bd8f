import Mathlib.Data.List.Sort

/-! Lists in the order of a key: where the key tells the items apart, only the multiset counts. -/

namespace SortedByKey
open List

variable {α β : Type*} [LinearOrder β]

def sorted (key : α → β) (values : List α) : List α :=
  values.insertionSort fun left right => key left ≤ key right

variable {key : α → β}

theorem sorted_perm (values : List α) : sorted key values ~ values :=
  perm_insertionSort _ values

theorem perm_of_sorted {left right : List α} (same : sorted key left = sorted key right)
    : left ~ right :=
  (sorted_perm left).symm.trans (same ▸ sorted_perm right)

theorem sorted_eq_of_perm {left right : List α}
    (unique : ∀ first ∈ left, ∀ second ∈ left, key first = key second → first = second)
    (perm : left ~ right)
    : sorted key left = sorted key right := by
  have inOrder (values : List α)
      : (sorted key values).Pairwise fun left right => key left ≤ key right :=
    pairwise_insertionSort _ values
  have sortedPerm : sorted key left ~ sorted key right :=
    ((sorted_perm left).trans perm).trans (sorted_perm right).symm
  refine sortedPerm.eq_of_pairwise ?_ (inOrder left) (inOrder right)
  intro first second member other le ge
  refine unique first ((sorted_perm _).mem_iff.mp member) second ?_ (le_antisymm le ge)
  exact perm.mem_iff.mpr ((sorted_perm _).mem_iff.mp other)

/-- Values that share a key are kept in their order, so they can be swapped only if equal. -/
theorem eq_of_orderedInsert_comm {first second : α} (same : key first = key second)
    {values : List α}
    (swapped : (values.orderedInsert (key · ≤ key ·) second).orderedInsert (key · ≤ key ·) first
      = (values.orderedInsert (key · ≤ key ·) first).orderedInsert (key · ≤ key ·) second)
    : first = second := by
  induction values with
  | nil =>
    simp [same] at swapped
    exact swapped.1
  | cons value rest ih =>
    by_cases before : key second ≤ key value
    · simp [same, before] at swapped
      exact swapped.1
    · simp only [orderedInsert_cons, same, before, if_false, cons.injEq, true_and] at swapped
      exact ih swapped

theorem sorted_eq_iff (injective : Function.Injective key) {left right : List α}
    : sorted key left = sorted key right ↔ left ~ right :=
  ⟨perm_of_sorted, sorted_eq_of_perm fun _ _ _ _ same => injective same⟩

end SortedByKey
