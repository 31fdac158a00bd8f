import Mathlib

/-! A priority queue whose items lie in an arbitrary order behind a greatest one. -/

namespace ArbitraryHeap
open List

variable {α : Type}

/-- How a change rearranges the items. -/
structure Layout (α : Type) where
  arrange : List α → List α
  arrange_perm : ∀ items, (arrange items).Perm items

namespace Layout

def push (layout : Layout α) (items : List α) (item : α) : List α :=
  layout.arrange (item :: items)

theorem push_perm (layout : Layout α) (items : List α) (item : α)
    : (layout.push items item).Perm (item :: items) :=
  layout.arrange_perm _

end Layout

def takeGreatest (compare : α → α → Ordering) : List α → Option (α × List α)
  | [] => none
  | item :: rest =>
    match takeGreatest compare rest with
    | none => some (item, [])
    | some (greatest, others) =>
      if compare item greatest = .lt then some (greatest, item :: others)
      else some (item, greatest :: others)

def peek (compare : α → α → Ordering) (items : List α) : Option α :=
  (takeGreatest compare items).map Prod.fst

def Layout.pop (layout : Layout α) (compare : α → α → Ordering) (items : List α)
    : Option (α × List α) :=
  (takeGreatest compare items).map fun taken => (taken.1, layout.arrange taken.2)

variable {compare : α → α → Ordering} {items others : List α} {greatest : α}

theorem takeGreatest_eq_none : takeGreatest compare items = none ↔ items = [] := by
  cases items with
  | nil => simp [takeGreatest]
  | cons item rest =>
    simp only [takeGreatest, reduceCtorEq, iff_false]
    split
    · nofun
    · split <;> nofun

theorem takeGreatest_perm (taken : takeGreatest compare items = some (greatest, others))
    : (greatest :: others).Perm items := by
  induction items generalizing greatest others with
  | nil => cases taken
  | cons item rest ih =>
    simp only [takeGreatest] at taken
    split at taken
    · next none =>
      cases taken
      rw [takeGreatest_eq_none.mp none]
    · next former remaining found =>
      have perm := ih found
      split at taken
      · cases taken
        exact (Perm.swap item _ remaining).trans (perm.cons item)
      · cases taken
        exact perm.cons _

theorem Layout.pop_perm {layout : Layout α}
    (popped : layout.pop compare items = some (greatest, others))
    : (greatest :: others).Perm items := by
  simp only [pop, Option.map_eq_some_iff, Prod.mk.injEq] at popped
  obtain ⟨⟨_, remaining⟩, taken, rfl, rfl⟩ := popped
  exact ((layout.arrange_perm remaining).cons _).trans (takeGreatest_perm taken)

theorem takeGreatest_greatest {β : Type} [LinearOrder β] {measure : α → β}
    (measured : ∀ left ∈ items, ∀ right ∈ items,
      compare left right = .lt ↔ measure left < measure right)
    (taken : takeGreatest compare items = some (greatest, others))
    : ∀ other ∈ others, measure other ≤ measure greatest := by
  induction items generalizing greatest others with
  | nil => cases taken
  | cons item rest ih =>
    simp only [takeGreatest] at taken
    split at taken
    · cases taken
      nofun
    · next former remaining found =>
      have formerIn : former ∈ rest :=
        (takeGreatest_perm found).mem_iff.mp mem_cons_self
      have bounded := ih (fun left leftIn right rightIn => measured left
        (mem_cons_of_mem _ leftIn) right (mem_cons_of_mem _ rightIn)) found
      have decided := measured item mem_cons_self former (mem_cons_of_mem _ formerIn)
      intro other member
      split at taken
      · next smaller =>
        cases taken
        rcases mem_cons.mp member with rfl | later
        · exact le_of_lt (decided.mp smaller)
        · exact bounded other later
      · next notSmaller =>
        cases taken
        have atLeast : measure former ≤ measure item :=
          le_of_not_gt fun less => notSmaller (decided.mpr less)
        rcases mem_cons.mp member with rfl | later
        · exact atLeast
        · exact (bounded other later).trans atLeast

end ArbitraryHeap
