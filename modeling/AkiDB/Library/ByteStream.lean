import Mathlib.Data.List.Infix
import Mathlib.Tactic.Common

/-!
Reading a fixed number of items off the front of a stream, and lists that overlap a shifted
copy of themselves.
-/

namespace ByteStream
open List

variable {α : Type*}

/-- The first `count` items and what follows them, if there are that many. -/
def readExact (count : Nat) (stream : List α) : Option (List α × List α) :=
  if count ≤ stream.length then some (stream.take count, stream.drop count) else none

variable {count : Nat} {front : List α}

theorem readExact_append (rest : List α) (length : front.length = count)
    : readExact count (front ++ rest) = some (front, rest) := by
  subst length
  simp [readExact]

theorem readExact_eq_some {stream rest : List α}
    : readExact count stream = some (front, rest)
      ↔ front.length = count ∧ stream = front ++ rest := by
  constructor
  · intro read
    simp only [readExact, Option.ite_none_right_eq_some, Option.some.injEq, Prod.mk.injEq] at read
    obtain ⟨enough, rfl, rfl⟩ := read
    exact ⟨length_take_of_le enough, (take_append_drop count stream).symm⟩
  · intro split
    rw [split.2]
    exact readExact_append rest split.1

theorem readExact_eq_none {stream : List α}
    : readExact count stream = none ↔ stream.length < count := by
  simp [readExact]

theorem prefix_append_cases {list back : List α} (isPrefix : list <+: front ++ back)
    : list <+: front ∧ list.length < front.length
      ∨ ∃ rest, list = front ++ rest ∧ rest <+: back := by
  by_cases short : list.length < front.length
  · exact .inl ⟨prefix_of_prefix_length_le isPrefix (prefix_append front back)
      (le_of_lt short), short⟩
  · obtain ⟨rest, rfl⟩ : front <+: list :=
      prefix_of_prefix_length_le (prefix_append front back) isPrefix (Nat.not_lt.mp short)
    exact .inr ⟨rest, rfl, (prefix_append_right_inj front).mp isPrefix⟩

/-- A list that starts with `step` and then with itself is a prefix of the repetition of
`step`.
-/
theorem prefix_repetition {step list : List α} (overlap : list <+: step ++ list) (count : Nat)
    : list <+: (List.replicate count step).flatten ++ list := by
  induction count with
  | zero => simp
  | succ count ih =>
    have shifted : step ++ list <+: step ++ ((List.replicate count step).flatten ++ list) :=
      (prefix_append_right_inj step).mpr ih
    simpa [replicate_succ] using overlap.trans shifted

/-- Lists of one length that overlap themselves after the same nonempty start are equal. -/
theorem overlap_unique {step left right : List α} (nonempty : step ≠ [])
    (lengths : left.length = right.length)
    (leftOverlap : left <+: step ++ left) (rightOverlap : right <+: step ++ right)
    : left = right := by
  have positive : 0 < step.length := length_pos_iff.mpr nonempty
  have long : left.length ≤ (List.replicate left.length step).flatten.length := by
    simpa using Nat.le_mul_of_pos_right left.length positive
  have leftPrefix : left <+: (List.replicate left.length step).flatten :=
    prefix_of_prefix_length_le (prefix_repetition leftOverlap left.length) (prefix_append _ _) long
  have rightPrefix : right <+: (List.replicate left.length step).flatten :=
    prefix_of_prefix_length_le (prefix_repetition rightOverlap left.length)
      (prefix_append _ _) (lengths ▸ long)
  have sides : left <+: right :=
    prefix_of_prefix_length_le leftPrefix rightPrefix (le_of_eq lengths)
  exact sides.eq_of_length lengths

end ByteStream
