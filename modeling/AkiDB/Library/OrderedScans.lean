import Mathlib

/-! Scans over rows in the order of their keys: keys that begin alike stand next to each other. -/

namespace OrderedScans
open List

/-- What lies between two texts that begin alike begins like them. -/
theorem prefix_of_between {α : Type*} [LinearOrder α] {common low key high : List α}
    (first : common <+: low) (last : common <+: high) (above : low ≤ key) (below : key ≤ high)
    : common <+: key := by
  induction common generalizing low key high with
  | nil => exact nil_prefix
  | cons letter rest ih =>
    obtain ⟨lowRest, rfl⟩ := first
    obtain ⟨highRest, rfl⟩ := last
    cases key with
    | nil => exact absurd (nil_lt_cons ..) (not_lt.mpr above)
    | cons other keyRest =>
      rw [cons_append, ← not_lt, cons_lt_cons_iff] at above below
      push Not at above below
      obtain rfl : letter = other := le_antisymm above.1 below.1
      exact cons_prefix_cons.mpr
        ⟨rfl, ih (prefix_append ..) (prefix_append ..) (above.2 rfl) (below.2 rfl)⟩

variable {ρ : Type*} {p : ρ → Bool} {rows : List ρ}

theorem takeWhile_eq_filter (front : rows.Pairwise fun earlier later => p later → p earlier)
    : rows.takeWhile p = rows.filter p := by
  induction rows with
  | nil => rfl
  | cons row rest ih =>
    obtain ⟨behind, front⟩ := pairwise_cons.mp front
    by_cases holds : p row = true
    · rw [takeWhile_cons_of_pos holds, filter_cons_of_pos holds, ih front]
    · rw [takeWhile_cons_of_neg holds, filter_cons_of_neg holds]
      exact (filter_eq_nil_iff.mpr fun later member => mt (behind later member) holds).symm

theorem dropWhile_eq_filter (front : rows.Pairwise fun earlier later => p later → p earlier)
    : rows.dropWhile p = rows.filter (!p ·) := by
  induction rows with
  | nil => rfl
  | cons row rest ih =>
    obtain ⟨behind, front⟩ := pairwise_cons.mp front
    by_cases holds : p row = true
    · rw [dropWhile_cons_of_pos holds, filter_cons_of_neg (by simp [holds]), ih front]
    · rw [dropWhile_cons_of_neg holds]
      refine (filter_eq_self.mpr fun other member => ?_).symm
      rcases mem_cons.mp member with rfl | later
      · simpa using holds
      · simpa using mt (behind other later) holds

end OrderedScans
