import Mathlib

/-! Texts as lists of characters with their UTF-8 sizes: cutting, joining and counting marks. -/

namespace CutText
open List

variable (text : List Char)

def size : Nat :=
  (text.map Char.utf8Size).sum

@[simp]
theorem size_nil : size [] = 0 := rfl

@[simp]
theorem size_cons (c : Char) (rest : List Char) : size (c :: rest) = c.utf8Size + size rest :=
  rfl

@[simp]
theorem size_append (left right : List Char) : size (left ++ right) = size left + size right := by
  simp [size]

/-- Whether a character, or the end, starts at the byte. -/
def isCharBoundary : List Char → Nat → Bool
  | _, 0 => true
  | [], _ + 1 => false
  | c :: rest, n + 1 => c.utf8Size ≤ n + 1 && isCharBoundary rest (n + 1 - c.utf8Size)

/-- The last boundary at or before the byte, by walking back. -/
def floorCharBoundary (text : List Char) : Nat → Nat
  | 0 => 0
  | n + 1 => if isCharBoundary text (n + 1) then n + 1 else floorCharBoundary text n

/-- The characters that end at or before the byte. -/
def takeBytes : List Char → Nat → List Char
  | [], _ => []
  | c :: rest, n => if c.utf8Size ≤ n then c :: takeBytes rest (n - c.utf8Size) else []

theorem takeBytes_prefix (n : Nat) : takeBytes text n <+: text := by
  induction text generalizing n with
  | nil => exact nil_prefix
  | cons c rest ih =>
    unfold takeBytes
    split
    · exact cons_prefix_cons.mpr ⟨rfl, ih _⟩
    · exact nil_prefix

variable {n : Nat}

theorem isCharBoundary_cons {c rest} (positive : 0 < n)
    : isCharBoundary (c :: rest) n = true
      ↔ c.utf8Size ≤ n ∧ isCharBoundary rest (n - c.utf8Size) = true := by
  obtain ⟨n, rfl⟩ := Nat.exists_eq_add_one.mpr positive
  simp [isCharBoundary]

theorem size_takeBytes {text} (boundary : isCharBoundary text n = true)
    : size (takeBytes text n) = n := by
  induction text generalizing n with
  | nil => cases n <;> simp_all [isCharBoundary, takeBytes]
  | cons c rest ih =>
    have width := c.utf8Size_pos
    rcases Nat.eq_zero_or_pos n with rfl | positive
    · simp [takeBytes, Nat.ne_of_gt width]
    · obtain ⟨fits, later⟩ := (isCharBoundary_cons positive).mp boundary
      rw [takeBytes, if_pos fits, size_cons, ih later]
      omega

theorem isCharBoundary_size : isCharBoundary text (size text) = true := by
  induction text with
  | nil => rfl
  | cons c rest ih =>
    have width := c.utf8Size_pos
    rw [isCharBoundary_cons (by rw [size_cons]; omega), size_cons, Nat.add_sub_cancel_left]
    exact ⟨Nat.le_add_right _ _, ih⟩

theorem isCharBoundary_floor (n : Nat)
    : isCharBoundary text (floorCharBoundary text n) = true := by
  induction n with
  | zero => simp [floorCharBoundary, isCharBoundary]
  | succ n ih =>
    unfold floorCharBoundary
    split
    · assumption
    · exact ih

theorem floorCharBoundary_le (n : Nat) : floorCharBoundary text n ≤ n := by
  induction n with
  | zero => exact Nat.le_refl 0
  | succ n ih =>
    unfold floorCharBoundary
    split
    · exact Nat.le_refl _
    · exact Nat.le_succ_of_le ih

theorem le_floorCharBoundary {text} {boundary : Nat} (found : isCharBoundary text boundary = true)
    (bound : boundary ≤ n)
    : boundary ≤ floorCharBoundary text n := by
  induction n with
  | zero => exact bound
  | succ n ih =>
    unfold floorCharBoundary
    split
    · exact bound
    · next other =>
        rcases Nat.le_succ_iff.mp bound with earlier | rfl
        · exact ih earlier
        · exact absurd found other

theorem floorCharBoundary_eq_iff {text} {n : Nat}
    : floorCharBoundary text n = n ↔ isCharBoundary text n = true := by
  constructor
  · intro same
    exact same ▸ isCharBoundary_floor text n
  · intro found
    exact Nat.le_antisymm (floorCharBoundary_le text n) (le_floorCharBoundary found (Nat.le_refl n))

/-- A boundary lies within three bytes of every byte of the text. -/
theorem exists_near_boundary {text} (inside : n ≤ size text)
    : ∃ boundary ≤ n, n ≤ boundary + 3 ∧ isCharBoundary text boundary = true := by
  induction text generalizing n with
  | nil => exact ⟨n, Nat.le_refl n, by omega, by simp_all [isCharBoundary]⟩
  | cons c rest ih =>
    have width := c.utf8Size_pos
    have narrow := c.utf8Size_le_four
    by_cases covered : c.utf8Size ≤ n
    · obtain ⟨boundary, before, near, found⟩ :=
        @ih (n - c.utf8Size) (by rw [size_cons] at inside; omega)
      refine ⟨boundary + c.utf8Size, by omega, by omega, ?_⟩
      rw [isCharBoundary_cons (by omega), Nat.add_sub_cancel]
      exact ⟨by omega, found⟩
    · exact ⟨0, Nat.zero_le n, by omega, by simp [isCharBoundary]⟩

theorem near_floorCharBoundary {text} {n : Nat} (inside : n ≤ size text)
    : n ≤ floorCharBoundary text n + 3 := by
  obtain ⟨boundary, before, near, found⟩ := exists_near_boundary inside
  have := le_floorCharBoundary found before
  omega

variable {α : Type}

/-- The parts with a separator between each two. -/
def joinWith (separator : α) : List (List α) → List α
  | [] => []
  | [part] => part
  | part :: next :: rest => part ++ separator :: joinWith separator (next :: rest)

variable {parts : List (List α)}

theorem joinWith_concat (separator : α) (some_part : parts ≠ []) (last : List α)
    : joinWith separator (parts ++ [last])
      = joinWith separator parts ++ separator :: last := by
  induction parts with
  | nil => exact absurd rfl some_part
  | cons part rest ih =>
    cases rest with
    | nil => rfl
    | cons next more =>
      have later := ih (cons_ne_nil next more)
      simp only [cons_append] at later ⊢
      rw [joinWith, joinWith, later, append_assoc, cons_append]

variable {separator : α}

theorem joinWith_eq_nil (filled : ∀ part ∈ parts, part ≠ [])
    : joinWith separator parts = [] ↔ parts = [] := by
  cases parts with
  | nil => simp [joinWith]
  | cons part rest =>
    have here := filled part mem_cons_self
    cases rest <;> simp [joinWith, here]

variable {mark : List α}

theorem mark_prefix_append_cons {text rest} (apart : separator ∉ mark)
    : mark <+: text ++ separator :: rest ↔ mark <+: text := by
  constructor
  · intro reaches
    by_cases short : mark.length ≤ text.length
    · exact prefix_of_prefix_length_le reaches (prefix_append _ _) short
    · have beyond : text ++ [separator] <+: mark := by
        refine prefix_of_prefix_length_le ?_ reaches (by simp; omega)
        exact ⟨rest, by simp⟩
      exact absurd (beyond.subset (by simp)) apart
  · intro inside
    exact inside.trans (prefix_append _ _)

variable [DecidableEq α]

/-- The places at which the mark starts. -/
def occurrences (mark : List α) : List α → Nat
  | [] => 0
  | c :: rest => (if mark <+: c :: rest then 1 else 0) + occurrences mark rest

@[simp]
theorem occurrences_nil (mark : List α) : occurrences mark [] = 0 := rfl

theorem occurrences_eq_zero {text} (some_mark : mark ≠ [])
    : occurrences mark text = 0 ↔ ¬mark <:+: text := by
  induction text with
  | nil => simpa [occurrences] using some_mark
  | cons c rest ih =>
    rw [infix_cons_iff, not_or, ← ih, occurrences]
    split <;> simp [*]

theorem occurrences_append_cons (some_mark : mark ≠ []) (apart : separator ∉ mark)
    (text rest : List α)
    : occurrences mark (text ++ separator :: rest)
      = occurrences mark text + occurrences mark rest := by
  induction text with
  | nil =>
    have none : ¬mark <+: separator :: rest := by
      rw [← nil_append (separator :: rest), mark_prefix_append_cons apart, prefix_nil]
      exact some_mark
    simp [occurrences, none]
  | cons c text ih =>
    have same : mark <+: c :: (text ++ separator :: rest) ↔ mark <+: c :: text := by
      rw [← cons_append, mark_prefix_append_cons apart]
    simp only [cons_append, occurrences, same, ih, Nat.add_assoc]

theorem occurrences_joinWith (some_mark : mark ≠ []) (apart : separator ∉ mark)
    (parts : List (List α))
    : occurrences mark (joinWith separator parts) = (parts.map (occurrences mark)).sum := by
  induction parts with
  | nil => rfl
  | cons part rest ih =>
    cases rest with
    | nil => simp [joinWith]
    | cons next more =>
      rw [joinWith, occurrences_append_cons some_mark apart, ih]
      rfl

end CutText
