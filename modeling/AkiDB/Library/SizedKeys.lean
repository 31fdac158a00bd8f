import AkiDB.Library.Utf8Text

/-! Texts behind their decimal size: what follows such a text in a key can be told apart from it. -/

namespace SizedKeys
open Utf8Text List

def colon : UInt8 := 58

def sized (text : String) : List UInt8 :=
  bytes text.utf8ByteSize.repr ++ colon :: bytes text

theorem colon_notMem_repr (value : Nat) : colon ∉ bytes value.repr := by
  rw [Nat.repr_eq_ofList_toDigits, bytes_ofList, mem_flatMap]
  rintro ⟨digit, member, encoded⟩
  have isDigit := Nat.isDigit_of_mem_toDigits (by decide) (by decide) member
  simp only [Char.isDigit, Bool.and_eq_true, decide_eq_true_eq] at isDigit
  have small : digit.utf8Size = 1 := by
    rw [Char.utf8Size_eq_one_iff]
    exact Nat.le_trans isDigit.2 (by decide)
  rw [String.utf8EncodeChar_eq_singleton small, mem_singleton] at encoded
  have value_eq : 58 = digit.val.toNat % 256 := congrArg UInt8.toNat encoded
  have bounds : 48 ≤ digit.val.toNat ∧ digit.val.toNat ≤ 57 := isDigit
  omega

theorem append_separator_inj {α : Type} {separator : α} {left right leftRest rightRest}
    (leftFree : separator ∉ left) (rightFree : separator ∉ right)
    (same : left ++ separator :: leftRest = right ++ separator :: rightRest)
    : left = right ∧ leftRest = rightRest := by
  induction left generalizing right with
  | nil =>
    cases right with
    | nil => exact ⟨rfl, (List.cons.inj same).2⟩
    | cons first rest =>
      exact (rightFree (mem_cons.mpr (.inl (List.cons.inj same).1))).elim
  | cons first rest ih =>
    cases right with
    | nil => exact (leftFree (mem_cons.mpr (.inl (List.cons.inj same).1.symm))).elim
    | cons other others =>
      obtain ⟨heads, tails⟩ := List.cons.inj same
      obtain ⟨rests, ends⟩ := ih (fun member => leftFree (mem_cons_of_mem _ member))
        (fun member => rightFree (mem_cons_of_mem _ member)) tails
      exact ⟨by rw [heads, rests], ends⟩

theorem sized_append_inj {left right leftRest rightRest}
    (same : sized left ++ leftRest = sized right ++ rightRest)
    : left = right ∧ leftRest = rightRest := by
  unfold sized at same
  rw [append_assoc, append_assoc, cons_append, cons_append] at same
  obtain ⟨sizes, texts⟩ :=
    append_separator_inj (colon_notMem_repr _) (colon_notMem_repr _) same
  have lengths : left.utf8ByteSize = right.utf8ByteSize := by
    have digits := congrArg String.toList (bytes_inj sizes)
    rw [Nat.toList_repr, Nat.toList_repr] at digits
    have read := congrArg (Nat.ofDigitChars 10 · 0) digits
    simpa [Nat.ofDigitChars_toDigits] using read
  obtain ⟨contents, rests⟩ := append_inj texts lengths
  exact ⟨bytes_inj contents, rests⟩

end SizedKeys
