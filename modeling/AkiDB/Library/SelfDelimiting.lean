import AkiDB.Library.ByteFraming

/-! Self-delimiting codes: each can be read back together with what follows it. -/

namespace SelfDelimiting
open List ByteFraming

variable {α β : Type*}

/-- What is encoded and what follows it are determined by the whole. -/
def ReadsBack (valid : α → Prop) (encode : α → List β) : Prop :=
  ∀ ⦃left right leftRest rightRest⦄, valid left → valid right →
    encode left ++ leftRest = encode right ++ rightRest → left = right ∧ leftRest = rightRest

/-- Codes of one length need only be different. -/
theorem ReadsBack.of_length {valid : α → Prop} {encode : α → List β} (width : Nat)
    (fixed : ∀ value, (encode value).length = width) (injective : Set.InjOn encode {x | valid x})
    : ReadsBack valid encode := by
  intro left right leftRest rightRest leftValid rightValid same
  obtain ⟨codes, rests⟩ := append_inj same ((fixed left).trans (fixed right).symm)
  exact ⟨injective leftValid rightValid codes, rests⟩

theorem readsBack_beBytes (width : Nat) : ReadsBack (· < 256 ^ width) (beBytes width) :=
  .of_length width (beBytes_length width) fun _ left _ right same => beBytes_inj left right same

theorem readsBack_component : ReadsBack (fun value => value.length < 256 ^ 4) component :=
  fun _ _ _ _ left right same => component_append_inj same left right

variable {valid : α → Prop} {encode : α → List β}

theorem ReadsBack.comap {γ : Type*} {convert : γ → α} (reads : ReadsBack valid encode)
    (injective : Function.Injective convert)
    : ReadsBack (fun value => valid (convert value)) fun value => encode (convert value) := by
  intro left right leftRest rightRest leftValid rightValid same
  exact (reads leftValid rightValid same).imp_left fun converted => injective converted

/-- One code behind the other. -/
theorem ReadsBack.prod {γ : Type*} {validNext : γ → Prop} {next : γ → List β}
    (reads : ReadsBack valid encode) (readsNext : ReadsBack validNext next)
    : ReadsBack (fun pair => valid pair.1 ∧ validNext pair.2)
        fun pair : α × γ => encode pair.1 ++ next pair.2 := by
  intro left right leftRest rightRest leftValid rightValid same
  rw [append_assoc, append_assoc] at same
  obtain ⟨first, rest⟩ := reads leftValid.1 rightValid.1 same
  obtain ⟨second, rests⟩ := readsNext leftValid.2 rightValid.2 rest
  exact ⟨Prod.ext first second, rests⟩

/-- As many codes are read back as there are values. -/
theorem ReadsBack.flatMap (reads : ReadsBack valid encode) {left right : List α}
    {leftRest rightRest : List β} (lengths : left.length = right.length)
    (leftValid : ∀ value ∈ left, valid value) (rightValid : ∀ value ∈ right, valid value)
    (same : left.flatMap encode ++ leftRest = right.flatMap encode ++ rightRest)
    : left = right ∧ leftRest = rightRest := by
  induction left generalizing right with
  | nil =>
    cases right with
    | nil => exact ⟨rfl, same⟩
    | cons => cases lengths
  | cons first others ih =>
    cases right with
    | nil => cases lengths
    | cons second more =>
      rw [forall_mem_cons] at leftValid rightValid
      rw [flatMap_cons, flatMap_cons, append_assoc, append_assoc] at same
      obtain ⟨rfl, rest⟩ := reads leftValid.1 rightValid.1 same
      obtain ⟨rfl, rests⟩ := ih (Nat.succ.inj lengths) leftValid.2 rightValid.2 rest
      exact ⟨rfl, rests⟩

/-- A list behind its length. -/
theorem ReadsBack.counted {encode : α → Bytes} (reads : ReadsBack valid encode) (width : Nat)
    : ReadsBack (fun values : List α => values.length < 256 ^ width ∧ ∀ value ∈ values, valid value)
        fun values => beBytes width values.length ++ values.flatMap encode := by
  intro left right leftRest rightRest leftValid rightValid same
  rw [append_assoc, append_assoc] at same
  obtain ⟨lengths, rest⟩ := readsBack_beBytes width leftValid.1 rightValid.1 same
  exact reads.flatMap lengths leftValid.2 rightValid.2 rest

end SelfDelimiting
