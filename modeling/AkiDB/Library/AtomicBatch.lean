import Std.Data.ExtTreeMap.Lemmas
import Mathlib.Data.List.Forall2
import Mathlib.Tactic.Common

/-!
An ordered key-value map written through atomic batches; the last operation that names a key
decides.
-/

namespace AtomicBatch
open List

variable {κ ν : Type}

/-- An ordered key-value map: equal contents are equal maps. -/
abbrev KeyValueMap (κ ν : Type) [Ord κ] : Type :=
  Std.ExtTreeMap κ ν compare

inductive BatchOperation (κ ν : Type) where
  | put (key : κ) (value : ν)
  | delete (key : κ)
  deriving DecidableEq, Repr

namespace BatchOperation

def key : BatchOperation κ ν → κ
  | put key _ => key
  | delete key => key

def value : BatchOperation κ ν → Option ν
  | put _ value => some value
  | delete _ => none

@[simp] theorem key_put (k : κ) (v : ν) : (put k v).key = k := rfl

@[simp] theorem key_delete (k : κ) : (delete k : BatchOperation κ ν).key = k := rfl

end BatchOperation

variable [Ord κ] [Std.TransOrd κ]

variable (map : KeyValueMap κ ν)

def applyOperation : BatchOperation κ ν → KeyValueMap κ ν
  | .put key value => map.insert key value
  | .delete key => map.erase key

/-- All operations of a batch, in order, as one write. -/
def applyBatch (operations : List (BatchOperation κ ν))
    : KeyValueMap κ ν :=
  operations.foldl applyOperation map

@[simp]
theorem applyBatch_nil : applyBatch map [] = map := rfl

theorem applyBatch_append (first second : List (BatchOperation κ ν))
    : applyBatch map (first ++ second) = applyBatch (applyBatch map first) second :=
  foldl_append ..

variable [Std.LawfulEqOrd κ]

variable {key : κ} {operations : List (BatchOperation κ ν)}

theorem applyOperation_untouched {operation} (other : operation.key ≠ key)
    : (applyOperation map operation)[key]? = map[key]? := by
  have different : compare operation.key key ≠ .eq := by
    rw [ne_eq, Std.LawfulEqOrd.compare_eq_iff_eq]
    exact other
  cases operation with
  | put written value =>
    simp only [applyOperation, Std.ExtTreeMap.getElem?_insert]
    exact if_neg different
  | delete written =>
    simp only [applyOperation, Std.ExtTreeMap.getElem?_erase]
    exact if_neg different

theorem applyOperation_written (operation : BatchOperation κ ν)
    : (applyOperation map operation)[operation.key]? = operation.value := by
  cases operation <;> simp [applyOperation, BatchOperation.value]

theorem applyBatch_untouched (others : ∀ operation ∈ operations, operation.key ≠ key)
    : (applyBatch map operations)[key]? = map[key]? := by
  induction operations generalizing map with
  | nil => rfl
  | cons operation rest ih =>
    have tail := ih (applyOperation map operation)
      (fun op member => others op (mem_cons_of_mem _ member))
    rw [applyOperation_untouched map (others operation mem_cons_self)] at tail
    exact tail

theorem applyBatch_cases (operations : List (BatchOperation κ ν)) (key : κ)
    : (∃ value, .put key value ∈ operations ∧ (applyBatch map operations)[key]? = some value)
      ∨ (.delete key ∈ operations ∧ (applyBatch map operations)[key]? = none)
      ∨ ((∀ operation ∈ operations, operation.key ≠ key)
          ∧ (applyBatch map operations)[key]? = map[key]?) := by
  induction operations generalizing map with
  | nil => simp
  | cons operation rest ih =>
    rcases ih (applyOperation map operation) with
      ⟨value, member, found⟩ | ⟨member, absent⟩ | ⟨others, found⟩
    · exact .inl ⟨value, mem_cons_of_mem _ member, found⟩
    · exact .inr (.inl ⟨mem_cons_of_mem _ member, absent⟩)
    · by_cases same : operation.key = key
      · -- this operation is the last one on the key
        cases operation with
        | put written value =>
          cases same
          refine .inl ⟨value, mem_cons_self, found.trans ?_⟩
          simp [applyOperation]
        | delete written =>
          cases same
          refine .inr (.inl ⟨mem_cons_self, found.trans ?_⟩)
          simp [applyOperation]
      · refine .inr (.inr ⟨?_, found.trans (applyOperation_untouched map same)⟩)
        intro op member
        rcases mem_cons.mp member with rfl | later
        · exact same
        · exact others op later

theorem applyBatch_put {value : ν} (written : .put key value ∈ operations)
    (only : ∀ operation ∈ operations, operation.key = key → operation = .put key value)
    : (applyBatch map operations)[key]? = some value := by
  rcases applyBatch_cases map operations key with
    ⟨found, member, read⟩ | ⟨member, _⟩ | ⟨others, _⟩
  · have same := only _ member rfl
    cases same
    exact read
  · have same := only _ member rfl
    cases same
  · exact absurd rfl (others _ written)

theorem applyBatch_get_of_puts {value : ν}
    (puts : ∀ deleted, .delete deleted ∉ operations)
    (found : (applyBatch map operations)[key]? = some value)
    : .put key value ∈ operations
      ∨ ((∀ operation ∈ operations, operation.key ≠ key) ∧ map[key]? = some value) := by
  rcases applyBatch_cases map operations key with
    ⟨written, member, read⟩ | ⟨member, _⟩ | ⟨others, read⟩
  · rw [found] at read
    cases read
    exact .inl member
  · exact absurd member (puts key)
  · exact .inr ⟨others, read.symm.trans found⟩

theorem applyBatch_related (related : Option ν → Option ν → Prop) {left right}
    (paired : List.Forall₂ (fun first second => first.key = second.key
      ∧ related first.value second.value) left right) {map other}
    (outside : (∀ operation ∈ left, operation.key ≠ key) → related map[key]? other[key]?)
    : related (applyBatch map left)[key]? (applyBatch other right)[key]? := by
  induction paired generalizing map other with
  | nil => exact outside nofun
  | @cons first second _ _ same _ ih =>
    apply ih
    intro untouched
    by_cases here : first.key = key
    · subst here
      rw [applyOperation_written, same.1, applyOperation_written]
      exact same.2
    · have there : second.key ≠ key := same.1 ▸ here
      rw [applyOperation_untouched map here, applyOperation_untouched other there]
      apply outside
      intro operation member
      rcases mem_cons.mp member with rfl | later
      · exact here
      · exact untouched operation later

theorem applyBatch_congr_at {map other}
    (outside : (∀ operation ∈ operations, operation.key ≠ key) → map[key]? = other[key]?)
    : (applyBatch map operations)[key]? = (applyBatch other operations)[key]? :=
  applyBatch_related Eq (forall₂_same.mpr fun _ _ => ⟨rfl, rfl⟩) outside

/-- Writes that are repeated later at the same keys count for nothing. -/
theorem applyBatch_rewrite {early middle late}
    (covered : ∀ operation ∈ early, ∃ again ∈ late, again.key = operation.key)
    (apart : ∀ operation ∈ middle, ∀ again ∈ late, operation.key ≠ again.key)
    (map : KeyValueMap κ ν)
    : applyBatch (applyBatch map (early ++ middle)) late
      = applyBatch map (late ++ middle) := by
  apply Std.ExtTreeMap.ext_getElem?
  intro key
  rw [applyBatch_append, applyBatch_append]
  by_cases written : ∃ again ∈ late, again.key = key
  · obtain ⟨again, member, here⟩ := written
    have outside : ∀ operation ∈ middle, operation.key ≠ key :=
      fun operation inMiddle => here ▸ apart operation inMiddle again member
    rw [applyBatch_untouched _ outside]
    exact applyBatch_congr_at fun untouched => absurd here (untouched again member)
  · have untouched : ∀ operation ∈ late, operation.key ≠ key :=
      fun operation member same => written ⟨operation, member, same⟩
    rw [applyBatch_untouched _ untouched]
    apply applyBatch_congr_at
    intro _
    rw [applyBatch_untouched map untouched, applyBatch_untouched map]
    intro operation member same
    obtain ⟨again, inLate, sameKey⟩ := covered operation member
    exact untouched again inLate (sameKey.trans same)

end AtomicBatch
