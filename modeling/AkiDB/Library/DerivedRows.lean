import Mathlib.Data.Finset.Basic
import AkiDB.Library.AtomicBatch

/-!
Index rows that follow from records. Several records may call for one row, so the last write
matters.
-/

namespace DerivedRows
open AtomicBatch List

section OneRow

variable {ν : Type} {puts deletes : ν → Prop}

/-- Whether a row is there after the writes of all records, which may delete and then put it. -/
def AfterAll (puts deletes : ν → Prop) : List ν → Prop → Prop
  | [], held => held
  | record :: rest, held => AfterAll puts deletes rest (puts record ∨ held ∧ ¬deletes record)

variable {records : List ν} {held : Prop}

theorem AfterAll.untouched (kept : ∀ record ∈ records, ¬deletes record) (holds : held)
    : AfterAll puts deletes records held := by
  induction records generalizing held with
  | nil => exact holds
  | cons record rest ih =>
    exact ih (fun later member => kept later (mem_cons_of_mem _ member))
      (.inr ⟨holds, kept record mem_cons_self⟩)

theorem AfterAll.origin (after : AfterAll puts deletes records held)
    : (∃ record ∈ records, puts record) ∨ (held ∧ ∀ record ∈ records, ¬deletes record) := by
  induction records generalizing held with
  | nil => exact .inr ⟨after, by simp⟩
  | cons record rest ih =>
    rcases ih after with ⟨later, member, put⟩ | ⟨put | ⟨holds, spared⟩, kept⟩
    · exact .inl ⟨later, mem_cons_of_mem _ member, put⟩
    · exact .inl ⟨record, mem_cons_self, put⟩
    · exact .inr ⟨holds, forall_mem_cons.mpr ⟨spared, kept⟩⟩

theorem AfterAll.restored {before : ν → ν → Prop} (ordered : records.Pairwise before)
    (put : ∃ record ∈ records, puts record) (restored : ∀ record ∈ records, deletes record →
      ∃ later ∈ records, puts later ∧ ¬before later record)
    : AfterAll puts deletes records held := by
  induction records generalizing held with
  | nil =>
    obtain ⟨_, member, _⟩ := put
    cases member
  | cons first rest ih =>
    rw [pairwise_cons] at ordered
    have follows (record : ν) (member : record ∈ rest) (deleted : deletes record)
        : ∃ later ∈ rest, puts later ∧ ¬before later record := by
      obtain ⟨later, among, again, notBefore⟩ :=
        restored record (mem_cons_of_mem _ member) deleted
      rcases mem_cons.mp among with rfl | among
      · exact (notBefore (ordered.1 record member)).elim
      · exact ⟨later, among, again, notBefore⟩
    by_cases again : ∃ record ∈ rest, puts record
    · exact ih ordered.2 again follows
    · have kept (record : ν) (member : record ∈ rest) : ¬deletes record := by
        intro deleted
        obtain ⟨later, among, putAgain, _⟩ := follows record member deleted
        exact again ⟨later, among, putAgain⟩
      obtain ⟨record, member, putHere⟩ := put
      rcases mem_cons.mp member with rfl | member
      · have now : puts record ∨ held ∧ ¬deletes record := .inl putHere
        exact @AfterAll.untouched _ puts deletes rest _ kept now
      · exact (again ⟨record, member, putHere⟩).elim

end OneRow

section Records

variable {ν κ ρ : Type} {key : ν → κ} {rowsOf : ν → List ρ} {present later : ν → Prop}
variable {removed written : List ν} {before : ν → ν → Prop}

/-- A change of the records: some are removed, and then some are written in place of others. -/
structure Change (key : ν → κ) (present later : ν → Prop) (removed written : List ν)
    (before : ν → ν → Prop) : Prop where
  single : ∀ left right, present left → present right → key left = key right → left = right
  removes : ∀ old ∈ removed, present old
  ordered : written.Pairwise before
  irreflexive : ∀ record, ¬before record record
  distinct : ∀ left ∈ written, ∀ right ∈ written, key left = key right → left = right
  result : ∀ record, later record ↔ record ∈ written
    ∨ present record ∧ record ∉ removed ∧ ∀ other ∈ written, key other ≠ key record

/-- Wherever the row is deleted, it is put again afterwards, or no record calls for it any
more. -/
structure Restored (key : ν → κ) (rowsOf : ν → List ρ) (present later : ν → Prop)
    (removed written : List ν) (before : ν → ν → Prop) (row : ρ) : Prop where
  removal : ∀ old ∈ removed, row ∈ rowsOf old →
    (∃ record ∈ written, row ∈ rowsOf record) ∨ ∀ record, later record → row ∉ rowsOf record
  replacement : ∀ record ∈ written, ∀ old, present old → key record = key old → row ∈ rowsOf old →
    (∃ other ∈ written, row ∈ rowsOf other ∧ ¬before other record)
      ∨ ∀ record, later record → row ∉ rowsOf record

/-- Each row follows from the records: it is there iff one of them calls for it. -/
def Derived (rowsOf : ν → List ρ) (present : ν → Prop) (rows : ρ → Prop) (row : ρ) : Prop :=
  rows row ↔ ∃ record, present record ∧ row ∈ rowsOf record

theorem Change.single_later (change : Change key present later removed written before)
    {left right : ν} (isLeft : later left) (isRight : later right)
    (same : key left = key right) : left = right := by
  rcases (change.result left).mp isLeft with leftWritten | ⟨leftPresent, _, leftKept⟩
  · rcases (change.result right).mp isRight with rightWritten | ⟨_, _, rightKept⟩
    · exact change.distinct left leftWritten right rightWritten same
    · exact (rightKept left leftWritten same).elim
  · rcases (change.result right).mp isRight with rightWritten | ⟨rightPresent, _, _⟩
    · exact (leftKept right rightWritten same.symm).elim
    · exact change.single left right leftPresent rightPresent same

theorem Change.restored_of_owned (change : Change key present later removed written before)
    {row : ρ}
    (owned : ∀ left right, row ∈ rowsOf left → row ∈ rowsOf right → key left = key right)
    : Restored key rowsOf present later removed written before row where
  removal old isRemoved called := by
    by_cases put : ∃ record ∈ written, row ∈ rowsOf record
    · exact .inl put
    · refine .inr fun record isLater calls => ?_
      rcases (change.result record).mp isLater with isWritten | ⟨isPresent, kept, _⟩
      · exact put ⟨record, isWritten, calls⟩
      · have same := change.single record old isPresent (change.removes old isRemoved)
          (owned record old calls called)
        exact kept (same ▸ isRemoved)
  replacement record isWritten old isPresent sameKey called := by
    by_cases again : row ∈ rowsOf record
    · exact .inl ⟨record, isWritten, again, change.irreflexive record⟩
    · refine .inr fun other isLater calls => ?_
      have written : later record := (change.result record).mpr (.inl isWritten)
      have same := change.single_later written isLater
        (sameKey.trans (owned old other called calls))
      exact again (same ▸ calls)

/-- A change keeps a row derived if it restores it. -/
theorem Change.derived (change : Change key present later removed written before)
    {rows laterRows : ρ → Prop} {row : ρ} (derived : Derived rowsOf present rows row)
    (rewritten : laterRows row ↔ AfterAll (fun record => row ∈ rowsOf record)
      (fun record => ∃ old, present old ∧ key record = key old ∧ row ∈ rowsOf old) written
      (rows row ∧ ∀ old ∈ removed, row ∉ rowsOf old))
    (restored : Restored key rowsOf present later removed written before row)
    : Derived rowsOf later laterRows row := by
  refine rewritten.trans ⟨fun after => ?_, fun called => ?_⟩
  · rcases after.origin with ⟨record, isWritten, calls⟩ | ⟨⟨held, kept⟩, spared⟩
    · exact ⟨record, (change.result record).mpr (.inl isWritten), calls⟩
    · obtain ⟨record, isPresent, calls⟩ := derived.mp held
      refine ⟨record, (change.result record).mpr (.inr ⟨isPresent, ?_, ?_⟩), calls⟩
      · exact fun isRemoved => kept record isRemoved calls
      · exact fun other isWritten same =>
          spared other isWritten ⟨record, isPresent, same, calls⟩
  · obtain ⟨record, isLater, calls⟩ := called
    by_cases put : ∃ other ∈ written, row ∈ rowsOf other
    · refine AfterAll.restored change.ordered put fun other isWritten deleted => ?_
      obtain ⟨old, isPresent, same, called⟩ := deleted
      rcases restored.replacement other isWritten old isPresent same called with again | gone
      · exact again
      · exact (gone record isLater calls).elim
    · rcases (change.result record).mp isLater with isWritten | ⟨isPresent, _, _⟩
      · exact (put ⟨record, isWritten, calls⟩).elim
      refine AfterAll.untouched (fun other isWritten deleted => ?_)
        ⟨derived.mpr ⟨record, isPresent, calls⟩, fun old isRemoved called => ?_⟩
      · obtain ⟨old, oldPresent, same, called⟩ := deleted
        rcases restored.replacement other isWritten old oldPresent same called with
          ⟨again, member, puts, _⟩ | gone
        · exact put ⟨again, member, puts⟩
        · exact gone record isLater calls
      · rcases restored.removal old isRemoved called with again | gone
        · exact put again
        · exact gone record isLater calls

end Records

section Batches

variable {ν ρ : Type} [DecidableEq ρ]

variable (rows : Finset ρ)

def applyRow : BatchOperation ρ Unit → Finset ρ
  | .put row _ => insert row rows
  | .delete row => rows.erase row

def applyRows (operations : List (BatchOperation ρ Unit)) : Finset ρ :=
  operations.foldl applyRow rows

theorem applyRows_append (first second : List (BatchOperation ρ Unit))
    : applyRows rows (first ++ second) = applyRows (applyRows rows first) second :=
  foldl_append ..

variable {row : ρ}

theorem mem_applyRows_delete {rows : Finset ρ} {deleted : List ρ} {row : ρ}
    : row ∈ applyRows rows (deleted.map .delete) ↔ row ∈ rows ∧ row ∉ deleted := by
  induction deleted generalizing rows with
  | nil => simp [applyRows]
  | cons first rest ih =>
    refine (@ih (rows.erase first)).trans ?_
    rw [Finset.mem_erase, mem_cons, not_or]
    tauto

theorem mem_applyRows_put {rows : Finset ρ} {put : List ρ} {row : ρ}
    : row ∈ applyRows rows (put.map (.put · ())) ↔ row ∈ put ∨ row ∈ rows := by
  induction put generalizing rows with
  | nil => simp [applyRows]
  | cons first rest ih =>
    refine (@ih (insert first rows)).trans ?_
    rw [Finset.mem_insert, mem_cons]
    tauto

variable {records : List ν}

/-- The operations of one record after another. -/
theorem mem_applyRows_flatMap {operations : ν → List (BatchOperation ρ Unit)}
    {puts deletes : ν → Prop} (each : ∀ rows record, row ∈ applyRows rows (operations record)
      ↔ puts record ∨ row ∈ rows ∧ ¬deletes record) {rows held} (starts : row ∈ rows ↔ held)
    : row ∈ applyRows rows (records.flatMap operations)
      ↔ AfterAll puts deletes records held := by
  induction records generalizing rows held with
  | nil => exact starts
  | cons record rest ih =>
    rw [flatMap_cons, applyRows_append]
    exact ih ((each rows record).trans (by rw [starts]))

end Batches

end DerivedRows
