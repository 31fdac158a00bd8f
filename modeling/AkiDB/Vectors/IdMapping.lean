import AkiDB.Common.Error
import AkiDB.Common.SearchResult
import AkiDB.Library.AtomicBatch
import AkiDB.Library.Checked

/-!
The durable id mapping. Every write is one atomic batch, and deleted ids are kept as tombstones.
-/

namespace AkiDB.Vectors
open AkiDB.Common AtomicBatch Checked

structure IdMappingEntry where
  internalId : Nat
  deleted : Bool
  deriving DecidableEq

structure StoredVectorEntry where
  externalId : String
  internalId : Nat
  vector : List Score
  metadata : List UInt8
  deleted : Bool
  deriving DecidableEq

structure IdMapping where
  entries : KeyValueMap String IdMappingEntry
  vectors : KeyValueMap String StoredVectorEntry
  texts : KeyValueMap String String

namespace IdMapping

def empty : IdMapping where
  entries := ∅
  vectors := ∅
  texts := ∅

section
variable (mapping : IdMapping)

section
variable (externalId : String)

def get : Option IdMappingEntry :=
  mapping.entries[externalId]?

def getInternalId : Option Nat :=
  match mapping.get externalId with
  | some entry => if entry.deleted then none else some entry.internalId
  | none => none

def getVector : Option StoredVectorEntry :=
  if (mapping.getInternalId externalId).isNone then none
  else match mapping.vectors[externalId]? with
    | some entry => if entry.deleted then none else some entry
    | none => none

def getVectorIncludingDeleted : Option StoredVectorEntry :=
  mapping.vectors[externalId]?

def loadActiveVectors : List StoredVectorEntry :=
  (mapping.vectors.toList.map Prod.snd).filter fun entry =>
    !entry.deleted && (mapping.getInternalId entry.externalId).isSome

/-- The persisted texts in the order of their ids; an empty id is skipped. -/
def loadAllTexts : List (String × String) :=
  mapping.texts.toList.filter fun row => row.1 ≠ ""

def «exists» : Bool :=
  (mapping.get externalId).isSome

def isDeleted : Bool :=
  (mapping.get externalId).any (·.deleted)

/-- The mapping after the batch of an upsert; an empty text deletes the one that is there. -/
def upserted (internalId : Nat)
    (vector : List Score) (metadata : List UInt8) (text : Option String) : IdMapping where
  entries := mapping.entries.insert externalId ⟨internalId, false⟩
  vectors := mapping.vectors.insert externalId ⟨externalId, internalId, vector, metadata, false⟩
  texts := match text with
    | none => mapping.texts
    | some "" => mapping.texts.erase externalId
    | some text => mapping.texts.insert externalId text

def upsertWithVectorAndText (fault : Option AkiDbError)
    (externalId : String) (internalId : Nat) (vector : List Score) (metadata : List UInt8)
    (text : Option String) : Except AkiDbError IdMapping := do
  rejectIf (mapping.isDeleted externalId) (.idReuseForbidden externalId)
  match fault with
  | some error => .error error
  | none => .ok (mapping.upserted externalId internalId vector metadata text)

def upsertWithVector (fault : Option AkiDbError) (externalId : String)
    (internalId : Nat) (vector : List Score) (metadata : List UInt8)
    : Except AkiDbError IdMapping :=
  mapping.upsertWithVectorAndText fault externalId internalId vector metadata none

def tombstoned (entry : IdMappingEntry)
    : IdMapping where
  entries := mapping.entries.insert externalId { entry with deleted := true }
  vectors := match mapping.vectors[externalId]? with
    | some vector => mapping.vectors.insert externalId { vector with deleted := true }
    | none => mapping.vectors
  texts := mapping.texts.erase externalId

end

def markDeleted (fault : Option AkiDbError) (externalId : String)
    : Except AkiDbError (Option Nat × IdMapping) :=
  match mapping.get externalId with
  | none => .ok (none, mapping)
  | some entry =>
    if entry.deleted then .ok (none, mapping)
    else match fault with
      | some error => .error error
      | none => .ok (some entry.internalId, mapping.tombstoned externalId entry)

end

variable {mapping : IdMapping} {externalId : String}

variable {internalId : Nat}

theorem getInternalId_eq_some
    : mapping.getInternalId externalId = some internalId
      ↔ mapping.get externalId = some ⟨internalId, false⟩ := by
  unfold getInternalId
  cases found : mapping.get externalId with
  | none => simp
  | some entry =>
    obtain ⟨held, deleted⟩ := entry
    cases deleted <;> simp

theorem isDeleted_eq_true
    : mapping.isDeleted externalId = true
      ↔ ∃ internalId, mapping.get externalId = some ⟨internalId, true⟩ := by
  unfold isDeleted
  cases found : mapping.get externalId with
  | none => simp
  | some entry =>
    obtain ⟨held, deleted⟩ := entry
    cases deleted <;> simp

variable {next : IdMapping} {fault : Option AkiDbError}

/-- When an upsert succeeds, and with which mapping. -/
theorem upsertWithVectorAndText_eq_ok {vector metadata text}
    : mapping.upsertWithVectorAndText fault externalId internalId vector metadata text
        = .ok next
      ↔ mapping.isDeleted externalId = false ∧ fault = none
        ∧ next = mapping.upserted externalId internalId vector metadata text := by
  simp only [upsertWithVectorAndText, seq_eq_ok, rejectIf_eq_ok, Bool.not_eq_true]
  cases fault with
  | some error => simp
  | none => simp only [Except.ok.injEq, true_and, eq_comm (b := next)]

theorem markDeleted_eq_ok {found}
    : mapping.markDeleted fault externalId = .ok (found, next)
      ↔ (mapping.getInternalId externalId = none ∧ found = none ∧ next = mapping)
        ∨ ∃ internalId, mapping.getInternalId externalId = some internalId ∧ fault = none
          ∧ found = some internalId
          ∧ next = mapping.tombstoned externalId ⟨internalId, false⟩ := by
  unfold markDeleted getInternalId
  cases held : mapping.get externalId with
  | none => simp [eq_comm]
  | some entry =>
    obtain ⟨internalId, deleted⟩ := entry
    cases deleted <;> cases fault <;> simp [eq_comm]

end IdMapping

end AkiDB.Vectors
