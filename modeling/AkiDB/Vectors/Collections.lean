import AkiDB.Library.KeyedMaps
import AkiDB.Library.Runs
import AkiDB.Library.SizedKeys
import AkiDB.Vectors.IdMapping

/-! Collections of id mappings in one store: each is a family of cells, one for each external id. -/

namespace AkiDB.Vectors
open AkiDB.Common AtomicBatch Checked KeyedMaps Utf8Text SizedKeys List

/-! Keys and rows -/

inductive RowFamily where
  | mapping
  | vector
  | text
  deriving DecidableEq

def RowFamily.leading : RowFamily → List UInt8
  | mapping => bytes "id:"
  | vector => bytes "vec:"
  | text => bytes "txt:"

def makeCollectionPrefix (family : RowFamily) (collection : String) : List UInt8 :=
  family.leading ++ sized collection

structure RowSlot where
  family : RowFamily
  collection : String
  externalId : String
  deriving DecidableEq

def RowSlot.key (slot : RowSlot) : List UInt8 :=
  makeCollectionPrefix slot.family slot.collection ++ bytes slot.externalId

inductive StoredRow where
  | entry (entry : IdMappingEntry)
  | vector (entry : StoredVectorEntry)
  | text (text : String)
  deriving DecidableEq

abbrev MappingStore : Type :=
  KeyValueMap (List UInt8) StoredRow

def rowOperation (write : RowSlot × Option StoredRow) : BatchOperation (List UInt8) StoredRow :=
  match write.2 with
  | some row => .put write.1.key row
  | none => .delete write.1.key

namespace MappingStore

variable (store : MappingStore) (collection : String)

variable (fault : Option AkiDbError)

def writeBatch (writes : List (RowSlot × Option StoredRow))
    : Except AkiDbError MappingStore :=
  match fault with
  | some error => .error error
  | none => .ok (applyBatch store (writes.map rowOperation))

def scanPrefix (leading : List UInt8) : List (List UInt8 × StoredRow) :=
  (store.filter fun key _ => leading.isPrefixOf key).toList

def get (externalId : String) : Except AkiDbError (Option IdMappingEntry) :=
  match store[RowSlot.key ⟨.mapping, collection, externalId⟩]? with
  | some (.entry entry) => .ok (some entry)
  | some _ => .error (.serializationError "invalid mapping entry")
  | none => .ok none

def getInternalId (externalId : String) : Except AkiDbError (Option Nat) := do
  match ← store.get collection externalId with
  | some entry => return if entry.deleted then none else some entry.internalId
  | none => return none

def isDeleted (externalId : String) : Except AkiDbError Bool := do
  return (← store.get collection externalId).any (·.deleted)

def getVectorIncludingDeleted (externalId : String)
    : Except AkiDbError (Option StoredVectorEntry) :=
  match store[RowSlot.key ⟨.vector, collection, externalId⟩]? with
  | some (.vector entry) => .ok (some entry)
  | some _ => .error (.serializationError "invalid vector entry")
  | none => .ok none

def getVector (externalId : String) : Except AkiDbError (Option StoredVectorEntry) := do
  if (← store.getInternalId collection externalId).isNone then return none
  let entry ← store.getVectorIncludingDeleted collection externalId
  return entry.filter fun entry => !entry.deleted

def loadActiveVectors : Except AkiDbError (List StoredVectorEntry) :=
  collectEach (fun row => match row.2 with
      | .vector entry =>
        if entry.deleted then .ok none
        else do
          let internalId ← store.getInternalId collection entry.externalId
          return internalId.map fun _ => entry
      | _ => .error (.serializationError "invalid vector entry"))
    (store.scanPrefix (makeCollectionPrefix .vector collection))

def loadAllTexts : Except AkiDbError (List (String × String)) :=
  let leading := makeCollectionPrefix .text collection
  collectEach (fun row =>
      if row.1.length ≤ leading.length then .ok none
      else match String.fromUTF8? ⟨(row.1.drop leading.length).toArray⟩, row.2 with
        | some externalId, .text text =>
          .ok (if externalId = "" then none else some (externalId, text))
        | none, _ => .error (.serializationError "Invalid UTF-8 in persisted text vector id")
        | some externalId, _ => .error (.serializationError
            s!"Invalid UTF-8 in persisted text payload for {externalId}"))
    (store.scanPrefix leading)

/-! Writes -/

def create (externalId : String) (internalId : Nat)
    : Except AkiDbError (IdMappingEntry × MappingStore) := do
  match ← store.get collection externalId with
  | some existing =>
    if existing.deleted then .error (.idReuseForbidden externalId)
    else .error (.vectorAlreadyExists externalId)
  | none =>
    let entry : IdMappingEntry := ⟨internalId, false⟩
    return (entry, ← store.writeBatch fault
      [(⟨.mapping, collection, externalId⟩, some (.entry entry))])

def update (externalId : String) (newInternalId : Nat)
    : Except AkiDbError (IdMappingEntry × MappingStore) := do
  match ← store.get collection externalId with
  | some existing =>
    if existing.deleted then .error (.idReuseForbidden externalId)
    else
      let entry := { existing with internalId := newInternalId }
      return (entry, ← store.writeBatch fault
        [(⟨.mapping, collection, externalId⟩, some (.entry entry))])
  | none =>
    let entry : IdMappingEntry := ⟨newInternalId, false⟩
    return (entry, ← store.writeBatch fault
      [(⟨.mapping, collection, externalId⟩, some (.entry entry))])

def markDeleted (externalId : String)
    : Except AkiDbError (Option Nat × MappingStore) := do
  match ← store.get collection externalId with
  | none => return (none, store)
  | some entry =>
    if entry.deleted then return (none, store)
    else
      let vector ← store.getVectorIncludingDeleted collection externalId
      return (some entry.internalId, ← store.writeBatch fault
        ([(⟨.mapping, collection, externalId⟩, some (.entry { entry with deleted := true }))]
          ++ vector.toList.map (fun payload => (⟨.vector, collection, externalId⟩,
            some (.vector { payload with deleted := true })))
          ++ [(⟨.text, collection, externalId⟩, none)]))

/-- The write of a text in an upsert: none leaves the text alone, an empty one deletes it. -/
def textWrites (externalId : String) : Option String → List (RowSlot × Option StoredRow)
  | none => []
  | some text => [(⟨.text, collection, externalId⟩,
      if text = "" then none else some (.text text))]

def upsertWithVectorAndText (externalId : String)
    (internalId : Nat) (vector : List Score) (metadata : List UInt8) (text : Option String)
    : Except AkiDbError (IdMappingEntry × MappingStore) := do
  let existing ← store.get collection externalId
  if existing.any (·.deleted) then .error (.idReuseForbidden externalId)
  else
    let entry : IdMappingEntry := ⟨internalId, false⟩
    return (entry, ← store.writeBatch fault
      ([(⟨.mapping, collection, externalId⟩, some (.entry entry)),
        (⟨.vector, collection, externalId⟩,
          some (.vector ⟨externalId, internalId, vector, metadata, false⟩))]
        ++ textWrites collection externalId text))

def upsertWithVector (externalId : String) (internalId : Nat)
    (vector : List Score) (metadata : List UInt8)
    : Except AkiDbError (IdMappingEntry × MappingStore) :=
  store.upsertWithVectorAndText collection fault externalId internalId vector metadata none

def storeText (externalId text : String)
    : Except AkiDbError MappingStore :=
  store.writeBatch fault [(⟨.text, collection, externalId⟩, some (.text text))]

def deleteText (externalId : String)
    : Except AkiDbError MappingStore :=
  store.writeBatch fault [(⟨.text, collection, externalId⟩, none)]

end MappingStore

inductive MappingOperation where
  | create (internalId : Nat)
  | update (internalId : Nat)
  | markDeleted
  | upsertWithVector (internalId : Nat) (vector : List Score) (metadata : List UInt8)
  | upsertWithVectorAndText (internalId : Nat) (vector : List Score) (metadata : List UInt8)
      (text : Option String)
  | storeText (text : String)
  | deleteText

structure MappingAction where
  collection : String
  externalId : String
  fault : Option AkiDbError
  operation : MappingOperation

/-- An operation that fails leaves the store as it was. -/
def MappingStore.perform (store : MappingStore) (action : MappingAction) : MappingStore :=
  let ⟨collection, externalId, fault, operation⟩ := action
  (match operation with
    | .create internalId =>
      (store.create collection fault externalId internalId).map Prod.snd
    | .update internalId =>
      (store.update collection fault externalId internalId).map Prod.snd
    | .markDeleted => (store.markDeleted collection fault externalId).map Prod.snd
    | .upsertWithVector internalId vector metadata =>
      (store.upsertWithVector collection fault externalId internalId vector metadata).map Prod.snd
    | .upsertWithVectorAndText internalId vector metadata text =>
      (store.upsertWithVectorAndText collection fault externalId internalId vector metadata
        text).map Prod.snd
    | .storeText text => store.storeText collection fault externalId text
    | .deleteText => store.deleteText collection fault externalId).toOption.getD store

/-! Cells -/

/-- What a collection holds for one external id. -/
structure MappingCell where
  entry : Option IdMappingEntry
  vector : Option StoredVectorEntry
  text : Option String

namespace MappingCell

def blank : MappingCell where
  entry := none
  vector := none
  text := none

def deleted (cell : MappingCell) : Bool :=
  cell.entry.any (·.deleted)

def active (cell : MappingCell) : Option StoredVectorEntry :=
  if cell.entry.any (!·.deleted) then cell.vector.filter (!·.deleted) else none

def writeText (cell : MappingCell) : Option String → MappingCell
  | none => cell
  | some text => { cell with text := if text = "" then none else some text }

/-- The step of one operation that does not fail. -/
def step (externalId : String) (cell : MappingCell) : MappingOperation → MappingCell
  | .create internalId =>
    if cell.entry.isSome then cell else { cell with entry := some ⟨internalId, false⟩ }
  | .update internalId =>
    if cell.deleted then cell else { cell with entry := some ⟨internalId, false⟩ }
  | .markDeleted =>
    match cell.entry with
    | some ⟨internalId, false⟩ =>
      { entry := some ⟨internalId, true⟩
        vector := cell.vector.map ({ · with deleted := true })
        text := none }
    | _ => cell
  | .upsertWithVector internalId vector metadata =>
    if cell.deleted then cell
    else { cell with
      entry := some ⟨internalId, false⟩
      vector := some ⟨externalId, internalId, vector, metadata, false⟩ }
  | .upsertWithVectorAndText internalId vector metadata text =>
    if cell.deleted then cell
    else { cell with
      entry := some ⟨internalId, false⟩
      vector := some ⟨externalId, internalId, vector, metadata, false⟩ }.writeText text
  | .storeText text => { cell with text := some text }
  | .deleteText => { cell with text := none }

end MappingCell

/-! Keys tell families, collections and ids apart -/

theorem leading_append_inj {left right : RowFamily} {leftRest rightRest : List UInt8}
    (same : left.leading ++ leftRest = right.leading ++ rightRest)
    : left = right ∧ leftRest = rightRest := by
  have mapping : bytes "id:" = [105, 100, 58] := by decide +kernel
  have vector : bytes "vec:" = [118, 101, 99, 58] := by decide +kernel
  have text : bytes "txt:" = [116, 120, 116, 58] := by decide +kernel
  cases left <;> cases right <;> simp_all [RowFamily.leading]

theorem RowSlot.eq_of_leading {family : RowFamily} {collection : String} {slot : RowSlot}
    (starts : makeCollectionPrefix family collection <+: slot.key)
    : slot.family = family ∧ slot.collection = collection := by
  obtain ⟨rest, same⟩ := starts
  unfold RowSlot.key makeCollectionPrefix at same
  rw [append_assoc, append_assoc] at same
  obtain ⟨families, rests⟩ := leading_append_inj same
  exact ⟨families.symm, (sized_append_inj rests).1.symm⟩

theorem RowSlot.key_inj {left right : RowSlot} (same : left.key = right.key) : left = right := by
  unfold RowSlot.key makeCollectionPrefix at same
  rw [append_assoc, append_assoc] at same
  obtain ⟨families, rests⟩ := leading_append_inj same
  obtain ⟨collections, ids⟩ := sized_append_inj rests
  have externalIds := bytes_inj ids
  cases left
  cases right
  simp_all

namespace MappingStore

variable {store : MappingStore} {collection externalId : String}

theorem read_untouched {writes : List (RowSlot × Option StoredRow)} {key : List UInt8}
    (others : ∀ write ∈ writes, write.1.key ≠ key)
    : (applyBatch store (writes.map rowOperation))[key]? = store[key]? := by
  refine applyBatch_untouched store fun operation member => ?_
  obtain ⟨write, isWrite, rfl⟩ := mem_map.mp member
  unfold rowOperation
  split <;> exact others write isWrite

theorem read_written {writes : List (RowSlot × Option StoredRow)}
    (distinct : (writes.map Prod.fst).Nodup) (slot : RowSlot)
    : (applyBatch store (writes.map rowOperation))[slot.key]?
      = (writes.lookup slot).getD store[slot.key]? := by
  induction writes generalizing store with
  | nil => rfl
  | cons write rest ih =>
    obtain ⟨place, row⟩ := write
    rw [map_cons, nodup_cons] at distinct
    rw [lookup_cons]
    refine (@ih (applyOperation store (rowOperation (place, row))) distinct.2).trans ?_
    by_cases same : slot = place
    · subst same
      have absent : rest.lookup slot = none := by
        rw [lookup_eq_none_iff]
        intro other member
        rw [bne_iff_ne]
        exact fun same => distinct.1 (mem_map.mpr ⟨other, member, same.symm⟩)
      have own := applyOperation_written store (rowOperation (slot, row))
      rw [absent, beq_self_eq_true]
      unfold rowOperation at own ⊢
      cases row <;> exact own
    · have other : (rowOperation (place, row)).key ≠ slot.key := by
        unfold rowOperation
        split <;> exact fun equal => same (RowSlot.key_inj equal).symm
      rw [applyOperation_untouched store other, beq_false_of_ne same]

/-! The store as cells -/

def asEntry : StoredRow → Option IdMappingEntry
  | .entry entry => some entry
  | _ => none

def asVector : StoredRow → Option StoredVectorEntry
  | .vector entry => some entry
  | _ => none

def asText : StoredRow → Option String
  | .text text => some text
  | _ => none

def cell (store : MappingStore) (collection externalId : String) : MappingCell where
  entry := store[RowSlot.key ⟨.mapping, collection, externalId⟩]?.bind asEntry
  vector := store[RowSlot.key ⟨.vector, collection, externalId⟩]?.bind asVector
  text := store[RowSlot.key ⟨.text, collection, externalId⟩]?.bind asText

/-- The row is one of the slot's family, and a payload names the slot's id. -/
def Fits (slot : RowSlot) (row : StoredRow) : Prop :=
  match slot.family with
  | .mapping => (asEntry row).isSome
  | .vector => ∃ entry, row = .vector entry ∧ entry.externalId = slot.externalId
  | .text => (asText row).isSome

def Typed (store : MappingStore) : Prop :=
  ∀ key row, store[key]? = some row → ∃ slot : RowSlot, slot.key = key ∧ Fits slot row

theorem Typed.fits (typed : store.Typed) {slot : RowSlot} {row : StoredRow}
    (found : store[slot.key]? = some row) : Fits slot row := by
  obtain ⟨other, same, fits⟩ := typed _ _ found
  exact RowSlot.key_inj same ▸ fits

theorem Typed.get (typed : store.Typed)
    : store.get collection externalId = .ok (store.cell collection externalId).entry := by
  unfold MappingStore.get cell
  cases found : store[RowSlot.key ⟨.mapping, collection, externalId⟩]? with
  | none => rfl
  | some row =>
    have fits : (asEntry row).isSome := typed.fits found
    cases row with
    | entry => rfl
    | vector => cases fits
    | text => cases fits

theorem Typed.getVectorIncludingDeleted (typed : store.Typed)
    : store.getVectorIncludingDeleted collection externalId
      = .ok (store.cell collection externalId).vector := by
  unfold MappingStore.getVectorIncludingDeleted cell
  cases found : store[RowSlot.key ⟨.vector, collection, externalId⟩]? with
  | none => rfl
  | some row =>
    obtain ⟨entry, rfl, _⟩ := typed.fits found
    rfl

/-- The writes by which an operation makes its step. -/
def writes (collection externalId : String) (cell : MappingCell)
    : MappingOperation → List (RowSlot × Option StoredRow)
  | .create internalId =>
    if cell.entry.isSome then []
    else [(⟨.mapping, collection, externalId⟩, some (.entry ⟨internalId, false⟩))]
  | .update internalId =>
    if cell.deleted then []
    else [(⟨.mapping, collection, externalId⟩, some (.entry ⟨internalId, false⟩))]
  | .markDeleted =>
    match cell.entry with
    | some ⟨internalId, false⟩ =>
      [(⟨.mapping, collection, externalId⟩, some (.entry ⟨internalId, true⟩))]
        ++ cell.vector.toList.map (fun payload => (⟨.vector, collection, externalId⟩,
          some (.vector { payload with deleted := true })))
        ++ [(⟨.text, collection, externalId⟩, none)]
    | _ => []
  | .upsertWithVector internalId vector metadata =>
    if cell.deleted then []
    else [(⟨.mapping, collection, externalId⟩, some (.entry ⟨internalId, false⟩)),
      (⟨.vector, collection, externalId⟩,
        some (.vector ⟨externalId, internalId, vector, metadata, false⟩))]
  | .upsertWithVectorAndText internalId vector metadata text =>
    if cell.deleted then []
    else [(⟨.mapping, collection, externalId⟩, some (.entry ⟨internalId, false⟩)),
      (⟨.vector, collection, externalId⟩,
        some (.vector ⟨externalId, internalId, vector, metadata, false⟩))]
      ++ textWrites collection externalId text
  | .storeText text => [(⟨.text, collection, externalId⟩, some (.text text))]
  | .deleteText => [(⟨.text, collection, externalId⟩, none)]

def actionWrites (store : MappingStore) (action : MappingAction)
    : List (RowSlot × Option StoredRow) :=
  writes action.collection action.externalId (store.cell action.collection action.externalId)
    action.operation

theorem Typed.perform_eq (typed : store.Typed) (action : MappingAction)
    : store.perform action = if action.fault.isSome then store
      else applyBatch store ((store.actionWrites action).map rowOperation) := by
  obtain ⟨collection, externalId, fault, operation⟩ := action
  have get := @Typed.get store collection externalId typed
  have payload := @Typed.getVectorIncludingDeleted store collection externalId typed
  unfold actionWrites
  generalize store.cell collection externalId = held at get payload
  -- The cases of an operation: no entry, an active one and a deleted one.
  rcases held with ⟨_ | ⟨number, _ | _⟩, stored, text⟩ <;> cases fault <;> cases operation <;>
    simp only [perform, create, update, markDeleted, upsertWithVector, upsertWithVectorAndText,
      get, payload, ok_bind] <;> rfl

theorem writes_sound {cell}
    (named : ∀ payload, cell.vector = some payload → payload.externalId = externalId)
    (operation : MappingOperation)
    : ((writes collection externalId cell operation).map Prod.fst).Nodup
      ∧ ∀ write ∈ writes collection externalId cell operation,
        write.1.collection = collection ∧ write.1.externalId = externalId
        ∧ ∀ row, write.2 = some row → Fits write.1 row := by
  rcases cell with ⟨_ | ⟨number, _ | _⟩, _ | payload, text⟩ <;>
    rcases operation with _ | _ | _ | _ | ⟨_, _, _, _ | text⟩ | _ | _ <;>
    simp_all [writes, MappingCell.deleted, textWrites, Fits, asEntry, asText]

theorem Typed.named (typed : store.Typed) (payload : StoredVectorEntry)
    (held : (store.cell collection externalId).vector = some payload)
    : payload.externalId = externalId := by
  obtain ⟨row, found, isVector⟩ := Option.bind_eq_some_iff.mp held
  obtain ⟨entry, rfl, named⟩ := typed.fits found
  cases isVector
  exact named

theorem Typed.sound (typed : store.Typed) (action : MappingAction)
    : ((store.actionWrites action).map Prod.fst).Nodup
      ∧ ∀ write ∈ store.actionWrites action, write.1.collection = action.collection
        ∧ write.1.externalId = action.externalId
        ∧ ∀ row, write.2 = some row → Fits write.1 row :=
  writes_sound typed.named action.operation

/-- Every action leaves values of the right type. -/
theorem Typed.perform (typed : store.Typed) (action : MappingAction)
    : (store.perform action).Typed := by
  rw [typed.perform_eq]
  split
  · exact typed
  · intro key row found
    rcases applyBatch_cases store ((store.actionWrites action).map rowOperation) key with
      ⟨value, member, read⟩ | ⟨_, read⟩ | ⟨_, read⟩
    · obtain ⟨⟨slot, written⟩, isWrite, same⟩ := mem_map.mp member
      have fits := ((typed.sound action).2 _ isWrite).2.2
      cases written with
      | none => cases same
      | some written =>
        obtain ⟨rfl, rfl⟩ := BatchOperation.put.inj same
        rw [read] at found
        exact ⟨slot, rfl, fits row found⟩
    · rw [read] at found
      cases found
    · rw [read] at found
      exact typed key row found

theorem typed_empty : (∅ : MappingStore).Typed := by
  intro key row found
  cases (lookup_empty key).symm.trans found

theorem beq_slot (left right : RowFamily)
    : ((⟨left, collection, externalId⟩ : RowSlot) == ⟨right, collection, externalId⟩)
      = decide (left = right) := by
  rw [Bool.eq_iff_iff, beq_iff_eq, decide_eq_true_iff]
  simp

/-- What an operation leaves in its own cell, family by family. -/
theorem cell_writes {held : MappingCell} {operation : MappingOperation}
    (own : store.cell collection externalId = held)
    (distinct : ((writes collection externalId held operation).map Prod.fst).Nodup)
    : cell (applyBatch store ((writes collection externalId held operation).map rowOperation))
        collection externalId = held.step externalId operation := by
  have families (family : RowFamily) := @read_written store _ distinct
    ⟨family, collection, externalId⟩
  unfold cell at own ⊢
  rw [families, families, families]
  obtain ⟨entry, vector, text⟩ := held
  obtain ⟨isEntry, isVector, isText⟩ := MappingCell.mk.inj own
  rcases entry with _ | ⟨number, _ | _⟩ <;> cases vector <;>
    rcases operation with _ | _ | _ | _ | ⟨_, _, _, _ | text⟩ | _ | _ <;>
    simp [writes, MappingCell.step, MappingCell.deleted, MappingCell.writeText, textWrites,
      List.lookup, beq_slot, asEntry.eq_1, asVector.eq_1, asText.eq_1, isEntry, isVector, isText]
  all_goals split <;> rfl

section
variable (typed : store.Typed)
include typed

/-- An operation that does not fail makes its step in its own cell. -/
theorem Typed.cell_perform (action : MappingAction)
    (collection externalId : String)
    : (store.perform action).cell collection externalId
      = if action.fault = none ∧ action.collection = collection ∧ action.externalId = externalId
        then (store.cell collection externalId).step externalId action.operation
        else store.cell collection externalId := by
  rw [typed.perform_eq]
  have sound := typed.sound action
  cases fault : action.fault with
  | some error => simp
  | none =>
    rw [if_neg (by simp)]
    by_cases own : action.collection = collection ∧ action.externalId = externalId
    · rw [if_pos ⟨rfl, own⟩]
      obtain ⟨rfl, rfl⟩ := own
      exact cell_writes rfl sound.1
    · rw [if_neg fun both => own both.2]
      have same (family : RowFamily)
          : (applyBatch store ((store.actionWrites action).map
              rowOperation))[RowSlot.key ⟨family, collection, externalId⟩]?
            = store[RowSlot.key ⟨family, collection, externalId⟩]? := by
        refine read_untouched fun write member equal => own ?_
        obtain ⟨collections, ids, _⟩ := sound.2 write member
        rw [← collections, ← ids, RowSlot.key_inj equal]
        exact ⟨rfl, rfl⟩
      unfold cell
      rw [same, same, same]

/-! What is read -/

theorem Typed.isDeleted
    : store.isDeleted collection externalId
      = .ok (store.cell collection externalId).deleted := by
  unfold MappingStore.isDeleted
  rw [typed.get]
  rfl

theorem Typed.getInternalId
    : store.getInternalId collection externalId
      = .ok (((store.cell collection externalId).entry.filter (!·.deleted)).map
        (·.internalId)) := by
  unfold MappingStore.getInternalId
  rw [typed.get, ok_bind]
  rcases (store.cell collection externalId).entry with _ | ⟨number, _ | _⟩ <;> rfl

theorem Typed.getVector
    : store.getVector collection externalId
      = .ok (store.cell collection externalId).active := by
  unfold MappingStore.getVector MappingCell.active
  rw [typed.getInternalId, ok_bind, typed.getVectorIncludingDeleted]
  rcases (store.cell collection externalId).entry with _ | ⟨number, _ | _⟩ <;> rfl

theorem Typed.of_loadActiveVectors {listed}
    (loaded : store.loadActiveVectors collection = .ok listed) {entry} (member : entry ∈ listed)
    : (store.cell collection entry.externalId).deleted = false := by
  obtain ⟨row, _, chosen⟩ := (mem_of_collectEach loaded).mp member
  split at chosen
  · split at chosen
    · cases chosen
    · rename_i payload _ _
      rw [typed.getInternalId, ok_bind] at chosen
      have found := Except.ok.inj chosen
      unfold MappingCell.deleted
      obtain ⟨number, held, same⟩ := Option.map_eq_some_iff.mp found
      subst same
      obtain ⟨active, isEntry, _⟩ := Option.map_eq_some_iff.mp held
      obtain ⟨stored, undeleted⟩ := Option.filter_eq_some_iff.mp isEntry
      rw [stored]
      simpa using undeleted
  · cases chosen

end

theorem of_loadAllTexts {listed} (loaded : store.loadAllTexts collection = .ok listed)
    {text : String} (member : (externalId, text) ∈ listed)
    : (store.cell collection externalId).text = some text := by
  obtain ⟨⟨key, row⟩, scanned, chosen⟩ := (mem_of_collectEach loaded).mp member
  have found := Std.ExtTreeMap.mem_toList_iff_getElem?_eq_some.mp scanned
  rw [lookup_filter, Option.filter_eq_some_iff] at found
  obtain ⟨rest, rfl⟩ := isPrefixOf_iff_prefix.mp found.2
  dsimp only at chosen
  split at chosen
  · cases chosen
  · rw [drop_left] at chosen
    split at chosen
    · rename_i decoded
      split at chosen
      · cases chosen
      · cases chosen
        have same : bytes externalId = rest := by
          unfold String.fromUTF8? at decoded
          split at decoded
          · cases decoded
            rfl
          · cases decoded
        subst same
        unfold cell RowSlot.key
        rw [found.1]
        rfl
    · cases chosen
    · cases chosen

/-- Two stores that read and list the same for a collection. -/
structure SameReads (collection : String) (left right : MappingStore) : Prop where
  get : ∀ externalId, left.get collection externalId = right.get collection externalId
  payload : ∀ externalId, left.getVectorIncludingDeleted collection externalId
    = right.getVectorIncludingDeleted collection externalId
  vector : ∀ externalId, left.getVector collection externalId
    = right.getVector collection externalId
  vectors : left.loadActiveVectors collection = right.loadActiveVectors collection
  texts : left.loadAllTexts collection = right.loadAllTexts collection

theorem SameReads.of_keys {left right}
    (same : ∀ family key, makeCollectionPrefix family collection <+: key → left[key]? = right[key]?)
    : SameReads collection left right := by
  have reads (family : RowFamily) (externalId : String)
      : left[RowSlot.key ⟨family, collection, externalId⟩]?
        = right[RowSlot.key ⟨family, collection, externalId⟩]? :=
    same family _ (prefix_append ..)
  have scans (family : RowFamily)
      : left.scanPrefix (makeCollectionPrefix family collection)
        = right.scanPrefix (makeCollectionPrefix family collection) := by
    unfold scanPrefix
    refine congrArg _ (Std.ExtTreeMap.ext_getElem? fun key => ?_)
    rw [lookup_filter, lookup_filter]
    by_cases starts : makeCollectionPrefix family collection <+: key
    · rw [same family key starts]
    · have rejected : (makeCollectionPrefix family collection).isPrefixOf key = false :=
        Bool.eq_false_iff.mpr fun accepted => starts (List.isPrefixOf_iff_prefix.mp accepted)
      rw [Option.filter_eq_none_iff.mpr (by simp [rejected]),
        Option.filter_eq_none_iff.mpr (by simp [rejected])]
  have get (externalId : String)
      : left.get collection externalId = right.get collection externalId := by
    unfold MappingStore.get
    rw [reads]
  have internal (externalId : String)
      : left.getInternalId collection externalId = right.getInternalId collection externalId := by
    unfold MappingStore.getInternalId
    rw [get]
  have payload (externalId : String)
      : left.getVectorIncludingDeleted collection externalId
        = right.getVectorIncludingDeleted collection externalId := by
    unfold MappingStore.getVectorIncludingDeleted
    rw [reads]
  refine ⟨get, payload, fun externalId => ?_, ?_, ?_⟩
  · unfold MappingStore.getVector
    rw [internal, payload]
  · unfold MappingStore.loadActiveVectors
    rw [scans, funext internal]
  · unfold MappingStore.loadAllTexts
    dsimp only
    rw [scans]

theorem Typed.sameReads_perform (typed : store.Typed) {action : MappingAction}
    (other : action.collection ≠ collection)
    : SameReads collection (store.perform action) store := by
  refine SameReads.of_keys fun family key starts => ?_
  rw [typed.perform_eq]
  split
  · rfl
  · refine read_untouched fun write member same => other ?_
    rw [← ((typed.sound action).2 write member).1]
    exact (RowSlot.eq_of_leading (same.symm ▸ starts)).2

end MappingStore

namespace MappingCell

variable {cell : MappingCell} {externalId : String}

theorem deleted_step (operation : MappingOperation) (deleted : cell.deleted = true)
    : (cell.step externalId operation).deleted = true := by
  rcases cell with ⟨_ | ⟨number, _ | _⟩, vector, text⟩ <;> cases operation <;>
    first | rfl | cases deleted

theorem active_of_deleted (deleted : cell.deleted = true) : cell.active = none := by
  unfold MappingCell.deleted at deleted
  unfold active
  rcases cell with ⟨_ | ⟨number, _ | _⟩, vector, text⟩
  · cases deleted
  · cases deleted
  · rfl

/-- No text is stored for a deleted id, and no update moves an active payload's mapping away. -/
def Permits (cell : MappingCell) : MappingOperation → Prop
  | .storeText _ => cell.deleted = false
  | .update internalId => cell.active.all (·.internalId = internalId)
  | _ => True

/-- A deleted id has no text; a payload is deleted with its entry, or active under its internal
id. -/
structure Coherent (cell : MappingCell) : Prop where
  textless : cell.deleted = true → cell.text = none
  matched : ∀ payload, cell.vector = some payload →
    cell.entry = some ⟨payload.internalId, false⟩ ∧ payload.deleted = false
      ∨ cell.deleted = true ∧ payload.deleted = true

theorem Coherent.blank : blank.Coherent where
  textless deleted := by cases deleted
  matched _ held := by cases held

/-- A permitted step keeps the rows of a cell coherent. -/
theorem Coherent.step (coherent : cell.Coherent) {operation} (permits : cell.Permits operation)
    : (cell.step externalId operation).Coherent := by
  obtain ⟨textless, matched⟩ := coherent
  rcases cell with ⟨_ | ⟨number, _ | _⟩, _ | payload, text⟩ <;>
    rcases operation with _ | _ | _ | _ | ⟨_, _, _, _ | text⟩ | _ | _ <;>
    constructor <;>
    simp_all [MappingCell.step, MappingCell.deleted, MappingCell.writeText, Permits, active]

theorem Coherent.active_eq (coherent : cell.Coherent) {payload} (held : cell.active = some payload)
    : cell.entry = some ⟨payload.internalId, false⟩ := by
  unfold active at held
  split at held
  · rename_i undeleted
    obtain ⟨stored, _⟩ := Option.filter_eq_some_iff.mp held
    rcases coherent.matched payload stored with ⟨entry, _⟩ | ⟨deleted, _⟩
    · exact entry
    · unfold MappingCell.deleted at deleted
      rcases cell.entry with _ | ⟨number, _ | _⟩ <;> simp_all
  · cases held

theorem vector_of_active {entry} (active : cell.active = some entry)
    : cell.vector = some entry := by
  unfold MappingCell.active at active
  split at active
  · exact (Option.filter_eq_some_iff.mp active).1
  · cases active

end MappingCell

namespace MappingStore

def Permits (store : MappingStore) (action : MappingAction) : Prop :=
  (store.cell action.collection action.externalId).Permits action.operation

instance (store : MappingStore) (action : MappingAction) : Decidable (store.Permits action) := by
  unfold Permits MappingCell.Permits
  cases action.operation <;> infer_instance

def Coherent (store : MappingStore) : Prop :=
  ∀ collection externalId, (store.cell collection externalId).Coherent

variable {store : MappingStore} {collection externalId : String}

theorem Typed.run (typed : store.Typed) (actions : List MappingAction)
    : Typed (actions.foldl MappingStore.perform store) :=
  List.foldlRecOn _ _ typed fun _ typed action _ => typed.perform action

theorem Typed.deleted_run (typed : store.Typed)
    (deleted : (store.cell collection externalId).deleted = true) (actions : List MappingAction)
    : (cell (actions.foldl MappingStore.perform store) collection externalId).deleted = true := by
  induction actions generalizing store with
  | nil => exact deleted
  | cons action rest ih =>
    refine ih (typed.perform action) ?_
    rw [typed.cell_perform]
    split
    · exact MappingCell.deleted_step action.operation deleted
    · exact deleted

theorem Coherent.perform (typed : store.Typed) (coherent : store.Coherent) {action}
    (permits : store.Permits action)
    : (store.perform action).Coherent := by
  intro collection externalId
  rw [typed.cell_perform]
  split
  · rename_i own
    obtain ⟨_, rfl, rfl⟩ := own
    exact (coherent _ _).step permits
  · exact coherent collection externalId

theorem cell_empty (collection externalId : String) : cell ∅ collection externalId = .blank := by
  unfold cell
  rw [lookup_empty, lookup_empty, lookup_empty]
  rfl

theorem coherent_empty : Coherent ∅ := fun collection externalId =>
  cell_empty collection externalId ▸ MappingCell.Coherent.blank

/-- After every run on any collections, a deleted id stays deleted, and collections do not disturb
each other.
Witness: no step of a deleted cell revives it.
-/
theorem deleted_ids_stay_deleted (earlier later : List MappingAction)
    : let after := (earlier ++ later).foldl perform ∅
      (∀ collection externalId,
        isDeleted (earlier.foldl perform ∅) collection externalId = .ok true →
        isDeleted after collection externalId = .ok true
        ∧ getVector after collection externalId = .ok none
        ∧ (∀ listed, loadActiveVectors after collection = .ok listed →
          ∀ entry ∈ listed, entry.externalId ≠ externalId)
        ∧ (Runs.Along perform Permits ∅ (earlier ++ later) → ∀ listed,
          loadAllTexts after collection = .ok listed → ∀ text, (externalId, text) ∉ listed))
      ∧ (∀ action collection, action.collection ≠ collection →
        SameReads collection (perform after action) after)
      ∧ (Runs.Along perform Permits ∅ (earlier ++ later) → ∀ collection externalId payload,
        getVector after collection externalId = .ok (some payload) →
        getInternalId after collection externalId = .ok (some payload.internalId)) := by
  dsimp only
  have before := typed_empty.run earlier
  have typed := typed_empty.run (earlier ++ later)
  have coherent (along : Runs.Along perform Permits ∅ (earlier ++ later))
      : Coherent ((earlier ++ later).foldl perform ∅) :=
    (@Runs.Along.invariant _ _ _ _ (fun store : MappingStore => store.Typed ∧ store.Coherent)
      (fun store action held permits =>
        ⟨held.1.perform action, held.2.perform held.1 permits⟩)
      _ _ along ⟨typed_empty, coherent_empty⟩).2
  refine ⟨fun collection externalId wasDeleted => ?_, fun action collection other =>
    typed.sameReads_perform other, fun along collection externalId payload read => ?_⟩
  · rw [before.isDeleted] at wasDeleted
    have deleted := before.deleted_run (Except.ok.inj wasDeleted) later
    rw [← foldl_append] at deleted
    refine ⟨?_, ?_, fun listed loaded entry member same => ?_,
      fun along listed loaded text member => ?_⟩
    · rw [typed.isDeleted, deleted]
    · rw [typed.getVector, MappingCell.active_of_deleted deleted]
    · have active := typed.of_loadActiveVectors loaded member
      rw [same, deleted] at active
      cases active
    · have gone := (coherent along collection externalId).textless deleted
      cases gone.symm.trans (of_loadAllTexts loaded member)
  · rw [typed.getVector] at read
    rw [typed.getInternalId, (coherent along collection externalId).active_eq (Except.ok.inj read)]
    rfl

def movedAndDeleted : List MappingAction :=
  [⟨"docs", "v", none, .upsertWithVectorAndText 0 [] [] (some "first")⟩,
    ⟨"docs", "v", none, .upsertWithVectorAndText 1 [] [] none⟩,
    ⟨"notes", "v", none, .storeText "other"⟩,
    ⟨"docs", "v", none, .markDeleted⟩]

theorem moved_and_deleted_unlisted
    : isDeleted (movedAndDeleted.foldl perform ∅) "docs" "v" = .ok true
      ∧ loadAllTexts ((movedAndDeleted ++ []).foldl perform ∅) "docs" = .ok []
      ∧ ("v", "first") ∉ ([] : List (String × String)) :=
  ⟨by decide +kernel, by decide +kernel,
    ((deleted_ids_stay_deleted movedAndDeleted []).1 "docs" "v" (by decide +kernel)).2.2.2
      (by decide +kernel) [] (by decide +kernel) "first"⟩

/-- A text of a deleted id is listed, and an update leaves a payload with the old internal id. -/
theorem deleted_text_listed
    : loadAllTexts ([⟨"docs", "v", none, .upsertWithVector 0 [] []⟩,
        ⟨"docs", "v", none, .markDeleted⟩,
        ⟨"docs", "v", none, .storeText "again"⟩].foldl perform ∅) "docs"
        = .ok [("v", "again")]
      ∧ (getVector ([⟨"docs", "v", none, .upsertWithVector 0 [] []⟩,
          ⟨"docs", "v", none, .update 1⟩].foldl perform ∅) "docs" "v").map
            (Option.map (·.internalId)) = .ok (some 0)
      ∧ getInternalId ([⟨"docs", "v", none, .upsertWithVector 0 [] []⟩,
          ⟨"docs", "v", none, .update 1⟩].foldl perform ∅) "docs" "v" = .ok (some 1) := by
  decide +kernel

/-! Runs as runs of cells -/

/-- The operations of a run that reach the cell of an id. -/
def operationsOn (collection externalId : String) (actions : List MappingAction)
    : List MappingOperation :=
  (actions.filter fun action => action.fault.isNone ∧ action.collection = collection
    ∧ action.externalId = externalId).map (·.operation)

theorem Typed.cell_run (typed : store.Typed) (actions : List MappingAction)
    : cell (actions.foldl MappingStore.perform store) collection externalId
      = (operationsOn collection externalId actions).foldl (MappingCell.step externalId)
        (store.cell collection externalId) := by
  induction actions generalizing store with
  | nil => rfl
  | cons action rest ih =>
    rw [foldl_cons, ih (typed.perform action), typed.cell_perform]
    unfold operationsOn
    by_cases own : action.fault = none ∧ action.collection = collection
        ∧ action.externalId = externalId
    · rw [if_pos own, filter_cons_of_pos (by simpa using own)]
      rfl
    · rw [if_neg own, filter_cons_of_neg (by simpa using own)]

/-- The rows scanned for the vectors of a collection are those of its cells. -/
theorem Typed.mem_scanPrefix (typed : store.Typed) {row}
    : row ∈ store.scanPrefix (makeCollectionPrefix .vector collection)
      ↔ ∃ entry, row = (RowSlot.key ⟨.vector, collection, entry.externalId⟩, .vector entry)
        ∧ (store.cell collection entry.externalId).vector = some entry := by
  obtain ⟨key, value⟩ := row
  unfold scanPrefix cell
  rw [Std.ExtTreeMap.mem_toList_iff_getElem?_eq_some, lookup_filter, Option.filter_eq_some_iff]
  constructor
  · rintro ⟨found, starts⟩
    obtain ⟨⟨family, collection, externalId⟩, rfl, fits⟩ := typed key value found
    obtain ⟨rfl, rfl⟩ := RowSlot.eq_of_leading <| isPrefixOf_iff_prefix.mp starts
    obtain ⟨entry, rfl, rfl⟩ := fits
    refine ⟨entry, rfl, ?_⟩
    rw [found]
    rfl
  · rintro ⟨entry, same, held⟩
    cases same
    obtain ⟨row, found, isVector⟩ := Option.bind_eq_some_iff.mp held
    cases row <;> cases isVector
    exact ⟨found, isPrefixOf_iff_prefix.mpr (prefix_append ..)⟩

/-- Listing the vectors of a collection does not fail, and lists the active ones. -/
theorem Typed.loadActiveVectors_exact (typed : store.Typed) (collection : String)
    : ∃ listed, store.loadActiveVectors collection = .ok listed ∧ ∀ entry, entry ∈ listed
      ↔ (store.cell collection entry.externalId).active = some entry := by
  unfold loadActiveVectors
  refine ⟨_, collectEach_of_ok (fun row => (asVector row.2).bind fun entry =>
    (store.cell collection entry.externalId).active) (fun row scanned => ?_), fun entry => ?_⟩
  · obtain ⟨entry, rfl, held⟩ := typed.mem_scanPrefix.mp scanned
    dsimp only [asVector, Option.bind_some]
    unfold MappingCell.active
    rw [typed.getInternalId, ok_bind, held]
    rcases entry with ⟨_, _, _, _, _ | _⟩ <;>
      rcases (store.cell collection _).entry with _ | ⟨_, _ | _⟩ <;> rfl
  · rw [mem_filterMap]
    constructor
    · rintro ⟨row, scanned, active⟩
      obtain ⟨stored, rfl, held⟩ := typed.mem_scanPrefix.mp scanned
      cases held.symm.trans (MappingCell.vector_of_active active)
      exact active
    · intro active
      exact ⟨_, typed.mem_scanPrefix.mpr
        ⟨entry, rfl, MappingCell.vector_of_active active⟩, active⟩

/-- Every run on any collections is read as independent runs of its cells.
Witness: an operation that does not fail is a step of its own cell.
-/
theorem reads_are_cell_runs (actions : List MappingAction) (collection : String)
    : let held externalId := (operationsOn collection externalId actions).foldl
        (MappingCell.step externalId) .blank
      (∀ externalId,
        get (actions.foldl perform ∅) collection externalId = .ok (held externalId).entry
        ∧ getVectorIncludingDeleted (actions.foldl perform ∅) collection externalId
          = .ok (held externalId).vector
        ∧ getVector (actions.foldl perform ∅) collection externalId
          = .ok (held externalId).active)
      ∧ ∃ listed, loadActiveVectors (actions.foldl perform ∅) collection = .ok listed
        ∧ ∀ entry, entry ∈ listed ↔ (held entry.externalId).active = some entry := by
  intro held
  have typed := typed_empty.run actions
  have run (externalId : String)
      : cell (actions.foldl perform ∅) collection externalId = held externalId := by
    rw [typed_empty.cell_run, cell_empty]
  simp only [← run]
  exact ⟨fun _ => ⟨typed.get, typed.getVectorIncludingDeleted, typed.getVector⟩,
    typed.loadActiveVectors_exact collection⟩

end MappingStore

end AkiDB.Vectors
