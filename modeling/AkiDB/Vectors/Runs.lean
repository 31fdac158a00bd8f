import AkiDB.Vectors.IndexStates
import AkiDB.Vectors.Maintenance

/-! Runs of the vector service: the index stays well formed and the rows of the mapping agree. -/

namespace AkiDB.Vectors
open AkiDB.Common AtomicBatch Checked KeyedMaps VectorService IdMapping

/-! Operations and runs -/

/-- A request for one id; the items of a batch are requests of their own. -/
inductive Request where
  | insert (request : InsertRequest)
  | batchItem (item : BatchItem)
  | update (request : UpdateRequest)
  | delete (request : DeleteRequest)

def Request.id : Request → String
  | insert request => request.id
  | batchItem item => item.id
  | update request => request.id
  | delete request => request.id

def Request.perform (config : ServiceConfig) (ctx : AuthContext) (faults : WriteFaults)
    (service : VectorService) : Request → VectorService
  | insert request => (service.insertInner config ctx faults request).2
  | batchItem item => (service.insertBatchItem config ctx faults item).2
  | update request => (service.updateInner config ctx faults request).2
  | delete request => (service.deleteInner config ctx faults request).2

inductive Operation where
  | request (ctx : AuthContext) (faults : WriteFaults) (asked : Request)
  | compact (removeFails : Nat → Bool)
  | reconcile (faults : MaintenanceFaults) (repairGraph : Bool)
  | restart (faults : MaintenanceFaults)

/-- The state after an operation; a service that does not start has none. -/
def Operation.perform (config : ServiceConfig) (operation : Operation)
    (service : VectorService) : Option VectorService :=
  match operation with
  | .request ctx faults asked => some (asked.perform config ctx faults service)
  | compact removeFails => some (service.compactTombstones removeFails)
  | reconcile faults repairGraph =>
    some (service.reconcileProjections config faults repairGraph).2
  | restart faults => service.restart config faults

/-- The states that allowed operations reach from a blank service. -/
inductive ReachableWhere (config : ServiceConfig)
    (allowed : VectorService → Operation → Prop) : VectorService → Prop where
  | blank (graph sql : Bool) : ReachableWhere config allowed (.blank graph sql)
  | step {before after : VectorService} {operation : Operation}
      (earlier : ReachableWhere config allowed before) (permitted : allowed before operation)
      (performed : operation.perform config before = some after)
      : ReachableWhere config allowed after

/-- The states that any operations reach. -/
def Reachable (config : ServiceConfig) : VectorService → Prop :=
  ReachableWhere config fun _ _ => True

variable {config : ServiceConfig} {service : VectorService}

variable {allowed : VectorService → Operation → Prop} {property : VectorService → Prop}

/-- An invariant of every allowed operation holds in every reachable state. -/
theorem ReachableWhere.invariant (blank : ∀ graph sql, property (.blank graph sql))
    (step : ∀ before operation after, property before → allowed before operation
      → operation.perform config before = some after → property after)
    (reachable : ReachableWhere config allowed service)
    : property service := by
  induction reachable with
  | blank graph sql => exact blank graph sql
  | step _ permitted performed ih => exact step _ _ _ ih permitted performed

namespace IdMapping

section
variable (mapping : IdMapping)

/-- The payload of an id has the id and flags of its entry, and only an undeleted id has a text. -/
structure Consistent : Prop where
  rows : ∀ externalId : String, mapping.vectors[externalId]?.map (fun stored =>
        (stored.externalId, stored.internalId, stored.deleted))
      = mapping.entries[externalId]?.map fun entry =>
        (externalId, entry.internalId, entry.deleted)
  texts : ∀ (externalId text : String), mapping.texts[externalId]? = some text
    → (mapping.getInternalId externalId).isSome ∧ text ≠ ""

theorem consistent_empty : empty.Consistent where
  rows := by simp [empty]
  texts := by simp [empty]

variable (externalId : String)

variable (other : String)

theorem get_upserted (internalId : Nat) (vector : List Score) (metadata : List UInt8)
    (text : Option String)
    : (mapping.upserted externalId internalId vector metadata text).get other
      = if externalId = other then some ⟨internalId, false⟩ else mapping.get other :=
  lookup_insert ..

theorem getInternalId_upserted (internalId : Nat) (vector : List Score) (metadata : List UInt8)
    (text : Option String)
    : (mapping.upserted externalId internalId vector metadata text).getInternalId other
      = if externalId = other then some internalId else mapping.getInternalId other := by
  unfold getInternalId
  rw [get_upserted]
  by_cases same : externalId = other <;> simp [same]

theorem get_tombstoned (entry : IdMappingEntry)
    : (mapping.tombstoned externalId entry).get other
      = if externalId = other then some { entry with deleted := true }
        else mapping.get other :=
  lookup_insert ..

theorem getInternalId_tombstoned (entry : IdMappingEntry)
    : (mapping.tombstoned externalId entry).getInternalId other
      = if externalId = other then none else mapping.getInternalId other := by
  unfold getInternalId
  rw [get_tombstoned]
  by_cases same : externalId = other <;> simp [same]

end

theorem text_upserted {mapping : IdMapping} {externalId other : String} {internalId : Nat}
    {vector : List Score} {metadata : List UInt8} {text} {found : String}
    (held : (mapping.upserted externalId internalId vector metadata text).texts[other]?
      = some found)
    : (externalId = other ∧ text = some found ∧ found ≠ "")
      ∨ mapping.texts[other]? = some found := by
  simp only [upserted] at held
  split at held
  · exact .inr held
  · rw [lookup_erase] at held
    split at held
    · cases held
    · exact .inr held
  · next written nonempty =>
      rw [lookup_insert] at held
      split at held
      · next same =>
          cases held
          exact .inl ⟨same, rfl, fun blank => nonempty (by rw [blank])⟩
      · exact .inr held

namespace Consistent

variable {mapping : IdMapping} (consistent : mapping.Consistent)
include consistent

theorem upserted (externalId : String) (internalId : Nat)
    (vector : List Score) (metadata : List UInt8) (text : Option String)
    : (mapping.upserted externalId internalId vector metadata text).Consistent where
  rows := by
    intro other
    simp only [IdMapping.upserted, lookup_insert]
    split
    · next same => simp [same]
    · exact consistent.rows other
  texts := by
    intro other found held
    rw [getInternalId_upserted]
    rcases text_upserted held with ⟨same, _, nonempty⟩ | earlier
    · rw [if_pos same]
      exact ⟨rfl, nonempty⟩
    · split
      · exact ⟨rfl, (consistent.texts other found earlier).2⟩
      · exact consistent.texts other found earlier

variable {externalId : String}

theorem tombstoned {entry} (held : mapping.get externalId = some entry)
    : (mapping.tombstoned externalId entry).Consistent where
  rows := by
    intro other
    have own := consistent.rows externalId
    have rest := consistent.rows other
    unfold get at held
    rw [held] at own
    obtain ⟨stored, payload, same⟩ := Option.map_eq_some_iff.mp own
    simp only [IdMapping.tombstoned, payload, lookup_insert]
    split
    · next equal => simp_all
    · exact rest
  texts := by
    intro other found present
    simp only [IdMapping.tombstoned, lookup_erase] at present
    rw [getInternalId_tombstoned]
    split at present
    · cases present
    · next different => rw [if_neg different]; exact consistent.texts other found present

theorem payload {internalId : Nat} (live : mapping.getInternalId externalId = some internalId)
    : ∃ stored, mapping.vectors[externalId]? = some stored
      ∧ stored.externalId = externalId ∧ stored.internalId = internalId
      ∧ stored.deleted = false := by
  have own := consistent.rows externalId
  have entry := getInternalId_eq_some.mp live
  unfold get at entry
  rw [entry] at own
  obtain ⟨stored, found, same⟩ := Option.map_eq_some_iff.mp own
  simp only [Prod.mk.injEq] at same
  exact ⟨stored, found, same.1, same.2.1, same.2.2⟩

variable {stored : StoredVectorEntry}

theorem entry (found : mapping.vectors[externalId]? = some stored)
    : stored.externalId = externalId
      ∧ mapping.get externalId = some ⟨stored.internalId, stored.deleted⟩ := by
  have own := consistent.rows externalId
  rw [found] at own
  obtain ⟨entry, present, same⟩ := Option.map_eq_some_iff.mp own.symm
  obtain ⟨internalId, deleted⟩ := entry
  simp only [Prod.mk.injEq] at same
  refine ⟨same.1.symm, ?_⟩
  unfold get
  rw [present, same.2.1, same.2.2]

theorem getVector_eq (kept : mapping.isDeleted externalId = false)
    : mapping.getVector externalId = mapping.getVectorIncludingDeleted externalId := by
  unfold getVector getVectorIncludingDeleted
  cases found : mapping.vectors[externalId]? with
  | none => simp
  | some stored =>
    obtain ⟨_, entry⟩ := consistent.entry found
    have live : stored.deleted = false := by simpa [isDeleted, entry] using kept
    simp [getInternalId, entry, live]

theorem isSome_getVector (live : (mapping.getInternalId externalId).isSome = true)
    : (mapping.getVector externalId).isSome = true := by
  obtain ⟨internalId, found⟩ := Option.isSome_iff_exists.mp live
  obtain ⟨stored, payload, _, _, kept⟩ := consistent.payload found
  simp [getVector, found, payload, kept]

theorem mem_loadActiveVectors
    : stored ∈ mapping.loadActiveVectors
      ↔ mapping.vectors[stored.externalId]? = some stored ∧ stored.deleted = false := by
  simp only [loadActiveVectors, List.mem_filter, List.mem_map, Bool.and_eq_true, Bool.not_eq_true']
  constructor
  · rintro ⟨⟨⟨id, row⟩, member, rfl⟩, live, _⟩
    have found := Std.ExtTreeMap.mem_toList_iff_getElem?_eq_some.mp member
    obtain ⟨same, _⟩ := consistent.entry found
    exact ⟨by rw [same]; exact found, live⟩
  · rintro ⟨found, live⟩
    refine ⟨⟨(stored.externalId, stored),
      Std.ExtTreeMap.mem_toList_iff_getElem?_eq_some.mpr found, rfl⟩, live, ?_⟩
    have entry := (consistent.entry found).2
    rw [live] at entry
    rw [getInternalId_eq_some.mpr entry]
    rfl

end Consistent

end IdMapping

namespace VectorService

/-- Two states with the same index and the same mapping. -/
structure SameCore (left right : VectorService) : Prop where
  index : left.index = right.index
  idMapping : left.idMapping = right.idMapping

def mirrored (service : VectorService) (id : String) : Bool :=
  service.metadataSqlIndex.any (·.contains id)

/-- Nothing but the graph and the row of the id in the mirror has changed. -/
structure Reprojected (id : String) (before after : VectorService) : Prop
    extends SameCore after before where
  lexical : after.lexical = before.lexical
  documents : after.documents = before.documents
  mirror : ∀ other, other ≠ id → after.mirrored other = before.mirrored other

/-- The texts after a write; an update has none. -/
def syncText (config : ServiceConfig) (write : PendingWrite) (service : VectorService)
    : VectorService :=
  match write.text with
  | some text => service.syncSourceText config write.id text
  | none => service

section Outcomes

variable (config : ServiceConfig) (faults : WriteFaults)

/-- After the durable batch: an answered write has projected its vector, a failed one has not. -/
structure Finished (write : PendingWrite) (internalId : Nat) (before : VectorService)
    (outcome : Except Status Nat × VectorService) : Prop where
  reprojected : Reprojected write.id
    ((before.removeReplaced faults write internalId).syncText config write) outcome.2
  graph : (outcome.1 = .ok internalId
      ∧ indexGraphChunk config.codec before.graphIndex faults.graph write.id write.metadata
        write.oldMetadata = .ok outcome.2.graphIndex)
    ∨ ((∃ status, outcome.1 = .error status) ∧ outcome.2.graphIndex = before.graphIndex)

/-- A write leaves a failed insertion, a compensated one, or the steps after the batch. -/
inductive Written (write : PendingWrite) (service : VectorService)
    : Except Status Nat × VectorService → Prop where
  | refused {error : AkiDbError} {index : HnswIndex}
      (inserted : service.index.insert config.hnsw faults.usearch write.id write.vector
        = (.error error, index))
      : Written write service (.error (toStatus error), { service with index := index })
  | undone {internalId : Nat} {index : HnswIndex} {status : Status}
      (kind : HnswIndex.Insertion config.hnsw faults.usearch service.index write.id
        write.vector (.ok internalId) index)
      : Written write service (.error status,
          { service with index := (index.delete internalId faults.rollback).2 })
  | stored {internalId : Nat} {index : HnswIndex} {outcome : Except Status Nat × VectorService}
      (kind : HnswIndex.Insertion config.hnsw faults.usearch service.index write.id
        write.vector (.ok internalId) index)
      (finished : Finished config faults write internalId
        { service with
          index := index
          idMapping := service.idMapping.upserted write.id internalId write.vector
            write.metadata write.text } outcome)
      : Written write service outcome

/-- A deletion ends before the tombstone, finds no undeleted entry, fails in the index, or is
done. -/
inductive Deleted (id : String) (metadata : Option (List UInt8)) (service : VectorService)
    : Except Status DeleteStatus × VectorService → Prop where
  | refused {status : Status}
      (failed : service.unprojectGraph config faults id metadata = .error status)
      : Deleted id metadata service (.error status, service)
  | unmarked {status : Status} {cleaned : VectorService}
      (unprojected : service.unprojectGraph config faults id metadata = .ok cleaned)
      : Deleted id metadata service (.error status, cleaned)
  | absent {status : DeleteStatus} {cleaned : VectorService}
      (unprojected : service.unprojectGraph config faults id metadata = .ok cleaned)
      (gone : cleaned.idMapping.getInternalId id = none)
      : Deleted id metadata service (.ok status, cleaned)
  | tombstoned {status : Status} {cleaned : VectorService} {internalId : Nat}
      (fails : faults.deletion ≠ none)
      (unprojected : service.unprojectGraph config faults id metadata = .ok cleaned)
      (live : cleaned.idMapping.getInternalId id = some internalId)
      : Deleted id metadata service (.error status,
          { cleaned with idMapping := cleaned.idMapping.tombstoned id ⟨internalId, false⟩ })
  | dropped {cleaned : VectorService} {internalId : Nat}
      (unprojected : service.unprojectGraph config faults id metadata = .ok cleaned)
      (live : cleaned.idMapping.getInternalId id = some internalId)
      : Deleted id metadata service (.ok .deleted, ((({ cleaned with
            idMapping := cleaned.idMapping.tombstoned id ⟨internalId, false⟩ }
              : VectorService).deleteQuietly none internalId).dropLexical id
                |>.dropDocuments id).deleteSqlMetadata faults id)

end Outcomes

section Steps

variable {config : ServiceConfig} {service next : VectorService} {faults : WriteFaults}
  {write : PendingWrite} {internalId : Nat} {id : String}

theorem Reprojected.trans {before middle after} (left : Reprojected id before middle)
    (right : Reprojected id middle after)
    : Reprojected id before after where
  index := right.index.trans left.index
  idMapping := right.idMapping.trans left.idMapping
  lexical := right.lexical.trans left.lexical
  documents := right.documents.trans left.documents
  mirror other different := (right.mirror other different).trans (left.mirror other different)

theorem Reprojected.graph {graph}
    : Reprojected id service { service with graphIndex := graph } :=
  ⟨⟨rfl, rfl⟩, rfl, rfl, fun _ _ => rfl⟩

theorem Reprojected.projectGraph (projected : service.projectGraph config faults write = .ok next)
    : Reprojected id service next := by
  obtain ⟨graph, _, rfl⟩ := map_eq_ok.mp (mapError_eq_ok.mp projected)
  exact .graph

variable {metadata : Option (List UInt8)}

theorem graph_of_unprojectGraph
    (unprojected : service.unprojectGraph config faults id metadata = .ok next)
    : ∃ graph, next = { service with graphIndex := graph } := by
  cases metadata with
  | none =>
    cases unprojected
    exact ⟨_, rfl⟩
  | some metadata =>
    obtain ⟨graph, _, rfl⟩ := map_eq_ok.mp (mapError_eq_ok.mp unprojected)
    exact ⟨graph, rfl⟩

theorem Reprojected.unprojectGraph {other}
    (unprojected : service.unprojectGraph config faults id metadata = .ok next)
    : Reprojected other service next := by
  obtain ⟨graph, rfl⟩ := graph_of_unprojectGraph unprojected
  exact .graph

theorem Reprojected.indexSqlMetadata
    : Reprojected write.id service (service.indexSqlMetadata config faults write internalId)
      ∧ (service.indexSqlMetadata config faults write internalId).graphIndex
        = service.graphIndex := by
  unfold VectorService.indexSqlMetadata
  split
  · exact ⟨.graph, rfl⟩
  · refine ⟨⟨⟨rfl, rfl⟩, rfl, rfl, fun other different => ?_⟩, rfl⟩
    unfold mirrored
    cases service.metadataSqlIndex <;>
      simp [Std.ExtTreeMap.contains_insert, Ne.symm different]

theorem Reprojected.deleteSqlMetadata
    : Reprojected id service (service.deleteSqlMetadata faults id)
      ∧ (service.deleteSqlMetadata faults id).graphIndex = service.graphIndex := by
  unfold VectorService.deleteSqlMetadata
  split
  · exact ⟨.graph, rfl⟩
  · refine ⟨⟨⟨rfl, rfl⟩, rfl, rfl, fun other different => ?_⟩, rfl⟩
    unfold mirrored
    cases service.metadataSqlIndex <;>
      simp [Std.ExtTreeMap.contains_erase, Ne.symm different]

theorem removeReplaced_cases
    : service.removeReplaced faults write internalId = service
      ∨ ∃ oldId, write.oldInternalId = some oldId
        ∧ service.removeReplaced faults write internalId
          = service.deleteQuietly faults.deletion oldId := by
  unfold removeReplaced
  cases write.oldInternalId with
  | none => exact .inl rfl
  | some oldId =>
    dsimp only
    split
    · exact .inr ⟨oldId, rfl, rfl⟩
    · exact .inl rfl

theorem idMapping_removeReplaced
    : ((service.removeReplaced faults write internalId).syncText config write).idMapping
        = service.idMapping
      ∧ ((service.removeReplaced faults write internalId).syncText config write).graphIndex
        = service.graphIndex := by
  unfold syncText
  rcases @removeReplaced_cases service faults write internalId with same | ⟨oldId, _, same⟩ <;>
    rw [same] <;> split <;> exact ⟨rfl, rfl⟩

theorem sameCore_syncText : SameCore (service.syncText config write) service := by
  unfold syncText
  split <;> exact ⟨rfl, rfl⟩

theorem finished_finishWrite
    : Finished config faults write internalId service
        (service.finishWrite config faults write internalId) := by
  have graph := (@idMapping_removeReplaced config service faults write internalId).2
  unfold finishWrite
  cases written : write.text with
  | some text =>
    have synced : (service.removeReplaced faults write internalId).syncText config write
        = (service.removeReplaced faults write internalId).syncSourceText config write.id
          text := by
      simp only [syncText, written]
    dsimp only
    rw [← synced]
    split
    · exact ⟨.graph, .inr ⟨⟨_, rfl⟩, graph⟩⟩
    · next next projected =>
        obtain ⟨mirrored, kept⟩ :=
          @Reprojected.indexSqlMetadata config next faults write internalId
        refine ⟨(Reprojected.projectGraph projected).trans mirrored, .inl ⟨rfl, ?_⟩⟩
        obtain ⟨projection, indexed, rfl⟩ := map_eq_ok.mp (mapError_eq_ok.mp projected)
        rw [kept, ← graph, indexed]
  | none =>
    have synced : (service.removeReplaced faults write internalId).syncText config write
        = service.removeReplaced faults write internalId := by
      simp only [syncText, written]
    dsimp only
    rw [← synced]
    obtain ⟨mirrored, kept⟩ := @Reprojected.indexSqlMetadata config
      ((service.removeReplaced faults write internalId).syncText config write) faults write
      internalId
    split
    · exact ⟨mirrored, .inr ⟨⟨_, rfl⟩, kept.trans graph⟩⟩
    · next next projected =>
        refine ⟨mirrored.trans (.projectGraph projected), .inl ⟨rfl, ?_⟩⟩
        obtain ⟨projection, indexed, rfl⟩ := map_eq_ok.mp (mapError_eq_ok.mp projected)
        rw [← graph, ← kept, indexed]

theorem written_writeVector (config : ServiceConfig) (faults : WriteFaults)
    (write : PendingWrite) (service : VectorService)
    : Written config faults write service (service.writeVector config faults write) := by
  have kind := service.index.insertion config.hnsw faults.usearch write.id write.vector
  unfold writeVector insertIndex
  generalize inserted : service.index.insert config.hnsw faults.usearch write.id write.vector
    = outcome at kind ⊢
  obtain ⟨answer, index⟩ := outcome
  cases answer with
  | error error => exact .refused inserted
  | ok internalId =>
    dsimp only
    split
    · exact .undone kind
    · next persisted =>
        obtain ⟨mapping, accepted, rfl⟩ := map_eq_ok.mp persisted
        obtain ⟨_, _, rfl⟩ := upsertWithVectorAndText_eq_ok.mp accepted
        exact .stored kind finished_finishWrite

theorem deleted_deleteVector (config : ServiceConfig) (faults : WriteFaults) (id : String)
    (metadata : Option (List UInt8)) (service : VectorService)
    : Deleted config faults id metadata service
        (service.deleteVector config faults id metadata) := by
  unfold deleteVector
  cases unprojected : service.unprojectGraph config faults id metadata with
  | error => exact .refused unprojected
  | ok cleaned =>
    dsimp only
    cases marked : cleaned.markDeleted faults id with
    | error => exact .unmarked unprojected
    | ok outcome =>
      obtain ⟨⟨found, mapping⟩, accepted, rfl⟩ := map_eq_ok.mp marked
      rcases markDeleted_eq_ok.mp accepted with
        ⟨gone, rfl, rfl⟩ | ⟨internalId, live, _, rfl, rfl⟩
      · exact .absent unprojected gone
      · dsimp only [deleteIndex]
        cases fault : faults.deletion with
        | some => exact .tombstoned (by simp [fault]) unprojected live
        | none => exact .dropped unprojected live

end Steps

/-! The invariant of the service -/

/-- Index and mapping are sound and the internal ids of undeleted vectors are allocated. -/
structure Coherent (service : VectorService) : Prop where
  wellFormed : service.index.WellFormed
  consistent : service.idMapping.Consistent
  allocated : ∀ id internalId, service.idMapping.getInternalId id = some internalId
    → internalId < service.index.nextId

theorem Coherent.of_sameCore {service other} (coherent : service.Coherent)
    (same : SameCore other service) : other.Coherent where
  wellFormed := same.index ▸ coherent.wellFormed
  consistent := same.idMapping ▸ coherent.consistent
  allocated := by
    rw [same.index, same.idMapping]
    exact coherent.allocated

theorem coherent_blank (graph sql : Bool) : (blank graph sql).Coherent where
  wellFormed := HnswIndex.wellFormed_empty
  consistent := consistent_empty
  allocated := by simp [blank, IdMapping.empty, IdMapping.getInternalId, IdMapping.get]

section Coherence

variable {config : ServiceConfig} {service next : VectorService} {faults : WriteFaults}
  {write : PendingWrite} {internalId : Nat} (coherent : service.Coherent)
include coherent

theorem Coherent.insertion {id vector answer index}
    (kind : HnswIndex.Insertion config.hnsw faults.usearch service.index id vector answer index)
    : ({ service with index := index } : VectorService).Coherent := by
  refine ⟨coherent.wellFormed.insertion kind, coherent.consistent, fun id internalId live => ?_⟩
  exact Nat.lt_of_lt_of_le (coherent.allocated id internalId live)
    (coherent.wellFormed.nextId_of_insertion kind).1

theorem Coherent.upserted (allocated : internalId < service.index.nextId) (write : PendingWrite)
    : ({ service with
        idMapping := service.idMapping.upserted write.id internalId write.vector
          write.metadata write.text } : VectorService).Coherent := by
  refine ⟨coherent.wellFormed, coherent.consistent.upserted .., ?_⟩
  intro id held live
  rw [getInternalId_upserted] at live
  split at live
  · cases live
    exact allocated
  · exact coherent.allocated id held live

theorem Coherent.deleteQuietly
    (allocated : internalId < service.index.nextId) (fault : Option AkiDbError)
    : (service.deleteQuietly fault internalId).Coherent := by
  refine ⟨coherent.wellFormed.delete allocated fault, coherent.consistent, ?_⟩
  intro id held live
  have kept := coherent.allocated id held live
  cases fault <;> exact kept

theorem Coherent.removeReplaced
    (replaced : ∀ oldId, write.oldInternalId = some oldId → oldId < service.index.nextId)
    : (service.removeReplaced faults write internalId).Coherent := by
  rcases @removeReplaced_cases service faults write internalId with same | ⟨oldId, old, same⟩
  · rwa [same]
  · rw [same]
    exact coherent.deleteQuietly (replaced oldId old) _

theorem Coherent.tombstoned {id} (live : service.idMapping.getInternalId id = some internalId)
    : ({ service with idMapping := service.idMapping.tombstoned id ⟨internalId, false⟩ }
      : VectorService).Coherent := by
  refine ⟨coherent.wellFormed,
    coherent.consistent.tombstoned (getInternalId_eq_some.mp live), ?_⟩
  intro other held found
  rw [getInternalId_tombstoned] at found
  split at found
  · cases found
  · exact coherent.allocated other held found

theorem Coherent.writeVector
    (replaced : ∀ oldId, write.oldInternalId = some oldId → oldId < service.index.nextId)
    : (service.writeVector config faults write).2.Coherent := by
  have written := written_writeVector config faults write service
  generalize service.writeVector config faults write = outcome at written ⊢
  cases written with
  | refused inserted =>
    have kind := service.index.insertion config.hnsw faults.usearch write.id write.vector
    rw [inserted] at kind
    exact coherent.insertion kind
  | undone kind =>
    have allocated := (coherent.wellFormed.nextId_of_insertion kind).2 _ rfl
    exact (coherent.insertion kind).deleteQuietly allocated _
  | stored kind finished =>
    obtain ⟨grown, allocated⟩ := coherent.wellFormed.nextId_of_insertion kind
    have persisted := (coherent.insertion kind).upserted (allocated _ rfl) write
    refine ((persisted.removeReplaced fun oldId old => ?_).of_sameCore
      sameCore_syncText).of_sameCore finished.reprojected.toSameCore
    exact Nat.lt_of_lt_of_le (replaced oldId old) grown

theorem Coherent.deleteVector (id : String) (metadata : Option (List UInt8))
    : (service.deleteVector config faults id metadata).2.Coherent := by
  have cleans : ∀ cleaned, service.unprojectGraph config faults id metadata = .ok cleaned
      → cleaned.Coherent := fun cleaned unprojected =>
    coherent.of_sameCore
      (Reprojected.unprojectGraph unprojected : service.Reprojected id cleaned).toSameCore
  have deleted := deleted_deleteVector config faults id metadata service
  generalize service.deleteVector config faults id metadata = outcome at deleted ⊢
  cases deleted with
  | refused => exact coherent
  | unmarked unprojected | absent unprojected => exact cleans _ unprojected
  | tombstoned _ unprojected live => exact (cleans _ unprojected).tombstoned live
  | dropped unprojected live =>
    have cleaned := cleans _ unprojected
    have hidden := (cleaned.tombstoned live).deleteQuietly (cleaned.allocated _ _ live) none
    refine Coherent.of_sameCore ?_ Reprojected.deleteSqlMetadata.1.toSameCore
    exact hidden.of_sameCore ⟨rfl, rfl⟩

end Coherence

section Requests

variable {config : ServiceConfig} {ctx : AuthContext} {faults : WriteFaults}
  {service : VectorService} {write : PendingWrite}

/-- A write that was admitted for an id knows what the mapping holds of it. -/
structure Admitted (service : VectorService) (write : PendingWrite) : Prop where
  oldInternalId : write.oldInternalId = service.idMapping.getInternalId write.id
  oldMetadata : write.oldMetadata = (service.idMapping.getVector write.id).map (·.metadata)
  live : write.text.isSome → service.idMapping.isDeleted write.id = false

variable {vector : List Score} {stamped : List UInt8}

theorem admitted_insert (consistent : service.idMapping.Consistent) {id text}
    (accepted : service.admitInsert config ctx faults id vector stamped text = .ok write)
    : Admitted service write ∧ write.id = id ∧ write.vector = vector
      ∧ write.metadata = stamped ∧ write.text = some text := by
  simp only [admitInsert, ensureInsertDoesNotCrossWorkspace, bind_eq_ok, pure_eq_ok]
    at accepted
  obtain ⟨_, _, _, ⟨_, _, rfl⟩, _, live, rfl⟩ := accepted
  have kept : service.idMapping.isDeleted id = false := by
    simpa using rejectIf_eq_ok.mp live
  exact ⟨⟨rfl, by rw [consistent.getVector_eq kept], fun _ => kept⟩, rfl, rfl, rfl, rfl⟩

theorem admitted_update {id}
    (accepted : service.admitUpdate config ctx faults id vector stamped = .ok write)
    : Admitted service write ∧ write.id = id ∧ write.vector = vector
      ∧ write.metadata = stamped ∧ write.text = none := by
  simp only [admitUpdate, ensureExistingVectorAccess, bind_eq_ok, pure_eq_ok] at accepted
  obtain ⟨_, _, _, _, rfl⟩ := accepted
  exact ⟨⟨rfl, rfl, by simp⟩, rfl, rfl, rfl, rfl⟩

theorem Coherent.admitted (coherent : service.Coherent) (admitted : Admitted service write)
    : (service.writeVector config faults write).2.Coherent :=
  coherent.writeVector fun oldId old =>
    coherent.allocated write.id oldId (admitted.oldInternalId ▸ old)

end Requests

end VectorService

/-- What is left to do for a request after its checks. -/
inductive Admission where
  | write (pending : PendingWrite)
  | deletion (id : String) (metadata : Option (List UInt8))

def Request.accepts (config : ServiceConfig) (ctx : AuthContext) (faults : WriteFaults)
    (service : VectorService) : Request → Except Status Admission
  | insert request => (service.admitInsertRequest config ctx faults request).map .write
  | batchItem item => (service.admitBatchItem config ctx faults item).map .write
  | update request => (service.admitUpdateRequest config ctx faults request).map .write
  | delete request =>
    (service.admitDeleteRequest config ctx faults request).map (.deletion request.id)

def Admission.run (config : ServiceConfig) (faults : WriteFaults) (service : VectorService)
    : Admission → VectorService
  | .write pending => (service.writeVector config faults pending).2
  | deletion id metadata => (service.deleteVector config faults id metadata).2

theorem Request.perform_eq (config : ServiceConfig) (ctx : AuthContext)
    (faults : WriteFaults) (service : VectorService) (request : Request)
    : request.perform config ctx faults service
      = match request.accepts config ctx faults service with
        | .error _ => service
        | .ok admission => admission.run config faults service := by
  cases request with
  | insert request =>
    simp only [perform, accepts, insertInner]
    cases service.admitInsertRequest config ctx faults request <;> rfl
  | batchItem item =>
    simp only [perform, accepts, insertBatchItem]
    cases service.admitBatchItem config ctx faults item <;> rfl
  | update request =>
    simp only [perform, accepts, updateInner]
    cases service.admitUpdateRequest config ctx faults request <;> rfl
  | delete request =>
    simp only [perform, accepts, deleteInner]
    cases service.admitDeleteRequest config ctx faults request <;> rfl

def Admission.Sound (service : VectorService) (request : Request) : Admission → Prop
  | .write pending => VectorService.Admitted service pending ∧ pending.id = request.id
  | deletion id metadata => id = request.id
      ∧ metadata = (service.idMapping.getVectorIncludingDeleted id).map (·.metadata)

variable {request : Request}

theorem Request.admit_sound {ctx faults admission} (consistent : service.idMapping.Consistent)
    (admitted : request.accepts config ctx faults service = .ok admission)
    : admission.Sound service request := by
  cases request with
  | insert request =>
    obtain ⟨write, accepted, rfl⟩ := map_eq_ok.mp admitted
    simp only [admitInsertRequest, bind_eq_ok] at accepted
    obtain ⟨_, _, stamped, _, insert⟩ := accepted
    obtain ⟨known, same, _⟩ := admitted_insert consistent insert
    exact ⟨known, same⟩
  | batchItem item =>
    obtain ⟨write, accepted, rfl⟩ := map_eq_ok.mp admitted
    simp only [admitBatchItem, bind_eq_ok] at accepted
    obtain ⟨stamped, _, insert⟩ := accepted
    obtain ⟨known, same, _⟩ := admitted_insert consistent insert
    exact ⟨known, same⟩
  | update request =>
    obtain ⟨write, accepted, rfl⟩ := map_eq_ok.mp admitted
    simp only [admitUpdateRequest, bind_eq_ok] at accepted
    obtain ⟨_, _, stamped, _, update⟩ := accepted
    obtain ⟨known, same, _⟩ := admitted_update update
    exact ⟨known, same⟩
  | delete request =>
    obtain ⟨metadata, accepted, rfl⟩ := map_eq_ok.mp admitted
    simp only [admitDeleteRequest, admitDelete,
      ensureExistingVectorAccess, bind_eq_ok, pure_eq_ok] at accepted
    obtain ⟨_, _, _, _, _, _, _, _, rfl⟩ := accepted
    exact ⟨rfl, rfl⟩

/-- An invariant of writes and deletions is one of every request. -/
theorem Request.preserves {ctx faults} (consistent : service.idMapping.Consistent)
    (holds : property service)
    (write : ∀ write, VectorService.Admitted service write → write.id = request.id
      → request.accepts config ctx faults service = .ok (.write write)
      → property (service.writeVector config faults write).2) (deletion : ∀ metadata,
      metadata = (service.idMapping.getVectorIncludingDeleted request.id).map (·.metadata)
      → request.accepts config ctx faults service = .ok (.deletion request.id metadata)
      → property (service.deleteVector config faults request.id metadata).2)
    : property (request.perform config ctx faults service) := by
  rw [Request.perform_eq]
  cases admitted : request.accepts config ctx faults service with
  | error => exact holds
  | ok admission =>
    have sound := Request.admit_sound consistent admitted
    cases admission with
    | write pending => exact write pending sound.1 sound.2 admitted
    | deletion id metadata =>
      obtain ⟨rfl, known⟩ := sound
      exact deletion metadata known admitted

namespace VectorService

section Maintenance

variable {config : ServiceConfig} {faults : MaintenanceFaults} {service : VectorService}

theorem rebuildGraphIndex_eq
    : (service.rebuildGraphIndex config faults).2
      = { service with
          graphIndex := (service.rebuildGraphIndex config faults).2.graphIndex } := by
  unfold rebuildGraphIndex
  split <;> rfl

theorem reconcileProjections_cases (repairGraph : Bool)
    : let outcome := service.reconcileProjections config faults repairGraph
      (∃ repaired, outcome.1 = { service.projectionCounts with graphRepaired := repaired })
      ∧ (outcome.2 = service ∨ outcome.2 = (service.rebuildGraphIndex config faults).2) := by
  unfold reconcileProjections
  dsimp only
  split
  · generalize service.rebuildGraphIndex config faults = outcome
    obtain ⟨answer, next⟩ := outcome
    cases answer <;> exact ⟨⟨_, rfl⟩, .inr rfl⟩
  · exact ⟨⟨_, rfl⟩, .inl rfl⟩

theorem Reprojected.reconcileProjections (repairGraph : Bool) (id : String)
    : Reprojected id service (service.reconcileProjections config faults repairGraph).2 := by
  rcases (@reconcileProjections_cases config faults service repairGraph).2 with same | same
  · rw [same]
    exact .graph
  · rw [same, rebuildGraphIndex_eq]
    exact .graph

theorem sameCore_rebuildSqlMetadataIndex
    : SameCore (service.rebuildSqlMetadataIndex config faults) service
      ∧ (service.rebuildSqlMetadataIndex config faults).graphIndex = service.graphIndex := by
  unfold rebuildSqlMetadataIndex
  split <;> exact ⟨⟨rfl, rfl⟩, rfl⟩

variable {next : VectorService}

theorem rebuildProjections_eq_some (rebuilt : service.rebuildProjections config faults = some next)
    : ∃ projected : VectorService, next = projected.rebuildLexicalIndex config
      ∧ SameCore projected service
      ∧ (∀ id, projected.mirrored id
        = (service.rebuildSqlMetadataIndex config faults).mirrored id)
      ∧ (projected.graphIndex = service.graphIndex ∨ projected.graphIndex
        = (service.rebuildGraphIndex config faults).2.graphIndex) := by
  have mirror := @sameCore_rebuildSqlMetadataIndex config faults service
  unfold rebuildProjections at rebuilt
  dsimp only at rebuilt
  split at rebuilt
  · split at rebuilt
    · cases rebuilt
    · next outcome =>
        cases rebuilt
        have graph : ((service.rebuildSqlMetadataIndex config faults).rebuildGraphIndex config
            faults).2.graphIndex = (service.rebuildGraphIndex config faults).2.graphIndex := by
          unfold rebuildGraphIndex
          rw [mirror.2, mirror.1.idMapping]
          split
          · exact mirror.2
          · rfl
        have same := @rebuildGraphIndex_eq config faults
          (service.rebuildSqlMetadataIndex config faults)
        rw [graph, outcome] at same
        exact ⟨_, congrArg _ same, ⟨mirror.1.index, mirror.1.idMapping⟩, fun _ => rfl, .inr rfl⟩
  · cases rebuilt
    exact ⟨_, rfl, mirror.1, fun _ => rfl, .inl mirror.2⟩

variable {index : HnswIndex}

theorem reloadHnsw_cons {stored rest mapping after}
    (reloaded : reloadHnsw config faults (stored :: rest) index mapping = .ok after)
    : ∃ internalId next, HnswIndex.Insertion config.hnsw (faults.usearch stored.externalId) index
          stored.externalId stored.vector (.ok internalId) next
        ∧ mapping.isDeleted stored.externalId = false
        ∧ reloadHnsw config faults rest next (mapping.upserted stored.externalId internalId
          stored.vector stored.metadata none) = .ok after := by
  have kind := index.insertion config.hnsw (faults.usearch stored.externalId)
    stored.externalId stored.vector
  unfold reloadHnsw at reloaded
  generalize index.insert config.hnsw (faults.usearch stored.externalId)
    stored.externalId stored.vector = inserted at kind reloaded
  obtain ⟨answer, next⟩ := inserted
  cases answer with
  | error => cases reloaded
  | ok internalId =>
    dsimp only at reloaded
    split at reloaded
    · cases reloaded
    · next accepted =>
        obtain ⟨kept, _, rfl⟩ := upsertWithVectorAndText_eq_ok.mp accepted
        exact ⟨internalId, next, kind, kept, reloaded⟩

/-- While reloading, an undeleted id has an allocated internal id, or is still to be reloaded. -/
theorem reloadHnsw_sound {vectors nextIndex mapping nextMapping}
    (reloaded : reloadHnsw config faults vectors index mapping = .ok (nextIndex, nextMapping))
    (wellFormed : index.WellFormed) (consistent : mapping.Consistent)
    (allocated : ∀ id internalId, mapping.getInternalId id = some internalId
      → internalId < index.nextId ∨ ∃ stored ∈ vectors, stored.externalId = id)
    : nextIndex.WellFormed ∧ nextMapping.Consistent
      ∧ ∀ id internalId, nextMapping.getInternalId id = some internalId
        → internalId < nextIndex.nextId := by
  induction vectors generalizing index mapping with
  | nil =>
    cases reloaded
    refine ⟨wellFormed, consistent, fun id internalId live => ?_⟩
    simpa using allocated id internalId live
  | cons stored rest ih =>
    obtain ⟨internalId, index', kind, _, reloaded⟩ := reloadHnsw_cons reloaded
    obtain ⟨grown, answered⟩ := wellFormed.nextId_of_insertion kind
    refine ih reloaded (wellFormed.insertion kind) (consistent.upserted ..) ?_
    intro id held live
    rw [getInternalId_upserted] at live
    split at live
    · cases live
      exact .inl (answered _ rfl)
    · next different =>
        rcases allocated id held live with used | ⟨waiting, member, same⟩
        · exact .inl (Nat.lt_of_lt_of_le used grown)
        · rcases List.mem_cons.mp member with rfl | later
          · exact absurd same different
          · exact .inr ⟨waiting, later, same⟩

theorem restart_eq_some (started : service.restart config faults = some next)
    : reloadHnsw config faults service.idMapping.loadActiveVectors .empty service.idMapping
      = .ok (next.index, next.idMapping) := by
  unfold restart at started
  split at started
  · cases started
  · next index mapping reloaded =>
      obtain ⟨projected, rfl, core, _⟩ := rebuildProjections_eq_some started
      rw [reloaded]
      exact congrArg _ (congrArg₂ _ core.index.symm core.idMapping.symm)

theorem Coherent.restart (coherent : service.Coherent)
    (started : service.restart config faults = some next) : next.Coherent := by
  obtain ⟨wellFormed, consistent, allocated⟩ := reloadHnsw_sound (restart_eq_some started)
    HnswIndex.wellFormed_empty coherent.consistent fun id internalId live => by
      obtain ⟨stored, found, same, _, kept⟩ := coherent.consistent.payload live
      refine .inr ⟨stored, ?_, same⟩
      exact coherent.consistent.mem_loadActiveVectors.mpr ⟨by rw [same]; exact found, kept⟩
  exact ⟨wellFormed, consistent, allocated⟩

end Maintenance

end VectorService

/-! The invariant over runs -/

/-- Every operation keeps the invariant. -/
theorem Operation.coherent {operation : Operation} {before after} (coherent : before.Coherent)
    (performed : operation.perform config before = some after)
    : after.Coherent := by
  cases operation with
  | request ctx faults asked =>
    cases performed
    exact Request.preserves coherent.consistent coherent
      (fun write admitted _ _ => coherent.admitted admitted)
      (fun metadata _ _ => coherent.deleteVector asked.id metadata)
  | compact removeFails =>
    cases performed
    exact ⟨coherent.wellFormed.triggerRebuild removeFails, coherent.consistent, coherent.allocated⟩
  | reconcile faults repairGraph =>
    cases performed
    exact coherent.of_sameCore
      (VectorService.Reprojected.reconcileProjections repairGraph "").toSameCore
  | restart faults => exact coherent.restart performed

theorem ReachableWhere.coherent (reachable : ReachableWhere config allowed service)
    : service.Coherent :=
  reachable.invariant coherent_blank fun _ _ _ coherent _ performed =>
    Operation.coherent coherent performed

end AkiDB.Vectors
