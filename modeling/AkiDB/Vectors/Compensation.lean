import AkiDB.Vectors.Runs

/-!
What is left of a write whose durable batch fails: the compensation restores only ids not served
before.
-/

namespace AkiDB.Vectors
open AkiDB.Common AtomicBatch Checked KeyedMaps VectorService

namespace VectorService

/-- The error of the durable batch of an admitted write, if it gets that far. -/
def durableWriteError (config : ServiceConfig) (faults : WriteFaults) (write : PendingWrite)
    (service : VectorService) : Option AkiDbError :=
  match service.insertIndex config faults write with
  | (.error _, _) => none
  | (.ok internalId, indexed) => errorOf (indexed.persist faults write internalId)

/-- The error of the durable batch of an admitted deletion, if it gets that far. -/
def durableDeleteError (config : ServiceConfig) (faults : WriteFaults) (id : String)
    (metadata : Option (List UInt8)) (service : VectorService) : Option AkiDbError :=
  match service.unprojectGraph config faults id metadata with
  | .error _ => none
  | .ok cleaned => errorOf (cleaned.markDeleted faults id)

end VectorService

section
variable (config : ServiceConfig)

/-- The error of the durable batch of a request, if it gets that far. -/
def Request.durableError (ctx : AuthContext) (faults : WriteFaults)
    (service : VectorService) (request : Request) : Option AkiDbError :=
  match request.accepts config ctx faults service with
  | .error _ => none
  | .ok (.write write) => service.durableWriteError config faults write
  | .ok (.deletion id metadata) => service.durableDeleteError config faults id metadata

/-- The same ids are served with the same vectors, and the projections are the same. -/
structure ServesAsBefore (before after : VectorService) : Prop where
  index : ∀ id vector, after.index.Serves id vector ↔ before.index.Serves id vector
  lexical : after.lexical = before.lexical
  graphIndex : after.graphIndex = before.graphIndex

/-- The compensation of a write restores what was served. -/
def WriteRestores (faults : WriteFaults) (id : String)
    (vector : List Score) (service : VectorService) : Prop :=
  if faults.rollback.isSome then service.index.Serves id (config.hnsw.quantize vector)
  else ∀ served, ¬service.index.Serves id served

def DeleteRestores (id : String) (service : VectorService) : Prop :=
  ∀ graph stored, service.graphIndex = some graph
    → service.idMapping.vectors[id]? = some stored
    → graph.nodes[chunkNodeId (workspaceIdFromMetadata config.codec stored.metadata) id]?
      = none

/-- The condition, before the request, under which a failed batch changes nothing that is served. -/
def Request.Restores (faults : WriteFaults)
    (service : VectorService) : Request → Prop
  | insert request => WriteRestores config faults request.id request.vector service
  | batchItem item => WriteRestores config faults item.id item.embedding service
  | update request => WriteRestores config faults request.id request.vector service
  | delete request => DeleteRestores config request.id service

end

section Writes

variable {config : ServiceConfig} {faults : WriteFaults} {service : VectorService}
  {write : PendingWrite} {error : AkiDbError}

theorem writeVector_of_durableWriteError
    (failed : service.durableWriteError config faults write = some error)
    : ∃ internalId index,
        HnswIndex.Insertion config.hnsw faults.usearch service.index write.id write.vector
          (.ok internalId) index
        ∧ (service.writeVector config faults write).2
          = { service with index := (index.delete internalId faults.rollback).2 } := by
  have kind := service.index.insertion config.hnsw faults.usearch write.id write.vector
  unfold durableWriteError insertIndex at failed
  unfold writeVector insertIndex
  generalize service.index.insert config.hnsw faults.usearch write.id write.vector
    = inserted at kind failed ⊢
  obtain ⟨answer, index⟩ := inserted
  cases answer with
  | error => cases failed
  | ok internalId =>
    dsimp only at failed kind ⊢
    rw [errorOf_eq_some.mp failed]
    exact ⟨internalId, index, kind, rfl⟩

theorem servesAsBefore_write (wellFormed : service.index.WellFormed)
    (failed : service.durableWriteError config faults write = some error)
    : ServesAsBefore service (service.writeVector config faults write).2
      ↔ WriteRestores config faults write.id write.vector service := by
  obtain ⟨internalId, index, insertion, left⟩ := writeVector_of_durableWriteError failed
  have mapped := HnswIndex.idMapping_of_insertion insertion
  have kept := wellFormed.insertion insertion
  rw [left, WriteRestores]
  cases faults.rollback with
  | none =>
    -- the compensation removes the id from what is served
    have serving : ∀ id served, (index.delete internalId none).2.Serves id served
        ↔ id ≠ write.id ∧ service.index.Serves id served := by
      intro id served
      rw [HnswIndex.serves_delete kept mapped, HnswIndex.serves_of_insertion wellFormed insertion]
      tauto
    constructor
    · intro same served found
      exact ((serving write.id served).mp ((same.index write.id served).mpr found)).1 rfl
    · intro unserved
      refine ⟨fun id served => (serving id served).trans ⟨And.right, fun found => ⟨?_, found⟩⟩,
        rfl, rfl⟩
      rintro rfl
      exact unserved served found
  | some fault =>
    -- the new vector stays
    have serving : ∀ id served, index.Serves id served
        ↔ (id = write.id ∧ served = config.hnsw.quantize write.vector)
          ∨ (id ≠ write.id ∧ service.index.Serves id served) :=
      fun id served => HnswIndex.serves_of_insertion wellFormed insertion
    constructor
    · intro same
      exact (same.index _ _).mp ((serving _ _).mpr (.inl ⟨rfl, rfl⟩))
    · intro found
      refine ⟨fun id served => (serving id served).trans ⟨?_, fun other => ?_⟩, rfl, rfl⟩
      · rintro (⟨rfl, rfl⟩ | ⟨_, other⟩)
        · exact found
        · exact other
      · by_cases own : id = write.id
        · subst own
          exact .inl ⟨rfl, other.unique wellFormed found⟩
        · exact .inr ⟨own, other⟩

end Writes

section Deletions

variable {config : ServiceConfig} {faults : WriteFaults} {service : VectorService}
  {error : AkiDbError}

variable {id : String}

theorem getInternalId_of_markDeleted {mapping : IdMapping} {fault}
    (failed : mapping.markDeleted fault id = .error error)
    : ∃ internalId, mapping.getInternalId id = some internalId := by
  unfold IdMapping.markDeleted at failed
  cases held : mapping.get id with
  | none => simp [held] at failed
  | some entry =>
    obtain ⟨internalId, deleted⟩ := entry
    cases deleted with
    | true => simp [held] at failed
    | false => exact ⟨internalId, IdMapping.getInternalId_eq_some.mpr held⟩

variable {fault : Option GraphError}

theorem deleteNode_eq_self {graph next : GraphIndex} {nodeId : String}
    (deleted : graph.deleteNode fault nodeId = .ok next)
    : next = graph ↔ graph.nodes[nodeId]? = none := by
  unfold GraphIndex.deleteNode at deleted
  cases found : graph.nodes[nodeId]? with
  | none =>
    rw [found] at deleted
    cases deleted
    simp
  | some node =>
    rw [found] at deleted
    cases fault with
    | some => cases deleted
    | none =>
      cases deleted
      refine iff_of_false (fun same => ?_) (by simp)
      have gone : (graph.without nodeId).nodes[nodeId]? = none := by
        simp [GraphIndex.without]
      rw [same, found] at gone
      cases gone

theorem deleteGraphChunk_eq_self {codec : JsonCodec} {graph next} {metadata : List UInt8}
    (deleted : deleteGraphChunk codec graph fault id metadata = .ok next)
    : next = graph ↔ ∀ present, graph = some present
      → present.nodes[chunkNodeId (workspaceIdFromMetadata codec metadata) id]? = none := by
  cases graph with
  | none =>
    cases deleted
    simp
  | some graph =>
    obtain ⟨without, removed, rfl⟩ := map_eq_ok.mp deleted
    rw [Option.some.injEq, deleteNode_eq_self removed]
    simp

theorem servesAsBefore_delete (consistent : service.idMapping.Consistent) {metadata}
    (known : metadata = (service.idMapping.getVectorIncludingDeleted id).map (·.metadata))
    (failed : service.durableDeleteError config faults id metadata = some error)
    : ServesAsBefore service (service.deleteVector config faults id metadata).2
      ↔ DeleteRestores config id service := by
  unfold durableDeleteError at failed
  cases unprojected : service.unprojectGraph config faults id metadata with
  | error => exact absurd failed (by simp [unprojected])
  | ok cleaned =>
    rw [unprojected] at failed
    have marked := errorOf_eq_some.mp failed
    obtain ⟨graph, cleans⟩ := graph_of_unprojectGraph unprojected
    have core : cleaned.idMapping = service.idMapping := by rw [cleans]
    have left : (service.deleteVector config faults id metadata).2 = cleaned := by
      simp only [deleteVector, unprojected, marked]
    rw [left]
    -- the batch fails for an undeleted id only, so the payload is there
    obtain ⟨internalId, live⟩ : ∃ internalId,
        service.idMapping.getInternalId id = some internalId := by
      rw [← core]
      cases attempt : cleaned.idMapping.markDeleted faults.durable id with
      | error reason => exact getInternalId_of_markDeleted attempt
      | ok outcome => simp [markDeleted, attempt, Except.map] at marked
    obtain ⟨stored, payload, _⟩ := consistent.payload live
    have metadataStored : metadata = some stored.metadata := by
      rw [known, IdMapping.getVectorIncludingDeleted, payload]
      rfl
    subst metadataStored
    obtain ⟨graph', removed, rfl⟩ := map_eq_ok.mp (mapError_eq_ok.mp unprojected)
    have unchanged : ServesAsBefore service { service with graphIndex := graph' }
        ↔ graph' = service.graphIndex :=
      ⟨fun same => same.graphIndex, fun same => ⟨fun _ _ => Iff.rfl, rfl, same⟩⟩
    rw [unchanged, deleteGraphChunk_eq_self removed]
    constructor
    · intro absent graph payload' present found
      cases payload.symm.trans found
      exact absent graph present
    · intro absent graph present
      exact absent graph stored present payload

end Deletions

variable {ctx : AuthContext} {request : Request}

theorem Request.restores_of_admit {config faults service write}
    (consistent : service.idMapping.Consistent)
    (admitted : request.accepts config ctx faults service = .ok (.write write))
    : request.Restores config faults service
      = WriteRestores config faults write.id write.vector service := by
  cases request with
  | insert request =>
    obtain ⟨accepted, checked, ⟨⟩⟩ := map_eq_ok.mp admitted
    simp only [admitInsertRequest, bind_eq_ok] at checked
    obtain ⟨_, _, stamped, _, insert⟩ := checked
    obtain ⟨_, same, vector, _⟩ := admitted_insert consistent insert
    simp only [Restores, same, vector]
  | batchItem item =>
    obtain ⟨accepted, checked, ⟨⟩⟩ := map_eq_ok.mp admitted
    simp only [admitBatchItem, bind_eq_ok] at checked
    obtain ⟨stamped, _, insert⟩ := checked
    obtain ⟨_, same, vector, _⟩ := admitted_insert consistent insert
    simp only [Restores, same, vector]
  | update request =>
    obtain ⟨accepted, checked, ⟨⟩⟩ := map_eq_ok.mp admitted
    simp only [admitUpdateRequest, bind_eq_ok] at checked
    obtain ⟨_, _, stamped, _, update⟩ := checked
    obtain ⟨_, same, vector, _⟩ := admitted_update update
    simp only [Restores, same, vector]
  | delete request =>
    obtain ⟨_, _, absurdity⟩ := map_eq_ok.mp admitted
    cases absurdity

theorem Request.eq_delete_of_admit {config faults service} {id : String} {metadata}
    (admitted : request.accepts config ctx faults service = .ok (.deletion id metadata))
    : request.Restores config faults service = DeleteRestores config id service := by
  cases request with
  | delete request =>
    obtain ⟨_, _, ⟨⟩⟩ := map_eq_ok.mp admitted
    rfl
  | insert | batchItem | update =>
    obtain ⟨_, _, absurdity⟩ := map_eq_ok.mp admitted
    cases absurdity

/-- A request whose durable batch fails leaves what is served exactly when its compensation restores
it.
Witness: an admitted write is an insertion and its compensation.
-/
theorem failed_batch_restores {config : ServiceConfig} {service : VectorService}
    (reachable : Reachable config service) {ctx : AuthContext} {faults : WriteFaults}
    {request : Request} {error : AkiDbError}
    (failed : request.durableError config ctx faults service = some error)
    : ServesAsBefore service (request.perform config ctx faults service)
      ↔ request.Restores config faults service := by
  have coherent := ReachableWhere.coherent reachable
  rw [Request.perform_eq]
  unfold Request.durableError at failed
  cases admitted : request.accepts config ctx faults service with
  | error => simp [admitted] at failed
  | ok admission =>
    rw [admitted] at failed
    have sound := Request.admit_sound coherent.consistent admitted
    cases admission with
    | write write =>
      rw [Request.restores_of_admit coherent.consistent admitted]
      exact servesAsBefore_write coherent.wellFormed failed
    | deletion id metadata =>
      rw [Request.eq_delete_of_admit admitted]
      exact servesAsBefore_delete coherent.consistent sound.2 failed

def overwriteConfig : ServiceConfig :=
  .small true [.object [("workspace_id", .string "default")]]

def overwriteCaller : AuthContext := ⟨"default", none⟩

def overwriteRequest : Request :=
  .insert ⟨"c", "a", [.finite 1], [], ""⟩

def overwriteService : VectorService :=
  overwriteRequest.perform overwriteConfig overwriteCaller {} (.blank false false)

def failingBatch : WriteFaults := { durable := some (.storageError "batch") }

theorem reachable_overwriteService : Reachable overwriteConfig overwriteService :=
  @ReachableWhere.step _ _ _ _ (.request overwriteCaller {} overwriteRequest)
    (.blank false false) trivial rfl

/-- The vector is served, and tombstoned once its overwrite has failed. -/
theorem overwrite_tombstones
    : overwriteRequest.durableError overwriteConfig overwriteCaller failingBatch
        overwriteService = some (.storageError "batch")
      ∧ (overwriteService.index.reverseMapping[0]? = some "a"
        ∧ 0 ∉ overwriteService.index.tombstones
        ∧ overwriteService.index.contents[0]? = some [.finite 1])
      ∧ (overwriteRequest.perform overwriteConfig overwriteCaller failingBatch
          overwriteService).index.idMapping["a"]? = some 0
      ∧ 0 ∈ (overwriteRequest.perform overwriteConfig overwriteCaller failingBatch
          overwriteService).index.tombstones := by
  decide +kernel

/-- A failed overwrite of a stored vector removes it from what is served. -/
theorem overwrite_unserved
    : overwriteRequest.durableError overwriteConfig overwriteCaller failingBatch
        overwriteService = some (.storageError "batch")
      ∧ ¬ServesAsBefore overwriteService
        (overwriteRequest.perform overwriteConfig overwriteCaller failingBatch
          overwriteService) := by
  obtain ⟨failed, served, mapped, tombstoned⟩ := overwrite_tombstones
  refine ⟨failed, fun same => ?_⟩
  have after : Reachable overwriteConfig (overwriteRequest.perform overwriteConfig
      overwriteCaller failingBatch overwriteService) :=
    @ReachableWhere.step _ _ _ _ (.request overwriteCaller failingBatch overwriteRequest)
      reachable_overwriteService trivial rfl
  obtain ⟨internalId, found, live, _⟩ :=
    (HnswIndex.serves_iff (ReachableWhere.coherent after).wellFormed).mp
      ((same.index "a" [.finite 1]).mpr ⟨0, served⟩)
  cases mapped.symm.trans found
  exact live tombstoned

/-- The same insert into a blank service leaves nothing behind when its batch fails. -/
theorem failed_first_insert_restores
    : ServesAsBefore (.blank false false)
      (overwriteRequest.perform overwriteConfig overwriteCaller failingBatch
        (.blank false false)) := by
  have failed : overwriteRequest.durableError overwriteConfig overwriteCaller failingBatch
      (.blank false false) = some (.storageError "batch") := by decide +kernel
  refine (failed_batch_restores (.blank false false) failed).mpr ?_
  rintro served ⟨internalId, found, _⟩
  simp [blank, HnswIndex.empty] at found

end AkiDB.Vectors
