import AkiDB.Vectors.IncrementalGraph
import AkiDB.Vectors.Reconciliation

/-!
The graph along runs is the one that indexing the current metadata gives, while requests keep the
projection.
-/

namespace AkiDB.Vectors
open AkiDB.Common AtomicBatch Checked KeyedMaps List Function GraphIndex

namespace IdMapping

section
variable (mapping : IdMapping)

def liveMetadata (id : String) : Option (List UInt8) :=
  (mapping.getVector id).map (·.metadata)

theorem getVector_upserted (id other : String) (internalId : Nat)
    (vector : List Score) (metadata : List UInt8) (text : Option String)
    : (mapping.upserted id internalId vector metadata text).getVector other
      = if id = other then some ⟨id, internalId, vector, metadata, false⟩
        else mapping.getVector other := by
  unfold getVector
  rw [getInternalId_upserted]
  by_cases same : id = other
  · simp [same, upserted]
  · simp only [if_neg same, upserted, lookup_insert]

theorem liveMetadata_upserted (id : String) (internalId : Nat)
    (vector : List Score) (metadata : List UInt8) (text : Option String)
    : (mapping.upserted id internalId vector metadata text).liveMetadata
      = update mapping.liveMetadata id (some metadata) := by
  funext other
  unfold liveMetadata
  rw [getVector_upserted]
  by_cases same : id = other
  · subst same
    rw [if_pos rfl, update_self]
    rfl
  · rw [if_neg same, update_of_ne (Ne.symm same)]

theorem liveMetadata_tombstoned (id : String) (entry : IdMappingEntry)
    : (mapping.tombstoned id entry).liveMetadata
      = update mapping.liveMetadata id none := by
  funext other
  unfold liveMetadata getVector
  rw [getInternalId_tombstoned]
  by_cases same : id = other
  · subst same
    rw [if_pos rfl, update_self]
    rfl
  · rw [if_neg same, update_of_ne (Ne.symm same)]
    have row : (mapping.tombstoned id entry).vectors[other]? = mapping.vectors[other]? := by
      unfold tombstoned
      split
      · rw [lookup_insert, if_neg same]
      · rfl
    rw [row]

end

variable {mapping : IdMapping}

theorem Consistent.liveMetadata_or (consistent : mapping.Consistent) {id stored}
    (found : mapping.vectors[id]? = some stored)
    : mapping.liveMetadata id = some stored.metadata ∨ mapping.liveMetadata id = none := by
  obtain ⟨_, entry⟩ := consistent.entry found
  unfold liveMetadata getVector getInternalId
  rw [entry, found]
  cases stored.deleted <;> simp

theorem Consistent.liveMetadata_of_active (consistent : mapping.Consistent) {stored}
    (active : stored ∈ mapping.loadActiveVectors)
    : mapping.liveMetadata stored.externalId = some stored.metadata := by
  obtain ⟨found, kept⟩ := consistent.mem_loadActiveVectors.mp active
  obtain ⟨_, entry⟩ := consistent.entry found
  simp [liveMetadata, getVector, getInternalId, entry, found, kept]

theorem Consistent.active_of_liveMetadata (consistent : mapping.Consistent) {id metadata}
    (live : mapping.liveMetadata id = some metadata)
    : id ∈ mapping.loadActiveVectors.map (·.externalId) := by
  obtain ⟨stored, read, _⟩ := Option.map_eq_some_iff.mp live
  unfold getVector at read
  split at read
  · cases read
  · split at read
    · next row found =>
        split at read
        · cases read
        · next kept =>
            obtain ⟨named, _⟩ := consistent.entry found
            refine mem_map.mpr ⟨row, consistent.mem_loadActiveVectors.mpr ⟨?_, ?_⟩, named⟩
            · rw [named]; exact found
            · simpa using kept
    · cases read

end IdMapping

/-! Requests -/

/-- The request is answered without an error. -/
def Request.Succeeds (config : ServiceConfig) (ctx : AuthContext) (faults : WriteFaults)
    (service : VectorService) : Request → Prop
  | insert request => ∃ answer, (service.insertInner config ctx faults request).1 = .ok answer
  | batchItem item => ∃ answer, (service.insertBatchItem config ctx faults item).1 = .ok answer
  | update request => ∃ answer, (service.updateInner config ctx faults request).1 = .ok answer
  | delete request => ∃ answer, (service.deleteInner config ctx faults request).1 = .ok answer

/-- The condition, before a request, under which the graph stays the projection. -/
def Request.Keeps (config : ServiceConfig) (ctx : AuthContext) (faults : WriteFaults)
    (service : VectorService) (request : Request) : Prop :=
  match request.accepts config ctx faults service with
  | .ok (.write pending) =>
    WriteKeeps config.codec service.idMapping.liveMetadata pending.id pending.metadata
  | .ok (.deletion id (some metadata)) =>
    DeleteKeeps config.codec service.idMapping.liveMetadata id metadata
  | _ => True

/-- A successful request; nothing else is part of the run. -/
def Operation.Succeeds (config : ServiceConfig) (service : VectorService) : Operation → Prop
  | request ctx faults asked => asked.Succeeds config ctx faults service
  | _ => False

/-- A request that keeps the projection. -/
def Operation.Keeps (config : ServiceConfig) (service : VectorService) : Operation → Prop
  | request ctx faults asked => asked.Keeps config ctx faults service
  | _ => True

variable {config : ServiceConfig} {service : VectorService}

theorem Request.admit_of_succeeds {ctx faults} {request : Request}
    (succeeds : request.Succeeds config ctx faults service)
    : (∃ write, request.accepts config ctx faults service = .ok (.write write)
        ∧ ∃ internalId, (service.writeVector config faults write).1 = .ok internalId)
      ∨ ∃ metadata, request.accepts config ctx faults service
          = .ok (.deletion request.id metadata)
        ∧ ∃ status, (service.deleteVector config faults request.id metadata).1
          = .ok status := by
  cases request with
  | insert request =>
    obtain ⟨answer, answered⟩ := succeeds
    simp only [VectorService.insertInner, accepts] at answered ⊢
    cases checked : service.admitInsertRequest config ctx faults request with
    | error => simp [checked] at answered
    | ok write => exact .inl ⟨write, rfl, answer, by simpa [checked] using answered⟩
  | batchItem item =>
    obtain ⟨answer, answered⟩ := succeeds
    simp only [VectorService.insertBatchItem, accepts] at answered ⊢
    cases checked : service.admitBatchItem config ctx faults item with
    | error => simp [checked] at answered
    | ok write => exact .inl ⟨write, rfl, answer, by simpa [checked] using answered⟩
  | update request =>
    obtain ⟨answer, answered⟩ := succeeds
    simp only [VectorService.updateInner, accepts] at answered ⊢
    cases checked : service.admitUpdateRequest config ctx faults request with
    | error => simp [checked] at answered
    | ok write =>
      rw [checked] at answered
      obtain ⟨internalId, written, _⟩ := map_eq_ok.mp answered
      exact .inl ⟨write, rfl, internalId, written⟩
  | delete request =>
    obtain ⟨answer, answered⟩ := succeeds
    simp only [VectorService.deleteInner, accepts] at answered ⊢
    cases checked : service.admitDeleteRequest config ctx faults request with
    | error => simp [checked] at answered
    | ok metadata =>
      rw [checked] at answered
      exact .inr ⟨metadata, rfl, answer, answered⟩

namespace VectorService

variable {config : ServiceConfig} {faults : WriteFaults} {service : VectorService}

theorem liveMetadata_blank (graph sql : Bool)
    : (blank graph sql).idMapping.liveMetadata = fun _ => none := by
  funext id
  simp [blank, IdMapping.liveMetadata, IdMapping.getVector, IdMapping.getInternalId,
    IdMapping.get, IdMapping.empty]

/-- A successful write has written its rows. -/
theorem idMapping_writeVector {write} {internalId : Nat}
    (answered : (service.writeVector config faults write).1 = .ok internalId)
    : ∃ held, (service.writeVector config faults write).2.idMapping
      = service.idMapping.upserted write.id held write.vector write.metadata write.text := by
  have written := written_writeVector config faults write service
  generalize service.writeVector config faults write = outcome at written answered ⊢
  cases written with
  | refused | undone => cases answered
  | stored _ finished =>
    exact ⟨_, finished.reprojected.idMapping.trans idMapping_removeReplaced.1⟩

theorem liveMetadata_deleteVector {id metadata status}
    (answered : (service.deleteVector config faults id metadata).1 = .ok status)
    : (service.deleteVector config faults id metadata).2.idMapping.liveMetadata
        = update service.idMapping.liveMetadata id none
      ∧ ∃ cleaned, service.unprojectGraph config faults id metadata = .ok cleaned
        ∧ (service.deleteVector config faults id metadata).2.graphIndex
          = cleaned.graphIndex := by
  have deleted := deleted_deleteVector config faults id metadata service
  generalize service.deleteVector config faults id metadata = outcome at deleted answered ⊢
  cases deleted with
  | refused | unmarked | tombstoned => cases answered
  | absent unprojected gone =>
    refine ⟨?_, _, unprojected, rfl⟩
    obtain ⟨graph, rfl⟩ := graph_of_unprojectGraph unprojected
    have none : service.idMapping.liveMetadata id = none := by
      simp [IdMapping.liveMetadata, IdMapping.getVector, gone]
    rw [← none, update_eq_self]
  | dropped unprojected =>
    refine ⟨?_, _, unprojected, Reprojected.deleteSqlMetadata.2⟩
    obtain ⟨graph, rfl⟩ := graph_of_unprojectGraph unprojected
    rw [Reprojected.deleteSqlMetadata.1.idMapping]
    exact IdMapping.liveMetadata_tombstoned ..

end VectorService

/-! The graph along a run -/

/-- The live vectors are compatible, and the graph is their projection. -/
structure GraphProjects (config : ServiceConfig) (service : VectorService) : Prop where
  compatible : AllCompatible config.codec service.idMapping.liveMetadata
  projected : ∀ graph, service.graphIndex = some graph
    → Projected config.codec service.idMapping.liveMetadata graph

namespace GraphProjects

variable {config : ServiceConfig} {ctx : AuthContext} {faults : WriteFaults}
  {service : VectorService}

theorem blank (graph sql : Bool) : GraphProjects config (.blank graph sql) := by
  have none := VectorService.liveMetadata_blank graph sql
  constructor
  · rw [none]
    exact fun _ _ _ _ held => absurd held (by simp)
  · intro stored present
    rw [none]
    cases graph with
    | true => cases present; exact projected_empty
    | false => exact absurd present (by simp [VectorService.blank])

/-- A successful write that keeps the projection. -/
theorem writeVector (projects : GraphProjects config service) {write}
    (admitted : VectorService.Admitted service write)
    (keeps : WriteKeeps config.codec service.idMapping.liveMetadata write.id write.metadata)
    {internalId : Nat} (answered : (service.writeVector config faults write).1 = .ok internalId)
    : GraphProjects config (service.writeVector config faults write).2 := by
  obtain ⟨held, rows⟩ := VectorService.idMapping_writeVector answered
  rcases @VectorService.graphIndex_writeVector config faults service write with
    ⟨_, indexed⟩ | ⟨⟨status, failed⟩, _⟩
  · constructor
    · rw [rows, IdMapping.liveMetadata_upserted]
      exact projects.compatible.update keeps
    · intro graph present
      rw [rows, IdMapping.liveMetadata_upserted]
      unfold indexGraphChunk at indexed
      cases before : service.graphIndex with
      | none =>
        rw [before] at indexed
        cases (Except.ok.inj indexed).trans present
      | some stored =>
        rw [before, present] at indexed
        obtain ⟨written, accepted, same⟩ := map_eq_ok.mp indexed
        cases same
        rw [graphChunkBatch_applied accepted, admitted.oldMetadata]
        exact (projects.projected stored before).project projects.compatible keeps
  · cases answered.symm.trans failed

/-- A successful deletion that keeps the projection. -/
theorem deleteVector (projects : GraphProjects config service)
    (consistent : service.idMapping.Consistent) {id metadata}
    (known : metadata = (service.idMapping.getVectorIncludingDeleted id).map (·.metadata))
    (keeps : ∀ given, metadata = some given
      → DeleteKeeps config.codec service.idMapping.liveMetadata id given) {status}
    (answered : (service.deleteVector config faults id metadata).1 = .ok status)
    : GraphProjects config (service.deleteVector config faults id metadata).2 := by
  obtain ⟨live, cleaned, unprojected, graphs⟩ :=
    VectorService.liveMetadata_deleteVector answered
  refine ⟨by rw [live]; exact projects.compatible.erase, fun graph present => ?_⟩
  rw [live]
  rw [graphs] at present
  cases payload : service.idMapping.vectors[id]? with
  | none =>
    -- an id that was never written has no node to delete and no live metadata
    have unknown : metadata = none := by
      rw [known, IdMapping.getVectorIncludingDeleted, payload]
      rfl
    subst unknown
    cases unprojected
    have absent : service.idMapping.liveMetadata id = none := by
      simp [IdMapping.liveMetadata, IdMapping.getVector, payload]
    rw [← absent, update_eq_self]
    exact projects.projected graph present
  | some stored =>
    have given : metadata = some stored.metadata := by
      rw [known, IdMapping.getVectorIncludingDeleted, payload]
      rfl
    subst given
    obtain ⟨next, deleted, rfl⟩ := map_eq_ok.mp (mapError_eq_ok.mp unprojected)
    unfold deleteGraphChunk at deleted
    cases before : service.graphIndex with
    | none =>
      rw [before] at deleted
      cases (Except.ok.inj deleted).trans present
    | some earlier =>
      rw [before] at deleted
      obtain ⟨without, removed, same⟩ := map_eq_ok.mp deleted
      cases same.trans present
      exact (projects.projected earlier before).delete (consistent.liveMetadata_or payload)
        (keeps stored.metadata rfl) removed

/-- A successful request that keeps the projection. -/
theorem request (projects : GraphProjects config service)
    (consistent : service.idMapping.Consistent) {request : Request}
    (succeeds : request.Succeeds config ctx faults service)
    (keeps : request.Keeps config ctx faults service)
    : GraphProjects config (request.perform config ctx faults service) := by
  rw [Request.perform_eq]
  unfold Request.Keeps at keeps
  rcases Request.admit_of_succeeds succeeds with
    ⟨write, admitted, _, answered⟩ | ⟨metadata, admitted, _, answered⟩
  · have sound := Request.admit_sound consistent admitted
    rw [admitted] at keeps ⊢
    exact projects.writeVector sound.1 keeps answered
  · have sound := Request.admit_sound consistent admitted
    rw [admitted] at keeps ⊢
    refine projects.deleteVector consistent sound.2 (fun given present => ?_) answered
    subst present
    exact keeps

end GraphProjects

theorem deleteChunkNodes_empty (codec : JsonCodec) (faults : MaintenanceFaults)
    (vectors : List StoredVectorEntry)
    : deleteChunkNodes codec faults vectors .empty = (.ok (), .empty) := by
  induction vectors with
  | nil => rfl
  | cons stored rest ih =>
    unfold deleteChunkNodes
    have absent : empty.deleteNode (faults.nodeDeletion stored.externalId)
        (chunkNodeId (workspaceIdFromMetadata codec stored.metadata) stored.externalId)
        = .ok .empty := by
      simp [deleteNode, empty]
    rw [absent]
    exact ih

theorem ReachableWhere.graphProjects (reachable : ReachableWhere config
      (fun before operation => operation.Succeeds config before ∧ operation.Keeps config before)
      service)
    : GraphProjects config service := by
  induction reachable with
  | blank graph sql => exact .blank graph sql
  | @step before after operation earlier permitted performed ih =>
    obtain ⟨succeeds, keeps⟩ := permitted
    cases operation with
    | request ctx faults request =>
      cases performed
      exact ih.request earlier.coherent.consistent succeeds keeps
    | compact => exact succeeds.elim
    | reconcile => exact succeeds.elim
    | restart => exact succeeds.elim

/-- In every run of successful requests that keep the projection, the graph is what a rebuild gives,
in any order.
Witness: both are the graph of the live vectors.
-/
theorem graph_is_rebuilt {config : ServiceConfig} {service : VectorService}
    (reachable : ReachableWhere config
      (fun before operation => operation.Succeeds config before ∧ operation.Keeps config before)
      service)
    {graph : GraphIndex} (present : service.graphIndex = some graph)
    {order : List StoredVectorEntry} (listed : order.Perm service.idMapping.loadActiveVectors)
    : rebuildGraph config.codec {} order .empty = (.ok order.length, graph) := by
  have consistent := reachable.coherent.consistent
  have projects := reachable.graphProjects
  have distinct : (order.map (·.externalId)).Nodup :=
    (listed.map _).nodup_iff.mpr consistent.distinct_loadActiveVectors
  obtain ⟨next, indexed, after, rebuilt, same⟩ := indexChunks_projected projects.compatible
    distinct (fun stored member =>
      consistent.liveMetadata_of_active (listed.mem_iff.mp member))
    (by simp) (fun _ _ => rfl) projected_empty
  have whole : after = service.idMapping.liveMetadata := by
    funext id
    rw [same]
    split
    · rfl
    · next unlisted =>
        symm
        by_contra live
        obtain ⟨metadata, held⟩ := Option.ne_none_iff_exists'.mp live
        exact unlisted ((listed.map _).mem_iff.mpr (consistent.active_of_liveMetadata held))
  subst whole
  rw [rebuildGraph, deleteChunkNodes_empty]
  dsimp only
  rw [indexed, rebuilt.unique (projects.projected graph present)]

/-! Samples -/

theorem WriteKeeps.of_no_references {codec} {live : String → Option (List UInt8)} {id metadata}
    (new : live id = none) (none : references codec id metadata = [])
    : WriteKeeps codec live id metadata := by
  refine ⟨fun other given _ _ => ⟨fun place => .inl ?_, ?_⟩, ?_, ?_⟩
  · simp [projectedEdges, projectionEdges, none, edgesById]
  · intro place node _ found _ foreign
    refine absurd ?_ foreign
    have single : projectionNodes codec id metadata = [ownNode codec id metadata] := by
      rw [projectionNodes_eq, referredNodes, none]
      rfl
    rw [projectedNodes, single] at found
    simp only [mergeNodes, foldl_cons, foldl_nil, mergeNode,
      lookup_empty, lookup_insert, id_ownNode] at found
    by_contra other
    rw [if_neg (Ne.symm other)] at found
    cases found
  · exact fun old held => absurd (new.symm.trans held) (by simp)
  · exact fun old _ _ held => absurd (new.symm.trans held) (by simp)

theorem Request.keeps_insert {ctx faults request}
    (writes : ∀ write, service.admitInsertRequest config ctx faults request = .ok write
      → WriteKeeps config.codec service.idMapping.liveMetadata write.id write.metadata)
    : (Request.insert request).Keeps config ctx faults service := by
  unfold Request.Keeps Request.accepts
  dsimp only
  cases admitted : service.admitInsertRequest config ctx faults request with
  | error => trivial
  | ok write => exact writes write admitted

def reunitedService : VectorService :=
  parentRequest.perform parentConfig parentCaller {} childService

/-- The graph of a child and its parent does not depend on the order of their insertion. -/
theorem reunited_graph_rebuilt
    : ∃ graph, reunitedService.graphIndex = some graph
      ∧ rebuildGraph parentConfig.codec {}
          reunitedService.idMapping.loadActiveVectors.reverse .empty
        = (.ok reunitedService.idMapping.loadActiveVectors.reverse.length, graph) := by
  have child : childRequest.Keeps parentConfig parentCaller {} (.blank true false) := by
    refine Request.keeps_insert fun write _ => ?_
    rw [VectorService.liveMetadata_blank]
    exact ⟨by simp, by simp, by simp⟩
  have parent : parentRequest.Keeps parentConfig parentCaller {} childService := by
    refine Request.keeps_insert fun write admitted => ?_
    have shape : (childService.admitInsertRequest parentConfig parentCaller {}
        ⟨"c", "p", [.finite 1], [1], ""⟩).toOption.map (fun write => (write.id, write.metadata))
        = some ("p", [1]) := by decide +kernel
    rw [admitted] at shape
    obtain ⟨named, given⟩ := Prod.mk.inj (Option.some.inj shape)
    rw [named, given]
    exact .of_no_references (by decide +kernel) (List.isEmpty_iff.mp (by decide +kernel))
  have present : reunitedService.graphIndex.isSome = true := by decide +kernel
  obtain ⟨graph, held⟩ := Option.isSome_iff_exists.mp present
  refine ⟨graph, held, graph_is_rebuilt ?_ held (reverse_perm _)⟩
  exact @ReachableWhere.step _ _ _ _ (.request parentCaller {} parentRequest)
    (@ReachableWhere.step _ _ _ _ (.request parentCaller {} childRequest)
      (.blank true false) ⟨⟨0, by decide +kernel⟩, child⟩ rfl)
    ⟨⟨1, by decide +kernel⟩, parent⟩ rfl

def orphanService : VectorService :=
  Request.perform parentConfig parentCaller {} reunitedService (.delete ⟨"c", "p"⟩)

/-- After the deletion the child's node stands alone; a rebuild writes the parent's node and
edges. -/
theorem orphan_loses_reference
    : ReachableWhere parentConfig
        (fun before operation => operation.Succeeds parentConfig before) orphanService
      ∧ ∃ graph, orphanService.graphIndex = some graph
        ∧ rebuildGraph parentConfig.codec {} orphanService.idMapping.loadActiveVectors .empty
          ≠ (.ok orphanService.idMapping.loadActiveVectors.length, graph) := by
  have present : orphanService.graphIndex.isSome = true := by decide +kernel
  obtain ⟨graph, held⟩ := Option.isSome_iff_exists.mp present
  refine ⟨?_, graph, held, fun same => ?_⟩
  · exact @ReachableWhere.step _ _ _ _ (.request parentCaller {} (.delete ⟨"c", "p"⟩))
      (@ReachableWhere.step _ _ _ _ (.request parentCaller {} parentRequest)
        (@ReachableWhere.step _ _ _ _ (.request parentCaller {} childRequest)
          (.blank true false) ⟨0, by decide +kernel⟩ rfl)
        ⟨1, by decide +kernel⟩ rfl)
      ⟨.deleted, by decide +kernel⟩ rfl
  · have kept : orphanService.graphIndex.map (·.nodes.size) = some 1 := by decide +kernel
    have rebuilt : (rebuildGraph parentConfig.codec {}
        orphanService.idMapping.loadActiveVectors .empty).2.nodes.size = 2 := by decide +kernel
    rw [held] at kept
    rw [same] at rebuilt
    exact absurd (rebuilt.symm.trans (Option.some.inj kept)) (by decide)

end AkiDB.Vectors
