import AkiDB.Vectors.GraphStates

/-!
Reconciliation of the projections counts chunk nodes, and repairs those of stored vectors only.
-/

namespace AkiDB.Vectors
open AkiDB.Common AtomicBatch Checked KeyedMaps List

section Rebuilding

variable {codec : JsonCodec} {faults : MaintenanceFaults} {vectors : List StoredVectorEntry}
  {graph next : GraphIndex}

theorem kinded_deleteChunkNodes (kinded : graph.Kinded)
    : (deleteChunkNodes codec faults vectors graph).2.Kinded := by
  induction vectors generalizing graph with
  | nil => exact kinded
  | cons stored rest ih =>
    unfold deleteChunkNodes
    split
    · exact kinded
    · next deleted => exact ih (kinded.deleteNode deleted)

theorem kinded_indexChunks (kinded : graph.Kinded)
    : (indexChunks codec faults vectors graph).2.Kinded := by
  induction vectors generalizing graph with
  | nil => exact kinded
  | cons stored rest ih =>
    unfold indexChunks
    split
    · exact kinded
    · next projected => exact ih (kinded.project projected)

theorem kinded_rebuildGraph (kinded : graph.Kinded)
    : (rebuildGraph codec faults vectors graph).2.Kinded := by
  have deleted := @kinded_deleteChunkNodes codec faults vectors graph kinded
  unfold rebuildGraph
  generalize deleteChunkNodes codec faults vectors graph = outcome at deleted ⊢
  obtain ⟨answer, cleaned⟩ := outcome
  cases answer with
  | error => exact deleted
  | ok =>
    have indexed := @kinded_indexChunks codec faults vectors cleaned deleted
    dsimp only
    generalize indexChunks codec faults vectors cleaned = outcome at indexed ⊢
    obtain ⟨answer, projected⟩ := outcome
    cases answer <;> exact indexed

def chunkNodes (codec : JsonCodec) (vectors : List StoredVectorEntry) : Finset String :=
  (vectors.map (·.chunkNode codec)).toFinset

def allProjectedChunks (codec : JsonCodec) (vectors : List StoredVectorEntry)
    : Finset String :=
  (vectors.flatMap fun stored =>
    projectedChunks codec stored.externalId stored.metadata).toFinset

theorem chunkNodes_subset : chunkNodes codec vectors ⊆ allProjectedChunks codec vectors := by
  intro place member
  obtain ⟨stored, listed, rfl⟩ := mem_map.mp (mem_toFinset.mp member)
  exact mem_toFinset.mpr
    (mem_flatMap.mpr ⟨stored, listed, chunkNode_mem_projectedChunks codec stored⟩)

theorem chunkIds_deleteChunkNodes
    (deleted : deleteChunkNodes codec faults vectors graph = (.ok (), next))
    : next.chunkIds = graph.chunkIds \ chunkNodes codec vectors := by
  induction vectors generalizing graph with
  | nil =>
    cases deleted
    simp [chunkNodes]
  | cons stored rest ih =>
    unfold deleteChunkNodes at deleted
    split at deleted
    · cases deleted
    · next cleaned removed =>
        rw [ih deleted, GraphIndex.chunkIds_deleteNode removed]
        ext place
        simp only [chunkNodes, StoredVectorEntry.chunkNode, map_cons, toFinset_cons,
          Finset.mem_sdiff, Finset.mem_erase, Finset.mem_insert, not_or]
        tauto

theorem chunkIds_indexChunks (kinded : graph.Kinded)
    (indexed : indexChunks codec faults vectors graph = (.ok (), next))
    : next.chunkIds = graph.chunkIds ∪ allProjectedChunks codec vectors := by
  induction vectors generalizing graph with
  | nil =>
    cases indexed
    simp [allProjectedChunks]
  | cons stored rest ih =>
    unfold indexChunks at indexed
    split at indexed
    · cases indexed
    · next projected accepted =>
        rw [ih (kinded.project accepted) indexed, GraphIndex.chunkIds_project kinded accepted,
          allProjectedChunks, allProjectedChunks, flatMap_cons, toFinset_append,
          Finset.union_assoc]

theorem chunkIds_rebuildGraph (kinded : graph.Kinded) {count : Nat}
    (rebuilt : rebuildGraph codec faults vectors graph = (.ok count, next))
    : next.chunkIds = graph.chunkIds ∪ allProjectedChunks codec vectors := by
  have kept := @kinded_deleteChunkNodes codec faults vectors graph kinded
  unfold rebuildGraph at rebuilt
  split at rebuilt
  · cases rebuilt
  · next cleaned deleted =>
      rw [deleted] at kept
      split at rebuilt
      · cases rebuilt
      · next projected indexed =>
          cases rebuilt
          rw [chunkIds_indexChunks kept indexed, chunkIds_deleteChunkNodes deleted]
          ext place
          simp only [Finset.mem_union, Finset.mem_sdiff]
          constructor
          · rintro (⟨old, _⟩ | new)
            · exact .inl old
            · exact .inr new
          · rintro (old | new)
            · by_cases own : place ∈ chunkNodes codec vectors
              · exact .inr (chunkNodes_subset own)
              · exact .inl ⟨old, own⟩
            · exact .inr new

end Rebuilding

namespace VectorService

variable {config : ServiceConfig} {service next : VectorService}

def GraphKinded (service : VectorService) : Prop :=
  ∀ graph, service.graphIndex = some graph → graph.Kinded

theorem graphKinded_blank (graph sql : Bool) : (blank graph sql).GraphKinded := by
  intro stored present
  cases graph with
  | true => cases present; exact GraphIndex.kinded_empty
  | false => exact absurd present (by simp [blank])

theorem kinded_of_indexGraphChunk {codec graph next fault id metadata previous}
    (kinded : ∀ stored, graph = some stored → stored.Kinded)
    (indexed : indexGraphChunk codec graph fault id metadata previous = .ok next)
    : ∀ stored, next = some stored → stored.Kinded := by
  cases graph with
  | none => cases indexed; simp
  | some stored =>
    obtain ⟨written, accepted, rfl⟩ := map_eq_ok.mp indexed
    rintro _ ⟨⟩
    exact (kinded stored rfl).project accepted

section
variable (kinded : service.GraphKinded)
include kinded

theorem GraphKinded.unprojectGraph {faults id metadata}
    (unprojected : service.unprojectGraph config faults id metadata = .ok next)
    : next.GraphKinded := by
  cases metadata with
  | none => cases unprojected; exact kinded
  | some metadata =>
    obtain ⟨graph, deleted, rfl⟩ := map_eq_ok.mp (mapError_eq_ok.mp unprojected)
    unfold deleteGraphChunk at deleted
    cases present : service.graphIndex with
    | none =>
      rw [present] at deleted
      cases deleted
      exact fun _ absurdity => absurd absurdity (by simp)
    | some stored =>
      rw [present] at deleted
      obtain ⟨without, removed, rfl⟩ := map_eq_ok.mp deleted
      rintro _ ⟨⟩
      exact (kinded stored present).deleteNode removed

variable (faults : MaintenanceFaults)

theorem GraphKinded.rebuildGraphIndex
    : (service.rebuildGraphIndex config faults).2.GraphKinded := by
  unfold VectorService.rebuildGraphIndex
  split
  · exact kinded
  · next graph present =>
      rintro _ ⟨⟩
      exact kinded_rebuildGraph (kinded graph present)

theorem GraphKinded.reconcileProjections (repairGraph : Bool)
    : (service.reconcileProjections config faults repairGraph).2.GraphKinded := by
  rcases (@reconcileProjections_cases config faults service repairGraph).2 with same | same
  · rwa [same]
  · rw [same]
    exact kinded.rebuildGraphIndex faults

theorem GraphKinded.rebuildProjections {faults}
    (rebuilt : service.rebuildProjections config faults = some next)
    : next.GraphKinded := by
  obtain ⟨projected, rfl, _, _, same | same⟩ := rebuildProjections_eq_some rebuilt
  · exact fun graph present => kinded graph (same.symm.trans present)
  · exact fun graph present => kinded.rebuildGraphIndex faults graph (same.symm.trans present)

end

end VectorService

/-- In every reachable state the graph is kinded. -/
theorem ReachableWhere.graphKinded {config} {allowed : VectorService → Operation → Prop} {service}
    (reachable : ReachableWhere config allowed service) : service.GraphKinded := by
  induction reachable with
  | blank graph sql => exact VectorService.graphKinded_blank graph sql
  | @step before after operation earlier permitted performed kinded =>
    cases operation with
    | request ctx faults asked =>
      cases performed
      refine Request.preserves earlier.coherent.consistent kinded
        (fun write _ _ _ => ?_) (fun metadata _ _ => ?_)
      · rcases VectorService.graphIndex_writeVector write with ⟨_, indexed⟩ | ⟨_, same⟩
        · exact VectorService.kinded_of_indexGraphChunk kinded indexed
        · exact fun graph present => kinded graph (same.symm.trans present)
      · intro graph present
        rw [VectorService.graphIndex_deleteVector] at present
        split at present
        · next unprojected => exact kinded.unprojectGraph unprojected graph present
        · exact kinded graph present
    | compact removeFails => cases performed; exact kinded
    | reconcile faults repairGraph =>
      cases performed
      exact kinded.reconcileProjections faults repairGraph
    | restart faults =>
      change before.restart config faults = some after at performed
      unfold VectorService.restart at performed
      split at performed
      · cases performed
      · refine VectorService.GraphKinded.rebuildProjections ?_ performed
        exact kinded

theorem IdMapping.Consistent.distinct_loadActiveVectors {mapping : IdMapping}
    (consistent : mapping.Consistent)
    : (mapping.loadActiveVectors.map (·.externalId)).Nodup := by
  refine Nodup.sublist (filter_sublist.map _) (nodup_values ?_)
  exact fun id stored found => (consistent.entry found).1

namespace VectorService

/-- Index, graph and document store hold as many entries as are stored; the last is only
reported. -/
structure NoDrift (service : VectorService) (report : ReconcileReport) : Prop where
  vectors : report.hnswActive = report.durableVectors
  lexical : report.lexicalDocuments = service.liveTexts.length
  graph : report.graphChunkNodes = report.durableVectors

/-- The repair was done, or there was nothing to repair. -/
def ReconcileReport.Succeeded (report : ReconcileReport) : Prop :=
  report.graphRepaired = true ∨ report.graphChunkNodes = report.durableVectors

/-- Every chunk node, and every chunk that stored metadata names, is that of a stored vector. -/
def ChunksStored (config : ServiceConfig) (service : VectorService) (graph : GraphIndex)
    : Prop :=
  graph.chunkIds ∪ allProjectedChunks config.codec service.idMapping.loadActiveVectors
    ⊆ chunkNodes config.codec service.idMapping.loadActiveVectors

/-- The condition, before the repair, under which the check accepts the state after it. -/
structure Repairable (config : ServiceConfig) (service : VectorService) (graph : GraphIndex)
    : Prop where
  vectors : service.index.stats.activeVectors = service.idMapping.loadActiveVectors.length
  lexical : service.documents.size = service.liveTexts.length
  graph : graph.countNodesOfKind .chunk = service.idMapping.loadActiveVectors.length
    ∨ service.ChunksStored config graph

variable {service : VectorService}

theorem card_chunkNodes (codec : JsonCodec) (consistent : service.idMapping.Consistent)
    : (chunkNodes codec service.idMapping.loadActiveVectors).card
      = service.idMapping.loadActiveVectors.length := by
  have distinct := consistent.distinct_loadActiveVectors
  have nodes : (service.idMapping.loadActiveVectors.map (·.chunkNode codec)).Nodup := by
    refine pairwise_map.mpr ((pairwise_map.mp distinct).imp ?_)
    exact fun apart same => apart (chunkNodeId_inj same).2
  rw [chunkNodes, toFinset_card_of_nodup nodes, length_map]

variable {config : ServiceConfig} {faults : MaintenanceFaults}

theorem count_rebuildGraph (consistent : service.idMapping.Consistent) {graph next : GraphIndex}
    (kinded : graph.Kinded) {count : Nat}
    (rebuilt : rebuildGraph config.codec faults service.idMapping.loadActiveVectors graph
      = (.ok count, next))
    : next.countNodesOfKind .chunk = service.idMapping.loadActiveVectors.length
      ↔ service.ChunksStored config graph := by
  have size := card_chunkNodes config.codec consistent
  rw [GraphIndex.countNodesOfKind_chunk, chunkIds_rebuildGraph kinded rebuilt, ← size]
  have among : chunkNodes config.codec service.idMapping.loadActiveVectors ⊆ graph.chunkIds
        ∪ allProjectedChunks config.codec service.idMapping.loadActiveVectors :=
    chunkNodes_subset.trans Finset.subset_union_right
  constructor
  · intro same
    exact (Finset.eq_of_subset_of_card_le among same.le).ge
  · intro stored
    rw [Finset.Subset.antisymm stored among]

theorem reconcile_succeeded {graph : GraphIndex} (present : service.graphIndex = some graph)
    (succeeded : (service.reconcileProjections config faults true).1.Succeeded)
    : (graph.countNodesOfKind .chunk = service.idMapping.loadActiveVectors.length
        ∧ (service.reconcileProjections config faults true).2 = service)
      ∨ (graph.countNodesOfKind .chunk ≠ service.idMapping.loadActiveVectors.length
        ∧ ∃ count next, rebuildGraph config.codec faults service.idMapping.loadActiveVectors
            graph = (.ok count, next)
          ∧ (service.reconcileProjections config faults true).2
            = { service with graphIndex := some next }) := by
  have counts : service.projectionCounts.graphChunkNodes = graph.countNodesOfKind .chunk := by
    simp [projectionCounts, present]
  have durable : service.projectionCounts.durableVectors
      = service.idMapping.loadActiveVectors.length := rfl
  unfold reconcileProjections at succeeded ⊢
  simp only [present, Option.isSome_some, true_and, and_true, counts, durable] at succeeded ⊢
  by_cases same : graph.countNodesOfKind .chunk = service.idMapping.loadActiveVectors.length
  · exact .inl ⟨same, by simp [same]⟩
  · rw [if_pos same] at succeeded ⊢
    refine .inr ⟨same, ?_⟩
    simp only [rebuildGraphIndex, present] at succeeded ⊢
    generalize rebuildGraph config.codec faults service.idMapping.loadActiveVectors graph
      = outcome at succeeded ⊢
    obtain ⟨answer, next⟩ := outcome
    cases answer with
    | ok count => exact ⟨count, next, rfl, rfl⟩
    | error =>
      rcases succeeded with repaired | equal
      · exact absurd repaired (by simp [projectionCounts])
      · exact absurd (counts.symm.trans equal) same

end VectorService

/-- After a successful repair the next check reports no drift exactly when only the graph was off,
and by no other chunks.
Witness: the repair changes only the graph.
-/
theorem reconcile_reaches_check {config : ServiceConfig} {service : VectorService}
    (reachable : Reachable config service) {graph : GraphIndex}
    (present : service.graphIndex = some graph) {faults again : MaintenanceFaults}
    (repairGraph : Bool)
    (succeeded : (service.reconcileProjections config faults true).1.Succeeded)
    : (service.reconcileProjections config faults true).2.NoDrift
        (((service.reconcileProjections config faults true).2).reconcileProjections config
          again repairGraph).1
      ↔ service.Repairable config graph := by
  have consistent := (ReachableWhere.coherent reachable).consistent
  have kinded := ReachableWhere.graphKinded reachable graph present
  obtain ⟨repaired, reported⟩ := (@VectorService.reconcileProjections_cases config again
    (service.reconcileProjections config faults true).2 repairGraph).1
  rw [reported]
  rcases VectorService.reconcile_succeeded present succeeded with
    ⟨same, left⟩ | ⟨drifted, count, next, rebuilt, left⟩
  · rw [left]
    constructor
    · exact fun accepted => ⟨accepted.vectors, accepted.lexical, .inl same⟩
    · refine fun repairable => ⟨repairable.vectors, repairable.lexical, ?_⟩
      simpa [VectorService.projectionCounts, present] using same
  · rw [left]
    have counted := VectorService.count_rebuildGraph consistent kinded rebuilt
    constructor
    · exact fun accepted => ⟨accepted.vectors, accepted.lexical, .inr (counted.mp accepted.graph)⟩
    · refine fun repairable => ⟨repairable.vectors, repairable.lexical, ?_⟩
      exact counted.mpr (repairable.graph.resolve_left drifted)

def parentConfig : ServiceConfig :=
  .small false [.object [("parent_id", .string "p"), ("workspace_id", .string "default")],
      .object [("workspace_id", .string "default")]]

def parentCaller : AuthContext := ⟨"default", none⟩

def childRequest : Request := .insert ⟨"c", "a", [.finite 1], [0], ""⟩

def parentRequest : Request := .insert ⟨"c", "p", [.finite 1], [1], ""⟩

/-- A child is inserted without its parent. -/
def childService : VectorService :=
  childRequest.perform parentConfig parentCaller {} (.blank true false)

theorem reachable_childService : Reachable parentConfig childService :=
  @ReachableWhere.step _ _ _ _ (.request parentCaller {} childRequest) (.blank true false)
    trivial rfl

/-- The node of the parent is counted before and after the repair. -/
theorem placeholder_drifts
    : Reachable parentConfig childService
      ∧ (childService.reconcileProjections parentConfig {} true).1.Succeeded
      ∧ ¬((childService.reconcileProjections parentConfig {} true).2.NoDrift
        (((childService.reconcileProjections parentConfig {} true).2).reconcileProjections
          parentConfig {} true).1) := by
  have repaired : (childService.reconcileProjections parentConfig {} true).1.graphRepaired
      = true := by decide +kernel
  have counts : (((childService.reconcileProjections parentConfig {}
      true).2).reconcileProjections parentConfig {} true).1 = ⟨1, 1, 0, 2, true⟩ := by
    decide +kernel
  refine ⟨reachable_childService, .inl repaired, fun accepted => ?_⟩
  have graph := accepted.graph
  rw [counts] at graph
  exact absurd graph (by decide)

/-- The parent is inserted too, and a deletion of it fails after its node is gone. -/
def familyService : VectorService :=
  Request.perform parentConfig parentCaller { durable := some (.storageError "batch") }
    (parentRequest.perform parentConfig parentCaller {} childService) (.delete ⟨"c", "p"⟩)

theorem reachable_familyService : Reachable parentConfig familyService :=
  @ReachableWhere.step _ _ _ _ (.request parentCaller _ (.delete ⟨"c", "p"⟩))
    (@ReachableWhere.step _ _ _ _ (.request parentCaller {} parentRequest)
      reachable_childService trivial rfl) trivial rfl

/-- Where every named chunk is stored the repair brings the counts together. -/
theorem family_reconciles
    : (familyService.reconcileProjections parentConfig {} true).1.graphRepaired = true
      ∧ (familyService.reconcileProjections parentConfig {} true).2.NoDrift
        (((familyService.reconcileProjections parentConfig {} true).2).reconcileProjections
          parentConfig {} true).1 := by
  have present : (familyService.graphIndex).isSome = true := by decide +kernel
  obtain ⟨graph, held⟩ := Option.isSome_iff_exists.mp present
  have chunks : familyService.graphIndex.map (·.chunkIds) = some {"chunk:a"} := by
    decide +kernel
  have named : allProjectedChunks parentConfig.codec familyService.idMapping.loadActiveVectors
      = {"chunk:a", "chunk:p"} := by decide +kernel
  have nodes : chunkNodes parentConfig.codec familyService.idMapping.loadActiveVectors
      = {"chunk:a", "chunk:p"} := by decide +kernel
  have repaired : (familyService.reconcileProjections parentConfig {} true).1.graphRepaired
      = true := by decide +kernel
  refine ⟨repaired, (reconcile_reaches_check reachable_familyService held true
    (.inl repaired)).mpr ⟨by decide +kernel, by decide +kernel, .inr ?_⟩⟩
  rw [held, Option.map_some, Option.some.injEq] at chunks
  rw [VectorService.ChunksStored, chunks, named, nodes]
  decide

end AkiDB.Vectors
