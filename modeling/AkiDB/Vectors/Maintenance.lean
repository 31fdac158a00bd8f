import AkiDB.Vectors.Service

/-! Maintenance of the vector service: rebuilding, compaction, reconciliation and restart. -/

namespace AkiDB.Vectors
open AkiDB.Common AtomicBatch Checked

/-- What happens to the steps of a maintenance task, vector by vector. -/
structure MaintenanceFaults where
  usearch : String → UsearchFaults := fun _ => {}
  durable : String → Option AkiDbError := fun _ => none
  nodeDeletion : String → Option GraphError := fun _ => none
  graph : String → Option GraphError := fun _ => none
  sqlClear : Bool := false
  sql : String → Bool := fun _ => false
  /-- The time of the last write of each payload. -/
  updatedAtMs : String → Nat := fun _ => 0

namespace VectorService

variable (config : ServiceConfig)

def liveTexts (service : VectorService) : List (String × String) :=
  service.idMapping.loadAllTexts.filter fun row =>
    (service.idMapping.getInternalId row.1).isSome

def rebuildLexicalIndex (service : VectorService) : VectorService :=
  { service with
    lexical := service.liveTexts.foldl
      (fun lexical row => lexical.insert config.unicode row.1 row.2) .empty
    documents := service.liveTexts.foldl (fun documents row => documents.insert row.1 row.2) ∅ }

/-- Rebuild the metadata mirror from the payloads; records that fail are left out. -/
def rebuildSqlMetadataIndex (faults : MaintenanceFaults) (service : VectorService)
    : VectorService :=
  if faults.sqlClear then service
  else { service with
    metadataSqlIndex := service.metadataSqlIndex.map fun _ =>
      service.idMapping.loadActiveVectors.foldl (fun rows stored =>
        if faults.sql stored.externalId then rows
        else rows.insert stored.externalId
          ⟨stored.internalId, metadataValueFromBytes config.codec stored.metadata,
            faults.updatedAtMs stored.externalId⟩) ∅ }

end VectorService

section Graph

variable (codec : JsonCodec) (faults : MaintenanceFaults)

/-- Delete the chunk nodes of the vectors, up to the first failure. -/
def deleteChunkNodes : List StoredVectorEntry → GraphIndex → Except GraphError Unit × GraphIndex
  | [], graph => (.ok (), graph)
  | stored :: rest, graph =>
    match graph.deleteNode (faults.nodeDeletion stored.externalId)
        (chunkNodeId (workspaceIdFromMetadata codec stored.metadata) stored.externalId) with
    | .error error => (.error error, graph)
    | .ok graph => deleteChunkNodes rest graph

/-- Project the vectors one after another, up to the first failure. -/
def indexChunks : List StoredVectorEntry → GraphIndex → Except GraphError Unit × GraphIndex
  | [], graph => (.ok (), graph)
  | stored :: rest, graph =>
    match graph.upsertBatch (faults.graph stored.externalId)
        (graphChunkBatch codec graph stored.externalId stored.metadata none) with
    | .error error => (.error error, graph)
    | .ok graph => indexChunks rest graph

def rebuildGraph (vectors : List StoredVectorEntry) (graph : GraphIndex)
    : Except GraphError Nat × GraphIndex :=
  match deleteChunkNodes codec faults vectors graph with
  | (.error error, graph) => (.error error, graph)
  | (.ok (), graph) => match indexChunks codec faults vectors graph with
    | (.error error, graph) => (.error error, graph)
    | (.ok (), graph) => (.ok vectors.length, graph)

end Graph

namespace VectorService

variable (config : ServiceConfig)

variable (faults : MaintenanceFaults)

variable (service : VectorService)

def rebuildGraphIndex : Except GraphError Nat × VectorService :=
  match service.graphIndex with
  | none => (.ok 0, service)
  | some graph =>
    let rebuilt := rebuildGraph config.codec faults service.idMapping.loadActiveVectors graph
    (rebuilt.1, { service with graphIndex := some rebuilt.2 })

structure ReconcileReport where
  durableVectors : Nat
  hnswActive : Nat
  lexicalDocuments : Nat
  graphChunkNodes : Nat
  graphRepaired : Bool
  deriving DecidableEq

def projectionCounts : ReconcileReport where
  durableVectors := service.idMapping.loadActiveVectors.length
  hnswActive := service.index.stats.activeVectors
  lexicalDocuments := service.documents.size
  graphChunkNodes := (service.graphIndex.map (·.countNodesOfKind .chunk)).getD 0
  graphRepaired := false

/-- Compare the projections with the mapping and rebuild a drifted graph, if asked to. -/
def reconcileProjections (repairGraph : Bool)
    (service : VectorService) : ReconcileReport × VectorService :=
  let report := service.projectionCounts
  if service.graphIndex.isSome ∧ report.graphChunkNodes ≠ report.durableVectors
      ∧ repairGraph then
    match service.rebuildGraphIndex config faults with
    | (.ok _, service) => ({ report with graphRepaired := true }, service)
    | (.error _, service) => (report, service)
  else (report, service)

def compactTombstones (removeFails : Nat → Bool) (service : VectorService) : VectorService :=
  { service with index := (service.index.compactTombstones removeFails).2 }

def reloadHnsw (faults : MaintenanceFaults)
    : List StoredVectorEntry → HnswIndex → IdMapping → Except AkiDbError (HnswIndex × IdMapping)
  | [], index, mapping => .ok (index, mapping)
  | stored :: rest, index, mapping =>
    match index.insert config.hnsw (faults.usearch stored.externalId) stored.externalId
        stored.vector with
    | (.error error, _) => .error error
    | (.ok internalId, index) =>
      match mapping.upsertWithVector (faults.durable stored.externalId) stored.externalId
          internalId stored.vector stored.metadata with
      | .error error => .error error
      | .ok mapping => reloadHnsw faults rest index mapping

/-- Rebuild the projections of a reloaded service, the graph only when it is empty. -/
def rebuildProjections (reloaded : VectorService)
    : Option VectorService :=
  let mirrored := reloaded.rebuildSqlMetadataIndex config faults
  if mirrored.graphIndex.any (·.nodes.isEmpty) then
    match mirrored.rebuildGraphIndex config faults with
    | (.error _, _) => none
    | (.ok _, rebuilt) => some (rebuilt.rebuildLexicalIndex config)
  else some (mirrored.rebuildLexicalIndex config)

/-- Start again from the durable state, unless a vector cannot be reloaded. -/
def restart : Option VectorService :=
  match reloadHnsw config faults service.idMapping.loadActiveVectors .empty
      service.idMapping with
  | .error _ => none
  | .ok (index, mapping) =>
    rebuildProjections config faults { service with index := index, idMapping := mapping }

end VectorService

end AkiDB.Vectors
