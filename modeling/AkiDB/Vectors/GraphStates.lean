import AkiDB.Vectors.GraphIds
import AkiDB.Vectors.Runs

/-!
What the graph holds after a batch and a deletion: the id of every stored node names its kind.
-/

namespace AkiDB.Vectors
open AkiDB.Common AtomicBatch Checked KeyedMaps List

namespace GraphIndex

/-! Lookups after a batch -/

/-- What a batch leaves at a node: its properties replace the stored ones or extend them. -/
def writtenNode (replaceNodes : List String) (stored : Option GraphNode) (node : GraphNode)
    : GraphNode :=
  match stored with
  | none => node
  | some existing =>
    if replaceNodes.contains node.id then node
    else { node with properties := extendProperties existing.properties node.properties }

theorem lookup_upsertNode (nodes : KeyValueMap String GraphNode) (replaceNodes : List String)
    (node : GraphNode)
    : upsertNode nodes replaceNodes node
      = nodes.insert node.id (writtenNode replaceNodes nodes[node.id]? node) := by
  unfold upsertNode writtenNode
  cases nodes[node.id]? with
  | none => rfl
  | some existing =>
    dsimp only
    split <;> rfl

theorem mergeNodes_sound (nodes : List GraphNode)
    : (∀ (place : String) node, (mergeNodes nodes)[place]? = some node → node.id = place
        ∧ ∃ given ∈ nodes, given.id = place ∧ given.kind = node.kind)
      ∧ ∀ given ∈ nodes, ((mergeNodes nodes)[given.id]?).isSome := by
  unfold mergeNodes
  induction nodes using List.reverseRecOn with
  | nil => simp
  | append_singleton earlier last ih =>
    rw [foldl_append, foldl_cons, foldl_nil]
    generalize earlier.foldl mergeNode ∅ = merged at ih
    have written : ∃ properties, mergeNode merged last
        = merged.insert last.id ⟨last.id, last.kind, properties⟩ := by
      unfold mergeNode
      cases found : merged[last.id]? with
      | none => exact ⟨last.properties, rfl⟩
      | some stored =>
        refine ⟨extendProperties stored.properties last.properties, ?_⟩
        rw [← (ih.1 _ _ found).1]
    obtain ⟨properties, same⟩ := written
    rw [same]
    constructor
    · intro place node found
      rw [lookup_insert] at found
      split at found
      · next equal =>
          cases found
          exact ⟨equal, last, by simp, equal, rfl⟩
      · obtain ⟨named, given, member, kept⟩ := ih.1 place node found
        exact ⟨named, given, mem_append_left _ member, kept⟩
    · intro given member
      rw [lookup_insert]
      split
      · rfl
      · next different =>
          rcases mem_append.mp member with early | late
          · exact ih.2 given early
          · rw [mem_singleton] at late
            exact absurd (late ▸ rfl) different

theorem edgesById_sound (edges : List GraphEdge)
    : (∀ (place : String) edge, (edgesById edges)[place]? = some edge
        → edge.id = place ∧ edge ∈ edges)
      ∧ ∀ given ∈ edges, ((edgesById edges)[given.id]?).isSome := by
  unfold edgesById
  induction edges using List.reverseRecOn with
  | nil => simp
  | append_singleton earlier last ih =>
    rw [foldl_append, foldl_cons, foldl_nil]
    constructor
    · intro place edge found
      rw [lookup_insert] at found
      split at found
      · next equal =>
          cases found
          exact ⟨equal, by simp⟩
      · obtain ⟨named, member⟩ := ih.1 place edge found
        exact ⟨named, mem_append_left _ member⟩
    · intro given member
      rw [lookup_insert]
      split
      · rfl
      · next different =>
          rcases mem_append.mp member with early | late
          · exact ih.2 given early
          · rw [mem_singleton] at late
            exact absurd (late ▸ rfl) different

section Lookups

variable (graph : GraphIndex) (batch : GraphMutationBatch) (place : String)

theorem nodes_applied : (graph.applied batch).nodes[place]?
    = (mergeNodes batch.nodes)[place]?.elim graph.nodes[place]? fun node =>
      some (writtenNode batch.replaceNodes graph.nodes[place]? node) := by
  refine lookup_foldl_values GraphNode.id (writtenNode batch.replaceNodes) ?_ ?_
    (fun place node found => ((mergeNodes_sound batch.nodes).1 place node found).1) _ _
  · intro nodes node
    rw [lookup_upsertNode, lookup_insert, if_pos rfl]
  · intro nodes node other different
    rw [lookup_upsertNode, lookup_insert, if_neg different]

theorem edges_applied : (graph.applied batch).edges[place]?
    = (edgesById batch.edges)[place]?.or
      (if place ∈ batch.deleteEdges then none else graph.edges[place]?) := by
  have written := lookup_foldl_values GraphEdge.id (fun _ edge => edge)
    (fun (edges : KeyValueMap String GraphEdge) edge => (lookup_insert ..).trans (if_pos rfl))
    (fun edges edge other different => (lookup_insert ..).trans (if_neg different))
    (fun place edge found => ((edgesById_sound batch.edges).1 place edge found).1)
    (batch.deleteEdges.foldl (fun edges id => edges.erase id) graph.edges) place
  refine written.trans ?_
  rw [lookup_foldl_erase]
  cases (edgesById batch.edges)[place]? <;> rfl

theorem nodes_without (nodeId : String) : (graph.without nodeId).nodes[place]?
    = if nodeId = place then none else graph.nodes[place]? :=
  lookup_erase ..

theorem edges_without (nodeId : String) : (graph.without nodeId).edges[place]?
    = graph.edges[place]?.filter fun edge => edge.source ≠ nodeId ∧ edge.target ≠ nodeId :=
  lookup_filter ..

end Lookups

theorem upsertBatch_eq_ok {graph next : GraphIndex} {fault batch} (nonempty : batch.isEmpty = false)
    (accepted : graph.upsertBatch fault batch = .ok next) : next = graph.applied batch := by
  unfold upsertBatch at accepted
  rw [nonempty] at accepted
  simp only [Bool.false_eq_true, if_false, bind_eq_ok] at accepted
  obtain ⟨_, _, written⟩ := accepted
  cases fault with
  | some => cases written
  | none => cases written; rfl

theorem deleteNode_eq_ok {graph next : GraphIndex} {fault} {nodeId : String}
    (deleted : graph.deleteNode fault nodeId = .ok next)
    : (graph.nodes[nodeId]? = none ∧ next = graph)
      ∨ ((graph.nodes[nodeId]?).isSome ∧ next = graph.without nodeId) := by
  unfold deleteNode at deleted
  cases found : graph.nodes[nodeId]? with
  | none =>
    rw [found] at deleted
    cases deleted
    exact .inl ⟨rfl, rfl⟩
  | some node =>
    rw [found] at deleted
    cases fault with
    | some => cases deleted
    | none =>
      cases deleted
      exact .inr ⟨rfl, rfl⟩

end GraphIndex

/-! The nodes of a projection -/

theorem copyFields_node (metadata : Option Json) (keys : List String) (node : GraphNode)
    : (copyFields GraphNode.withProperty metadata keys node).id = node.id
      ∧ (copyFields GraphNode.withProperty metadata keys node).kind = node.kind := by
  unfold copyFields
  refine List.foldlRecOn
    (motive := fun written : GraphNode => written.id = node.id ∧ written.kind = node.kind)
    _ _ ⟨rfl, rfl⟩ fun written same key _ => ?_
  split <;> exact same

/-- What a reference of metadata can be. -/
inductive ReferenceShape (workspaceId vectorId : String) (json : Option Json)
    (reference : Reference) : Prop where
  | parent (id : String) (shape : reference = parentReference workspaceId vectorId json id)
  | related (id : String) (shape : reference = relatedReference workspaceId vectorId json id)
  | chunk (kind : EdgeKind) (id : String)
      (shape : reference = chunkReference workspaceId vectorId json kind id)
  | outgoing (nodeKind : NodeKind) (kind : EdgeKind) (id : String) (other : nodeKind ≠ .chunk)
      (shape : reference = outgoingReference workspaceId vectorId json nodeKind kind id)
  | container (nodeKind : NodeKind) (fields : List String) (id : String)
      (other : nodeKind ≠ .chunk)
      (shape : reference = containerReference workspaceId vectorId json nodeKind fields id)

/-- Every reference has one of the shapes. -/
theorem reference_shape {codec vectorId metadata reference}
    (member : reference ∈ references codec vectorId metadata)
    : ReferenceShape (workspaceIdFromMetadata codec metadata) vectorId
        (metadataJson codec metadata) reference := by
  simp only [references, mem_append, mem_map, mem_flatMap] at member
  rcases member with ((((((⟨id, _, shape⟩ | ⟨id, _, shape⟩) | ⟨field, _, id, _, shape⟩)
    | ⟨id, _, shape⟩) | ⟨id, _, shape⟩) | ⟨field, listed, id, _, shape⟩) | ⟨id, _, shape⟩)
    | ⟨id, _, shape⟩
  · exact .parent id shape.symm
  · exact .related id shape.symm
  · exact .chunk field.2 id shape.symm
  · exact .outgoing .person .ownedBy id (by decide) shape.symm
  · exact .outgoing .commit .changedBy id (by decide) shape.symm
  · have structural : ∀ field ∈ structuralFields, field.2 ≠ .chunk := by decide
    exact .container field.2 _ id (structural field listed) shape.symm
  · exact .container .file _ id (by decide) shape.symm
  · exact .container .function _ id (by decide) shape.symm

theorem referred_shape {codec vectorId metadata node}
    (member : node ∈ (references codec vectorId metadata).flatMap (·.nodes))
    : let workspaceId := workspaceIdFromMetadata codec metadata
      (∃ id, node = referredChunk workspaceId id)
        ∨ ∃ kind fields id, kind ≠ .chunk
          ∧ node = copyFields GraphNode.withProperty (metadataJson codec metadata) fields
            (graphNode workspaceId (graphNodeId workspaceId kind id) kind id) := by
  obtain ⟨reference, listed, present⟩ := mem_flatMap.mp member
  cases reference_shape listed with
  | parent id shape | related id shape | chunk _ id shape =>
    subst shape
    exact .inl ⟨id, mem_singleton.mp present⟩
  | outgoing kind _ id other shape =>
    subst shape
    exact .inr ⟨kind, [], id, other, mem_singleton.mp present⟩
  | container kind fields id other shape =>
    subst shape
    exact .inr ⟨kind, fields, id, other, mem_singleton.mp present⟩

theorem kind_of_mem_projectionNodes {codec vectorId metadata node}
    (member : node ∈ projectionNodes codec vectorId metadata)
    : ∃ workspaceId raw, node.id = graphNodeId workspaceId node.kind raw := by
  rcases mem_cons.mp member with rfl | referred
  · obtain ⟨id, kind⟩ := copyFields_node (metadataJson codec metadata)
      ["source_uri", "source_object_id", "source_version", "document_id", "chunk_index",
        "start_offset", "end_offset", "extraction_method", "pipeline_version"]
      (referredChunk (workspaceIdFromMetadata codec metadata) vectorId)
    refine ⟨workspaceIdFromMetadata codec metadata, vectorId, ?_⟩
    exact id.trans (congrArg (graphNodeId _ · _) kind.symm)
  · rcases referred_shape referred with ⟨id, rfl⟩ | ⟨kind, fields, id, _, rfl⟩
    · exact ⟨_, id, rfl⟩
    · obtain ⟨same, kind⟩ := copyFields_node (metadataJson codec metadata) fields
        (graphNode (workspaceIdFromMetadata codec metadata)
          (graphNodeId (workspaceIdFromMetadata codec metadata) kind id) kind id)
      exact ⟨_, id, same.trans (congrArg (graphNodeId _ · _) kind.symm)⟩

section
variable (codec : JsonCodec)

def projectedChunks (vectorId : String) (metadata : List UInt8)
    : List String :=
  ((projectionNodes codec vectorId metadata).filter (·.kind = .chunk)).map (·.id)

def StoredVectorEntry.chunkNode (stored : StoredVectorEntry) : String :=
  chunkNodeId (workspaceIdFromMetadata codec stored.metadata) stored.externalId

theorem chunkNode_mem_projectedChunks (stored : StoredVectorEntry)
    : stored.chunkNode codec ∈ projectedChunks codec stored.externalId stored.metadata := by
  obtain ⟨id, kind⟩ := copyFields_node (metadataJson codec stored.metadata)
    ["source_uri", "source_object_id", "source_version", "document_id", "chunk_index",
      "start_offset", "end_offset", "extraction_method", "pipeline_version"]
    (referredChunk (workspaceIdFromMetadata codec stored.metadata) stored.externalId)
  refine mem_map.mpr ⟨_, mem_filter.mpr ⟨mem_cons_self, ?_⟩, id⟩
  exact decide_eq_true kind

end

namespace GraphIndex

section
variable (graph : GraphIndex)

/-- Every stored node has its key as its id, which names its kind. -/
structure Kinded : Prop where
  named : ∀ (place : String) node, graph.nodes[place]? = some node → node.id = place
  kind : ∀ (place : String) node, graph.nodes[place]? = some node
    → ∃ workspaceId raw, place = graphNodeId workspaceId node.kind raw

theorem kinded_empty : empty.Kinded where
  named := by simp [empty]
  kind := by simp [empty]

def chunkIds : Finset String :=
  ((graph.nodes.toList.filter fun row => row.2.kind = .chunk).map Prod.fst).toFinset

theorem mem_chunkIds {graph : GraphIndex} {place : String}
    : place ∈ graph.chunkIds
      ↔ ∃ node, graph.nodes[place]? = some node ∧ node.kind = .chunk := by
  simp only [chunkIds, mem_toFinset, mem_map, mem_filter, decide_eq_true_eq]
  constructor
  · rintro ⟨row, ⟨member, chunk⟩, rfl⟩
    exact ⟨row.2, Std.ExtTreeMap.mem_toList_iff_getElem?_eq_some.mp member, chunk⟩
  · rintro ⟨node, found, chunk⟩
    exact ⟨(place, node), ⟨Std.ExtTreeMap.mem_toList_iff_getElem?_eq_some.mpr found, chunk⟩, rfl⟩

theorem countNodesOfKind_chunk : graph.countNodesOfKind .chunk = graph.chunkIds.card := by
  have distinct : ((graph.nodes.toList.filter fun row => row.2.kind = .chunk).map
      Prod.fst).Nodup := by
    refine pairwise_map.mpr ((graph.nodes.distinct_keys_toList.filter _).imp ?_)
    intro left right apart equal
    exact apart (Std.LawfulEqOrd.compare_eq_iff_eq.mpr equal)
  rw [chunkIds, toFinset_card_of_nodup distinct, length_map, countNodesOfKind]

theorem Kinded.kind_eq {graph : GraphIndex} (kinded : graph.Kinded) {place : String}
    {node : GraphNode} (found : graph.nodes[place]? = some node) {workspaceId raw : String}
    {kind : NodeKind} (named : place = graphNodeId workspaceId kind raw) : node.kind = kind := by
  obtain ⟨workspace, id, same⟩ := kinded.kind place node found
  exact (graphNodeId_inj (same.symm.trans named)).2.1

theorem kind_writtenNode (replaceNodes : List String) (stored : Option GraphNode)
    (node : GraphNode) : (writtenNode replaceNodes stored node).kind = node.kind
      ∧ (writtenNode replaceNodes stored node).id = node.id := by
  unfold writtenNode
  split
  · exact ⟨rfl, rfl⟩
  · split <;> exact ⟨rfl, rfl⟩

theorem Kinded.without {graph : GraphIndex} (kinded : graph.Kinded) (nodeId : String)
    : (graph.without nodeId).Kinded := by
  constructor <;> intro place node found <;> rw [nodes_without] at found <;> split at found
  · cases found
  · exact kinded.named place node found
  · cases found
  · exact kinded.kind place node found

theorem chunkIds_without (nodeId : String)
    : (graph.without nodeId).chunkIds = graph.chunkIds.erase nodeId := by
  ext place
  simp only [mem_chunkIds, nodes_without, Finset.mem_erase]
  by_cases same : nodeId = place
  · simp [same]
  · simp [same, Ne.symm same]

end

theorem Kinded.deleteNode {graph next : GraphIndex} (kinded : graph.Kinded) {fault}
    {nodeId : String} (deleted : graph.deleteNode fault nodeId = .ok next) : next.Kinded := by
  rcases deleteNode_eq_ok deleted with ⟨_, rfl⟩ | ⟨_, rfl⟩
  · exact kinded
  · exact kinded.without nodeId

theorem chunkIds_deleteNode {graph next : GraphIndex} {fault} {nodeId : String}
    (deleted : graph.deleteNode fault nodeId = .ok next)
    : next.chunkIds = graph.chunkIds.erase nodeId := by
  rcases deleteNode_eq_ok deleted with ⟨absent, rfl⟩ | ⟨_, rfl⟩
  · refine (Finset.erase_eq_of_notMem fun member => ?_).symm
    obtain ⟨node, found, _⟩ := mem_chunkIds.mp member
    cases absent.symm.trans found
  · exact chunkIds_without ..

section Projecting

variable {codec : JsonCodec} {graph next : GraphIndex} {fault : Option GraphError}
  {vectorId : String} {metadata : List UInt8} {previous : Option (List UInt8)}

theorem graphChunkBatch_applied (accepted : graph.upsertBatch fault
      (graphChunkBatch codec graph vectorId metadata previous) = .ok next)
    : next = graph.applied (graphChunkBatch codec graph vectorId metadata previous) :=
  upsertBatch_eq_ok (by simp [GraphMutationBatch.isEmpty, graphChunkBatch]) accepted

theorem Kinded.project (kinded : graph.Kinded) (accepted : graph.upsertBatch fault
      (graphChunkBatch codec graph vectorId metadata previous) = .ok next) : next.Kinded := by
  rw [graphChunkBatch_applied accepted]
  have merged := (mergeNodes_sound (projectionNodes codec vectorId metadata)).1
  constructor <;> intro place node found <;> rw [nodes_applied] at found <;>
    cases present : (mergeNodes (projectionNodes codec vectorId metadata))[place]? with
    | none => ?_
    | some given => ?_
  all_goals simp only [graphChunkBatch, present, Option.elim_none, Option.elim_some,
    Option.some.injEq] at found
  · exact kinded.named place node found
  · rw [← found, (kind_writtenNode ..).2]
    exact (merged place given present).1
  · exact kinded.kind place node found
  · obtain ⟨_, listed, member, same, kind⟩ := merged place given present
    obtain ⟨workspaceId, raw, named⟩ := kind_of_mem_projectionNodes member
    exact ⟨workspaceId, raw, by rw [← found, (kind_writtenNode ..).1, ← kind, ← named, same]⟩

theorem chunkIds_project (kinded : graph.Kinded) (accepted : graph.upsertBatch fault
      (graphChunkBatch codec graph vectorId metadata previous) = .ok next)
    : next.chunkIds = graph.chunkIds ∪ (projectedChunks codec vectorId metadata).toFinset := by
  rw [graphChunkBatch_applied accepted]
  obtain ⟨merged, complete⟩ := mergeNodes_sound (projectionNodes codec vectorId metadata)
  ext place
  simp only [mem_chunkIds, nodes_applied, Finset.mem_union, mem_toFinset, projectedChunks,
    mem_map, mem_filter, decide_eq_true_eq]
  cases present : (mergeNodes (projectionNodes codec vectorId metadata))[place]? with
  | none =>
    have absent : ¬∃ node, (node ∈ projectionNodes codec vectorId metadata
        ∧ node.kind = .chunk) ∧ node.id = place := by
      rintro ⟨node, ⟨member, _⟩, rfl⟩
      exact absurd (complete node member) (by simp [present])
    simp [graphChunkBatch, present, absent]
  | some given =>
    obtain ⟨_, listed, member, same, kind⟩ := merged place given present
    simp only [graphChunkBatch, present, Option.elim_some, Option.some.injEq,
      exists_eq_left', (kind_writtenNode ..).1]
    constructor
    · exact fun chunk => .inr ⟨listed, ⟨member, kind.trans chunk⟩, same⟩
    · obtain ⟨workspaceId, raw, named⟩ := kind_of_mem_projectionNodes member
      rintro (⟨node, found, chunk⟩ | ⟨other, ⟨otherMember, chunk⟩, otherSame⟩)
      · rw [← kind, ← kinded.kind_eq found (same.symm.trans named), chunk]
      · -- two nodes of one id have the same kind
        obtain ⟨otherWorkspace, otherRaw, otherNamed⟩ :=
          kind_of_mem_projectionNodes otherMember
        have ids := named.symm.trans (same.trans (otherSame.symm.trans otherNamed))
        rw [← kind, (graphNodeId_inj ids).2.1, chunk]

end Projecting

end GraphIndex

namespace VectorService

variable {config : ServiceConfig} {faults : WriteFaults} {service : VectorService}

theorem graphIndex_writeVector (write : PendingWrite)
    : let outcome := service.writeVector config faults write
      ((∃ internalId, outcome.1 = .ok internalId)
        ∧ indexGraphChunk config.codec service.graphIndex faults.graph write.id write.metadata
          write.oldMetadata = .ok outcome.2.graphIndex)
      ∨ ((∃ status, outcome.1 = .error status) ∧ outcome.2.graphIndex = service.graphIndex) := by
  have written := written_writeVector config faults write service
  generalize service.writeVector config faults write = outcome at written ⊢
  cases written with
  | refused | undone => exact .inr ⟨⟨_, rfl⟩, rfl⟩
  | stored _ finished =>
    rcases finished.graph with ⟨answered, projected⟩ | failed
    · exact .inl ⟨⟨_, answered⟩, projected⟩
    · exact .inr failed

theorem graphIndex_deleteVector (id : String) (metadata : Option (List UInt8))
    : (service.deleteVector config faults id metadata).2.graphIndex
      = match service.unprojectGraph config faults id metadata with
        | .ok cleaned => cleaned.graphIndex
        | .error _ => service.graphIndex := by
  have deleted := deleted_deleteVector config faults id metadata service
  generalize service.deleteVector config faults id metadata = outcome at deleted ⊢
  cases deleted with
  | refused failed => rw [failed]
  | unmarked unprojected | absent unprojected | tombstoned _ unprojected => rw [unprojected]
  | dropped unprojected =>
    rw [unprojected]
    exact Reprojected.deleteSqlMetadata.2

end VectorService

end AkiDB.Vectors
