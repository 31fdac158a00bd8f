import AkiDB.Vectors.GraphStates

/-!
The properties of projected nodes and edges are sorted by key, so writing them again changes
nothing.
-/

namespace AkiDB.Vectors
open AkiDB.Common AtomicBatch Checked KeyedMaps List GraphIndex

namespace Json

/-- The keys of a property list increase. -/
def FieldsSorted (fields : List (String × Json)) : Prop :=
  fields.Pairwise fun left right => left.1 < right.1

theorem lookup_insertField (fields : List (String × Json)) (key other : String) (value : Json)
    : (insertField fields key value).lookup other
      = if key = other then some value else fields.lookup other := by
  induction fields with
  | nil => exact lookup_row ..
  | cons field rest ih =>
    obtain ⟨first, old⟩ := field
    unfold insertField
    split
    · exact lookup_row ..
    · split
      · next equal =>
          subst equal
          rw [lookup_row, lookup_row]
          split <;> rfl
      · next different =>
          rw [lookup_row, lookup_row, ih]
          by_cases same : key = other
          · subst same
            rw [if_neg (Ne.symm different), if_pos rfl, if_pos rfl]
          · rw [if_neg same, if_neg same]

variable {fields : List (String × Json)}

theorem mem_insertField {key value field} (member : field ∈ insertField fields key value)
    : field = (key, value) ∨ field ∈ fields := by
  induction fields with
  | nil => exact .inl (mem_singleton.mp member)
  | cons first rest ih =>
    unfold insertField at member
    split at member
    · exact mem_cons.mp member
    · split at member
      · rcases mem_cons.mp member with same | later
        · exact .inl same
        · exact .inr (mem_cons_of_mem _ later)
      · rcases mem_cons.mp member with same | later
        · exact .inr (same ▸ mem_cons_self)
        · exact (ih later).imp_right (mem_cons_of_mem _)

theorem FieldsSorted.insertField (sorted : FieldsSorted fields) (key : String) (value : Json)
    : FieldsSorted (Json.insertField fields key value) := by
  induction fields with
  | nil => exact pairwise_singleton ..
  | cons first rest ih =>
    obtain ⟨smaller, tail⟩ := pairwise_cons.mp sorted
    unfold Json.insertField
    split
    · next before =>
        refine pairwise_cons.mpr ⟨fun field member => ?_, sorted⟩
        rcases mem_cons.mp member with rfl | later
        · exact before
        · exact lt_trans before (smaller field later)
    · next notBefore =>
        split
        · next equal =>
            subst equal
            exact pairwise_cons.mpr ⟨smaller, tail⟩
        · next different =>
            refine pairwise_cons.mpr ⟨fun field member => ?_, ih tail⟩
            rcases mem_insertField member with rfl | later
            · exact lt_of_le_of_ne (not_lt.mp notBefore) (Ne.symm different)
            · exact smaller field later

theorem FieldsSorted.insertField_eq (sorted : FieldsSorted fields) {key value}
    (held : fields.lookup key = some value) : Json.insertField fields key value = fields := by
  induction fields with
  | nil => cases held
  | cons first rest ih =>
    obtain ⟨other, old⟩ := first
    obtain ⟨smaller, tail⟩ := pairwise_cons.mp sorted
    rw [lookup_row] at held
    unfold Json.insertField
    by_cases same : other = key
    · subst same
      rw [if_pos rfl] at held
      cases held
      simp
    · rw [if_neg same] at held
      obtain ⟨front, back, shape, _⟩ := lookup_eq_some_iff.mp held
      have after : other < key := smaller (key, value) (by simp [shape])
      rw [if_neg (not_lt.mpr after.le), if_neg (Ne.symm same), ih tail held]

end Json

section Extending

variable {properties added : List (String × Json)}

theorem FieldsSorted_extendProperties (sorted : Json.FieldsSorted properties)
    : Json.FieldsSorted (extendProperties properties added) := by
  unfold extendProperties
  exact List.foldlRecOn (motive := Json.FieldsSorted) _ _ sorted
    fun _ sorted field _ => sorted.insertField field.1 field.2

theorem extendProperties_eq (sorted : Json.FieldsSorted properties)
    (held : ∀ field ∈ added, properties.lookup field.1 = some field.2)
    : extendProperties properties added = properties := by
  unfold extendProperties
  refine List.foldlRecOn (motive := fun extended => extended = properties) _ _ rfl ?_
  rintro _ rfl field member
  exact sorted.insertField_eq (held field member)

theorem lookup_field (sorted : Json.FieldsSorted properties) {field} (member : field ∈ properties)
    : properties.lookup field.1 = some field.2 :=
  lookup_of_mem (pairwise_map.mpr (sorted.imp fun smaller => smaller.ne)) member

end Extending

theorem copyFields_properties {α : Type} {withProperty : α → String → Json → α}
    {properties : α → List (String × Json)}
    (written : ∀ target key value,
      properties (withProperty target key value) = Json.insertField (properties target) key value)
    (metadata : Option Json) (keys : List String) (target : α)
    : (∀ key, key ∉ keys
        → (properties (copyFields withProperty metadata keys target)).lookup key
          = (properties target).lookup key)
      ∧ (Json.FieldsSorted (properties target)
        → Json.FieldsSorted (properties (copyFields withProperty metadata keys target))) := by
  unfold copyFields
  refine List.foldlRecOn (motive := fun copied : α =>
      (∀ key, key ∉ keys → (properties copied).lookup key = (properties target).lookup key)
        ∧ (Json.FieldsSorted (properties target) → Json.FieldsSorted (properties copied)))
    _ _ ⟨fun _ _ => rfl, id⟩ fun copied kept key member => ?_
  split
  · next value found =>
      rw [written]
      refine ⟨fun other absent => ?_, fun sorted => (kept.2 sorted).insertField ..⟩
      have apart : key ≠ other := fun same => absent (same ▸ member)
      rw [Json.lookup_insertField, if_neg apart, kept.1 other absent]
  · exact kept

variable (workspaceId : String)

theorem sorted_graphNode (nodeId : String) (kind : NodeKind) (rawId : String)
    : Json.FieldsSorted (graphNode workspaceId nodeId kind rawId).properties := by
  have empty : Json.FieldsSorted [] := List.Pairwise.nil
  exact (empty.insertField "id" (.string rawId)).insertField workspaceKey (.string workspaceId)

variable (vectorId : String)

theorem sorted_referredChunk
    : Json.FieldsSorted (referredChunk workspaceId vectorId).properties :=
  (sorted_graphNode workspaceId (chunkNodeId workspaceId vectorId) .chunk vectorId).insertField
    "vector_id" (.string vectorId)

theorem referredChunk_properties
    : (referredChunk workspaceId vectorId).properties
      = [("id", .string vectorId), ("vector_id", .string vectorId),
        (workspaceKey, .string workspaceId)] := rfl

section Own

variable (codec : JsonCodec) (vectorId : String) (metadata : List UInt8)

def ownId : String :=
  chunkNodeId (workspaceIdFromMetadata codec metadata) vectorId

def ownNode : GraphNode :=
  let json := metadataJson codec metadata
  (ownChunk (workspaceIdFromMetadataValue json) vectorId json).withProperty graphProjectionEdgeIds
    (.array ((sortedDistinct ((projectionEdges codec vectorId metadata).map (·.id))).map
      Json.string))

def referredNodes : List GraphNode :=
  (references codec vectorId metadata).flatMap (·.nodes)

theorem projectionNodes_eq : projectionNodes codec vectorId metadata
    = ownNode codec vectorId metadata :: referredNodes codec vectorId metadata := rfl

theorem id_ownNode : (ownNode codec vectorId metadata).id = ownId codec vectorId metadata :=
  (copyFields_node ..).1

theorem kind_ownNode : (ownNode codec vectorId metadata).kind = .chunk :=
  (copyFields_node ..).2

theorem sorted_ownNode : Json.FieldsSorted (ownNode codec vectorId metadata).properties :=
  ((copyFields_properties (fun _ _ _ => rfl) _ _ _).2
    (sorted_referredChunk _ vectorId)).insertField graphProjectionEdgeIds _

theorem lookup_ownNode_edgeIds
    : (ownNode codec vectorId metadata).properties.lookup graphProjectionEdgeIds
      = some (.array ((sortedDistinct ((projectionEdges codec vectorId metadata).map
        (·.id))).map Json.string)) :=
  (Json.lookup_insertField ..).trans (if_pos rfl)

theorem lookup_ownNode {field}
    (member : field ∈ (referredChunk (workspaceIdFromMetadata codec metadata) vectorId).properties)
    : (ownNode codec vectorId metadata).properties.lookup field.1 = some field.2 := by
  have held := lookup_field (sorted_referredChunk ..) member
  -- none of its keys is copied from metadata
  have keys : ∀ key ∈ ["id", "vector_id", workspaceKey], key ≠ graphProjectionEdgeIds
      ∧ key ∉ ["source_uri", "source_object_id", "source_version", "document_id",
        "chunk_index", "start_offset", "end_offset", "extraction_method",
        "pipeline_version"] := by
    decide
  have plain := keys field.1 (mem_map_of_mem (f := Prod.fst) member)
  refine (Json.lookup_insertField ..).trans ?_
  rw [if_neg (Ne.symm plain.1)]
  exact ((copyFields_properties (fun _ _ _ => rfl) _ _ _).1 _ plain.2).trans held

end Own

theorem lookup_referredChunk_edgeIds
    : (referredChunk workspaceId vectorId).properties.lookup graphProjectionEdgeIds
      = none := by
  rw [referredChunk_properties]
  rfl

section Merging

variable {codec : JsonCodec} {vectorId : String} {metadata : List UInt8}

variable {node : GraphNode}

theorem eq_referredChunk {workspaceId referred}
    (member : node ∈ referredNodes codec vectorId metadata)
    (named : node.id = chunkNodeId workspaceId referred)
    : workspaceId = workspaceIdFromMetadata codec metadata
      ∧ node = referredChunk workspaceId referred := by
  rcases referred_shape member with ⟨id, rfl⟩ | ⟨kind, fields, id, other, rfl⟩
  · obtain ⟨workspaces, ids⟩ := chunkNodeId_inj named
    exact ⟨workspaces.symm, by rw [workspaces, ids]⟩
  · have same : graphNodeId _ kind id = graphNodeId workspaceId .chunk referred :=
      (copyFields_node ..).1.symm.trans named
    exact absurd (graphNodeId_inj same).2.1 other

theorem sorted_of_mem_projectionNodes (member : node ∈ projectionNodes codec vectorId metadata)
    : Json.FieldsSorted node.properties := by
  rw [projectionNodes_eq] at member
  rcases mem_cons.mp member with rfl | referred
  · exact sorted_ownNode ..
  · rcases referred_shape referred with ⟨id, rfl⟩ | ⟨kind, fields, id, _, rfl⟩
    · exact sorted_referredChunk ..
    · exact (copyFields_properties (fun _ _ _ => rfl) _ _ _).2 (sorted_graphNode ..)

theorem mergeNode_keeps {nodes : List GraphNode} {merged : KeyValueMap String GraphNode}
    (held : merged[node.id]? = some node) (sorted : Json.FieldsSorted node.properties)
    (same : ∀ given ∈ nodes, given.id = node.id → given.kind = node.kind
      ∧ ∀ field ∈ given.properties, node.properties.lookup field.1 = some field.2)
    : (nodes.foldl mergeNode merged)[node.id]? = some node := by
  refine List.foldlRecOn
    (motive := fun merged : KeyValueMap String GraphNode => merged[node.id]? = some node)
    _ _ held fun merged held given member => ?_
  unfold mergeNode
  by_cases named : given.id = node.id
  · obtain ⟨kind, fields⟩ := same given member named
    rw [named, held]
    dsimp only
    rw [lookup_insert, if_pos rfl, kind, extendProperties_eq sorted fields]
  · split <;> rw [lookup_insert, if_neg named, held]

theorem mergeNodes_own
    : (mergeNodes (projectionNodes codec vectorId metadata))[ownId codec vectorId
        metadata]? = some (ownNode codec vectorId metadata) := by
  rw [mergeNodes, projectionNodes_eq, foldl_cons, ← id_ownNode]
  refine mergeNode_keeps ?_ (sorted_ownNode ..) fun given member named => ?_
  · simp [mergeNode]
  · rw [id_ownNode] at named
    obtain ⟨_, rfl⟩ := eq_referredChunk member named
    exact ⟨(kind_ownNode ..).symm, fun field present => lookup_ownNode _ _ _ present⟩

theorem eq_referredChunk_of_merged {workspaceId referred}
    (found : (mergeNodes (projectionNodes codec vectorId
      metadata))[chunkNodeId workspaceId referred]? = some node)
    (other : chunkNodeId workspaceId referred ≠ ownId codec vectorId metadata)
    : workspaceId = workspaceIdFromMetadata codec metadata
      ∧ node = referredChunk workspaceId referred := by
  have referredOnly : ∀ given ∈ projectionNodes codec vectorId metadata,
      given.id = chunkNodeId workspaceId referred
      → workspaceId = workspaceIdFromMetadata codec metadata
        ∧ given = referredChunk workspaceId referred := by
    intro given member named
    rw [projectionNodes_eq] at member
    rcases mem_cons.mp member with rfl | later
    · exact absurd (named.symm.trans (id_ownNode ..)) other
    · exact eq_referredChunk later named
  revert node
  unfold mergeNodes
  refine List.foldlRecOn
    (motive := fun merged : KeyValueMap String GraphNode => ∀ {node : GraphNode},
      merged[chunkNodeId workspaceId referred]? = some node
        → workspaceId = workspaceIdFromMetadata codec metadata
          ∧ node = referredChunk workspaceId referred)
    _ _ (fun found => absurd found (by simp)) fun merged kept given member node found => ?_
  unfold mergeNode at found
  by_cases named : given.id = chunkNodeId workspaceId referred
  · obtain ⟨workspaces, rfl⟩ := referredOnly given member named
    refine ⟨workspaces, ?_⟩
    split at found
    · rw [lookup_insert, if_pos named] at found
      exact (Option.some.inj found).symm
    · next stored present =>
        obtain ⟨_, rfl⟩ := kept present
        rw [lookup_insert, if_pos named] at found
        rw [extendProperties_eq (sorted_referredChunk ..)
          fun field => lookup_field (sorted_referredChunk ..)] at found
        exact (Option.some.inj found).symm
  · split at found <;> rw [lookup_insert, if_neg named] at found <;> exact kept found

theorem sorted_of_merged {place : String}
    (found : (mergeNodes (projectionNodes codec vectorId metadata))[place]?
      = some node) : Json.FieldsSorted node.properties := by
  revert place node
  unfold mergeNodes
  refine List.foldlRecOn (motive := fun merged : KeyValueMap String GraphNode => ∀ {place : String}
      {node : GraphNode}, merged[place]? = some node → Json.FieldsSorted node.properties)
    _ _ (fun found => absurd found (by simp)) fun merged kept given member place node found => ?_
  unfold mergeNode at found
  split at found
  · rw [lookup_insert] at found
    split at found
    · cases found; exact sorted_of_mem_projectionNodes member
    · exact kept found
  · next stored present =>
      rw [lookup_insert] at found
      split at found
      · cases found; exact FieldsSorted_extendProperties (kept present)
      · exact kept found

end Merging

/-- An edge of a projection joins the vector's node and another, with the vector as its evidence. -/
structure ProjectedEdge (codec : JsonCodec) (vectorId : String) (metadata : List UInt8)
    (edge : GraphEdge) : Prop where
  evidence : edge.properties.lookup "evidence_chunk_id" = some (.string vectorId)
  finite : edge.weight.isFinite
  ends : ∃ node ∈ referredNodes codec vectorId metadata, ∃ kind raw,
    node.id = graphNodeId (workspaceIdFromMetadata codec metadata) kind raw
      ∧ ((edge.source = ownId codec vectorId metadata ∧ edge.target = node.id)
        ∨ (edge.source = node.id ∧ edge.target = ownId codec vectorId metadata))

/-- An edge that is made between the two nodes does. -/
theorem ProjectedEdge.of_graphEdge {codec vectorId metadata node} (nodeKind : NodeKind)
    (raw : String) {source target id kind} (among : node ∈ referredNodes codec vectorId metadata)
    (named : node.id = graphNodeId (workspaceIdFromMetadata codec metadata) nodeKind raw)
    (ends : (source = ownId codec vectorId metadata ∧ target = node.id)
      ∨ (source = node.id ∧ target = ownId codec vectorId metadata))
    : ProjectedEdge codec vectorId metadata
        { graphEdge (workspaceIdFromMetadata codec metadata) source target kind vectorId
            (metadataJson codec metadata) with id } := by
  let made := graphEdge (workspaceIdFromMetadata codec metadata) source target kind vectorId
    (metadataJson codec metadata)
  have evidence : made.properties.lookup "evidence_chunk_id" = some (.string vectorId) := by
    refine ((copyFields_properties (fun _ _ _ => rfl) (metadataJson codec metadata) _ _).1 _
      (by decide)).trans ?_
    exact (Json.lookup_insertField ..).trans (if_pos rfl)
  have kept : made.source = source ∧ made.target = target ∧ made.weight.isFinite := by
    unfold made graphEdge copyFields
    refine List.foldlRecOn (motive := fun edge : GraphEdge =>
      edge.source = source ∧ edge.target = target ∧ edge.weight.isFinite)
      _ _ ⟨rfl, rfl, rfl⟩ fun edge same key _ => ?_
    split <;> exact same
  refine ⟨evidence, kept.2.2, node, among, nodeKind, raw, named, ?_⟩
  exact ends.imp (.imp kept.1.trans kept.2.1.trans) (.imp kept.1.trans kept.2.1.trans)

theorem projectedEdge {codec vectorId metadata edge}
    (member : edge ∈ projectionEdges codec vectorId metadata)
    : ProjectedEdge codec vectorId metadata edge := by
  obtain ⟨reference, listed, present⟩ := mem_flatMap.mp member
  have among : ∀ node ∈ reference.nodes, node ∈ referredNodes codec vectorId metadata :=
    fun node held => mem_flatMap.mpr ⟨reference, listed, held⟩
  cases reference_shape listed with
  | parent id shape =>
    subst shape
    rcases mem_cons.mp present with rfl | later
    · exact .of_graphEdge .chunk id (among _ mem_cons_self) rfl (.inr ⟨rfl, rfl⟩)
    · cases mem_singleton.mp later
      exact .of_graphEdge .chunk id (among _ mem_cons_self) rfl (.inl ⟨rfl, rfl⟩)
  | related id shape =>
    subst shape
    rcases mem_cons.mp present with rfl | later
    · exact .of_graphEdge .chunk id (among _ mem_cons_self) rfl (.inl ⟨rfl, rfl⟩)
    · cases mem_singleton.mp later
      exact .of_graphEdge .chunk id (among _ mem_cons_self) rfl (.inr ⟨rfl, rfl⟩)
  | chunk kind id shape =>
    subst shape
    cases mem_singleton.mp present
    exact .of_graphEdge .chunk id (among _ mem_cons_self) rfl (.inl ⟨rfl, rfl⟩)
  | outgoing nodeKind kind id _ shape =>
    subst shape
    cases mem_singleton.mp present
    exact .of_graphEdge nodeKind id (among _ mem_cons_self) rfl (.inl ⟨rfl, rfl⟩)
  | container nodeKind fields id _ shape =>
    subst shape
    cases mem_singleton.mp present
    have named := (copyFields_node (metadataJson codec metadata) fields
      (graphNode (workspaceIdFromMetadata codec metadata)
        (graphNodeId (workspaceIdFromMetadata codec metadata) nodeKind id) nodeKind id)).1
    exact .of_graphEdge nodeKind id (among _ mem_cons_self) named (.inr ⟨named.symm, rfl⟩)

end AkiDB.Vectors
