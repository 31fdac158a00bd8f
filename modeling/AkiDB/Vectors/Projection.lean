import AkiDB.Vectors.Graph

/-! How the metadata of a vector is projected into the graph. -/

namespace AkiDB.Vectors
open AkiDB.Common AtomicBatch Checked

def graphProjectionEdgeIds : String := "_projection_edge_ids"

def workspaceIdFromMetadataValue (metadata : Option Json) : String :=
  (((metadata.bind (·.get workspaceKey)).bind Json.asStr).filter (· ≠ "")).getD "default"

def metadataStringValues (metadata : Option Json) (key : String) : List String :=
  match metadata.bind (·.get key) with
  | some (.string value) => if value ≠ "" then [value] else []
  | some (.array values) => (values.filterMap Json.asStr).filter (· ≠ "")
  | _ => []

section Metadata

variable (codec : JsonCodec)

variable (metadata : List UInt8)

def metadataJson : Option Json :=
  (codec.parse metadata).toOption

def workspaceIdFromMetadata : String :=
  workspaceIdFromMetadataValue (metadataJson codec metadata)

def parentIdFromMetadata : Option String :=
  if metadata = [] then none
  else ((metadataJson codec metadata).bind (·.get "parent_id")).bind Json.asStr

def relatedIdsFromMetadata : List String :=
  if metadata = [] then []
  else metadataStringValues (metadataJson codec metadata) "related_ids"

end Metadata

def scopedGraphNodeId (workspaceId localId : String) : String :=
  if workspaceId = "default" then localId else GraphNodeId.scopedId workspaceId localId

def chunkNodeId (workspaceId vectorId : String) : String :=
  scopedGraphNodeId workspaceId s!"chunk:{vectorId}"

def graphNodeId (workspaceId : String) (kind : NodeKind) (id : String) : String :=
  scopedGraphNodeId workspaceId s!"{kind.asKey}:{id}"

def graphEdgeId (kind : EdgeKind) (source target : String) : String :=
  s!"auto:{kind.asKey}:{source}:{target}"

def scopedLegacyEdgeId (workspaceId edgeId : String) : String :=
  if workspaceId = "default" then edgeId
  else s!"workspace:{workspaceId.utf8ByteSize}:{workspaceId}:{edgeId}"

def graphNode (workspaceId nodeId : String) (kind : NodeKind) (rawId : String) : GraphNode :=
  ((GraphNode.new nodeId kind).withProperty "id" (.string rawId)).withProperty workspaceKey
    (.string workspaceId)

def copyFields {α : Type} (withProperty : α → String → Json → α) (metadata : Option Json)
    (keys : List String) (target : α) : α :=
  keys.foldl (fun target key => match metadata.bind (·.get key) with
    | some value => withProperty target key value
    | none => target) target

def graphEdge (workspaceId source target : String) (kind : EdgeKind)
    (evidenceChunkId : String) (metadata : Option Json) : GraphEdge :=
  copyFields GraphEdge.withProperty metadata
    ["source_uri", "source_version", "extraction_method", "pipeline_version"]
    (((GraphEdge.new (graphEdgeId kind source target) source target kind).withProperty
      workspaceKey (.string workspaceId)).withProperty "evidence_chunk_id"
      (.string evidenceChunkId))

def referredChunk (workspaceId vectorId : String) : GraphNode :=
  (graphNode workspaceId (chunkNodeId workspaceId vectorId) .chunk vectorId).withProperty
    "vector_id" (.string vectorId)

def ownChunk (workspaceId vectorId : String) (metadata : Option Json) : GraphNode :=
  copyFields GraphNode.withProperty metadata
    ["source_uri", "source_object_id", "source_version", "document_id", "chunk_index",
      "start_offset", "end_offset", "extraction_method", "pipeline_version"]
    (referredChunk workspaceId vectorId)

structure Reference where
  nodes : List GraphNode
  edges : List GraphEdge

section References

variable (workspaceId vectorId : String) (metadata : Option Json)

def parentReference (parentId : String) : Reference :=
  let own := chunkNodeId workspaceId vectorId
  let parent := chunkNodeId workspaceId parentId
  { nodes := [referredChunk workspaceId parentId]
    edges :=
      [{ graphEdge workspaceId parent own .parentOf vectorId metadata with
          id := scopedLegacyEdgeId workspaceId s!"auto:parent_of:{parentId}:{vectorId}" },
        { graphEdge workspaceId own parent .childOf vectorId metadata with
          id := scopedLegacyEdgeId workspaceId s!"auto:child_of:{vectorId}:{parentId}" }] }

def relatedReference (relatedId : String) : Reference :=
  let own := chunkNodeId workspaceId vectorId
  let related := chunkNodeId workspaceId relatedId
  { nodes := [referredChunk workspaceId relatedId]
    edges :=
      [{ graphEdge workspaceId own related .relatedTo vectorId metadata with
          id := scopedLegacyEdgeId workspaceId s!"auto:related_to:{vectorId}:{relatedId}" },
        { graphEdge workspaceId related own .relatedTo vectorId metadata with
          id := scopedLegacyEdgeId workspaceId s!"auto:related_to:{relatedId}:{vectorId}" }] }

def chunkReference (kind : EdgeKind) (targetId : String) : Reference where
  nodes := [referredChunk workspaceId targetId]
  edges := [graphEdge workspaceId (chunkNodeId workspaceId vectorId)
    (chunkNodeId workspaceId targetId) kind vectorId metadata]

def outgoingReference (nodeKind : NodeKind) (edgeKind : EdgeKind) (id : String)
    : Reference where
  nodes := [graphNode workspaceId (graphNodeId workspaceId nodeKind id) nodeKind id]
  edges := [graphEdge workspaceId (chunkNodeId workspaceId vectorId)
    (graphNodeId workspaceId nodeKind id) edgeKind vectorId metadata]

/-- A reference to a node of another kind that contains the chunk, with fields copied to it. -/
def containerReference (nodeKind : NodeKind) (fields : List String) (id : String)
    : Reference where
  nodes := [copyFields GraphNode.withProperty metadata fields
    (graphNode workspaceId (graphNodeId workspaceId nodeKind id) nodeKind id)]
  edges := [graphEdge workspaceId (graphNodeId workspaceId nodeKind id)
    (chunkNodeId workspaceId vectorId) .contains vectorId metadata]

end References

def chunkEdgeFields : List (String × EdgeKind) :=
  [("imports", .imports), ("calls", .calls), ("depends_on", .dependsOn), ("tests", .tests),
    ("tested_by", .testedBy)]

def structuralFields : List (String × NodeKind) :=
  [("document_id", .document), ("section_id", .section)]

section Chunk

variable (codec : JsonCodec)

variable (vectorId : String)

/-- The references of the metadata in the order in which they are projected. -/
def references (metadata : List UInt8) : List Reference :=
  let json := metadataJson codec metadata
  let workspaceId := workspaceIdFromMetadataValue json
  let values := metadataStringValues json
  (parentIdFromMetadata codec metadata).toList.map (parentReference workspaceId vectorId json)
    ++ (relatedIdsFromMetadata codec metadata).map (relatedReference workspaceId vectorId json)
    ++ chunkEdgeFields.flatMap (fun field =>
      (values field.1).map (chunkReference workspaceId vectorId json field.2))
    ++ (values "owned_by").map (outgoingReference workspaceId vectorId json .person .ownedBy)
    ++ (values "changed_by").map (outgoingReference workspaceId vectorId json .commit .changedBy)
    ++ structuralFields.flatMap (fun field => (values field.1).map
      (containerReference workspaceId vectorId json field.2
        ["source_uri", "source_version", "source_object_id"]))
    ++ (values "file").map (containerReference workspaceId vectorId json .file [])
    ++ (values "symbol").map (containerReference workspaceId vectorId json .function [])

def projectionEdges (metadata : List UInt8) : List GraphEdge :=
  (references codec vectorId metadata).flatMap (·.edges)

/-- The nodes of the projection: the chunk with the ids of its edges, then those it refers to. -/
def projectionNodes (metadata : List UInt8) : List GraphNode :=
  let json := metadataJson codec metadata
  (ownChunk (workspaceIdFromMetadataValue json) vectorId json).withProperty graphProjectionEdgeIds
      (.array ((sortedDistinct ((projectionEdges codec vectorId metadata).map (·.id))).map
        Json.string))
    :: (references codec vectorId metadata).flatMap (·.nodes)

def graphEdgeIdsFromMetadata (metadata : List UInt8) : List String :=
  (projectionEdges codec vectorId metadata).map (·.id)

end Chunk

def storedGraphProjectionEdgeIds (graph : GraphIndex) (chunkNodeId vectorId : String)
    : Option (List String) :=
  match (graph.nodes[chunkNodeId]?).bind
      (fun node => (node.properties.lookup graphProjectionEdgeIds).bind Json.asArray) with
  | none => none
  | some values => some ((values.filterMap Json.asStr).filter fun edgeId =>
    match graph.edges[edgeId]? with
    | some edge =>
      (edge.properties.lookup "evidence_chunk_id").bind Json.asStr = some vectorId
    | none => false)

def graphChunkBatch (codec : JsonCodec) (graph : GraphIndex) (vectorId : String)
    (metadata : List UInt8) (previousMetadata : Option (List UInt8))
    : GraphMutationBatch :=
  let own := chunkNodeId (workspaceIdFromMetadata codec metadata) vectorId
  { deleteEdges := match storedGraphProjectionEdgeIds graph own vectorId with
      | some edgeIds => edgeIds
      | none => (previousMetadata.map (graphEdgeIdsFromMetadata codec vectorId)).getD []
    replaceNodes := [own]
    nodes := projectionNodes codec vectorId metadata
    edges := projectionEdges codec vectorId metadata }

def indexGraphChunk (codec : JsonCodec) (graph : Option GraphIndex)
    (fault : Option GraphError) (vectorId : String) (metadata : List UInt8)
    (previousMetadata : Option (List UInt8)) : Except GraphError (Option GraphIndex) :=
  match graph with
  | none => .ok none
  | some graph =>
    (graph.upsertBatch fault
      (graphChunkBatch codec graph vectorId metadata previousMetadata)).map some

def deleteGraphChunk (codec : JsonCodec) (graph : Option GraphIndex)
    (fault : Option GraphError) (vectorId : String) (metadata : List UInt8)
    : Except GraphError (Option GraphIndex) :=
  match graph with
  | none => .ok none
  | some graph =>
    (graph.deleteNode fault
      (chunkNodeId (workspaceIdFromMetadata codec metadata) vectorId)).map some

end AkiDB.Vectors
