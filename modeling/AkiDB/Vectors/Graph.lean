import AkiDB.Common.Error
import AkiDB.Library.AtomicBatch
import AkiDB.Vectors.Metadata

/-!
The native graph index: nodes and edges by id, projection batches, and the neighbourhood search.
-/

namespace AkiDB.Vectors
open AkiDB.Common AtomicBatch Checked

def stripLeading : List Char → List Char → Option (List Char)
  | [], text => some text
  | _ :: _, [] => none
  | expected :: leading, char :: text =>
    if expected = char then stripLeading leading text else none

def splitOnce (separator : Char) : List Char → Option (List Char × List Char)
  | [] => none
  | char :: rest =>
    if char = separator then some ([], rest)
    else (splitOnce separator rest).map fun parts => (char :: parts.1, parts.2)

def parseDigits (value : Nat) : List Char → Option Nat
  | [] => some value
  | digit :: rest =>
    if digit.isDigit ∧ 10 * value + (digit.toNat - '0'.toNat) < 2 ^ 64 then
      parseDigits (10 * value + (digit.toNat - '0'.toNat)) rest
    else none

def parseUsize (text : List Char) : Option Nat :=
  match text with
  | [] => none
  | ['+'] => none
  | '+' :: digits => parseDigits 0 digits
  | digits => parseDigits 0 digits

/-- Split a text after a number of bytes; there is none inside a character. -/
def splitAtBytes : Nat → List Char → Option (List Char × List Char)
  | 0, text => some ([], text)
  | _ + 1, [] => none
  | count + 1, char :: rest =>
    if char.utf8Size ≤ count + 1 then
      (splitAtBytes (count + 1 - char.utf8Size) rest).map fun parts =>
        (char :: parts.1, parts.2)
    else none

namespace GraphNodeId

def scopedId (workspaceId localId : String) : String :=
  s!"workspace:{workspaceId.utf8ByteSize}:{workspaceId}:{localId}"

variable (id : String)

def scopedParts : Option (String × String) := do
  let rest ← stripLeading "workspace:".toList id.toList
  let (length, rest) ← splitOnce ':' rest
  let length ← parseUsize length
  let (workspace, rest) ← splitAtBytes length rest
  match rest with
  | ':' :: localId => some (String.ofList workspace, String.ofList localId)
  | _ => none

def workspaceId : Option String :=
  (scopedParts id).map Prod.fst

def localId : String :=
  ((scopedParts id).map Prod.snd).getD id

def isSameWorkspace (left right : String) : Prop :=
  workspaceId left = workspaceId right

instance (left right : String) : Decidable (isSameWorkspace left right) :=
  inferInstanceAs (Decidable (_ = _))

def asChunkVectorId : Option String :=
  (stripLeading "chunk:".toList (localId id).toList).map String.ofList

end GraphNodeId

inductive NodeKind where
  | document
  | chunk
  | section
  | file
  | function
  | type
  | module
  | commit
  | person
  | entity
  | memory
  deriving DecidableEq

def NodeKind.asKey : NodeKind → String
  | document => "document"
  | chunk => "chunk"
  | .section => "section"
  | file => "file"
  | function => "function"
  | type => "type"
  | module => "module"
  | commit => "commit"
  | person => "person"
  | entity => "entity"
  | memory => "memory"

inductive EdgeKind where
  | parentOf
  | childOf
  | contains
  | mentions
  | imports
  | calls
  | implements
  | tests
  | testedBy
  | dependsOn
  | ownedBy
  | changedBy
  | relatedTo
  deriving DecidableEq

def EdgeKind.asKey : EdgeKind → String
  | parentOf => "parent_of"
  | childOf => "child_of"
  | contains => "contains"
  | mentions => "mentions"
  | imports => "imports"
  | calls => "calls"
  | implements => "implements"
  | tests => "tests"
  | testedBy => "tested_by"
  | dependsOn => "depends_on"
  | ownedBy => "owned_by"
  | changedBy => "changed_by"
  | relatedTo => "related_to"

structure GraphNode where
  id : String
  kind : NodeKind
  properties : List (String × Json)

namespace GraphNode

def new (id : String) (kind : NodeKind) : GraphNode where
  id := id
  kind := kind
  properties := []

def withProperty (node : GraphNode) (key : String) (value : Json) : GraphNode :=
  { node with properties := Json.insertField node.properties key value }

end GraphNode

structure GraphEdge where
  id : String
  source : String
  target : String
  kind : EdgeKind
  weight : Score
  properties : List (String × Json)

namespace GraphEdge

def new (id source target : String) (kind : EdgeKind) : GraphEdge where
  id := id
  source := source
  target := target
  kind := kind
  weight := .finite 1
  properties := []

def withProperty (edge : GraphEdge) (key : String) (value : Json) : GraphEdge :=
  { edge with properties := Json.insertField edge.properties key value }

end GraphEdge

structure GraphMutationBatch where
  deleteEdges : List String
  replaceNodes : List String
  nodes : List GraphNode
  edges : List GraphEdge

def GraphMutationBatch.isEmpty (batch : GraphMutationBatch) : Bool :=
  batch.deleteEdges.isEmpty && batch.replaceNodes.isEmpty && batch.nodes.isEmpty
    && batch.edges.isEmpty

inductive GraphError where
  | invalidRequest (message : String)
  | storage (message : String)
  deriving DecidableEq

def GraphError.display : GraphError → String
  | invalidRequest message => s!"invalid graph request: {message}"
  | storage message => s!"storage error: {message}"

structure GraphIndex where
  nodes : KeyValueMap String GraphNode
  edges : KeyValueMap String GraphEdge

namespace GraphIndex

def empty : GraphIndex where
  nodes := ∅
  edges := ∅

def extendProperties (properties added : List (String × Json)) : List (String × Json) :=
  added.foldl (fun properties field => Json.insertField properties field.1 field.2) properties

/-- One more node of a batch: nodes of one id are merged. -/
def mergeNode (nodes : KeyValueMap String GraphNode) (node : GraphNode)
    : KeyValueMap String GraphNode :=
  match nodes[node.id]? with
  | none => nodes.insert node.id node
  | some merged => nodes.insert node.id
      { merged with
        kind := node.kind
        properties := extendProperties merged.properties node.properties }

def mergeNodes (nodes : List GraphNode) : KeyValueMap String GraphNode :=
  nodes.foldl mergeNode ∅

def edgesById (edges : List GraphEdge) : KeyValueMap String GraphEdge :=
  edges.foldl (fun map edge => map.insert edge.id edge) ∅

/-- Write one merged node: its properties replace the stored ones or extend them. -/
def upsertNode (nodes : KeyValueMap String GraphNode) (replaceNodes : List String)
    (node : GraphNode) : KeyValueMap String GraphNode :=
  match nodes[node.id]? with
  | none => nodes.insert node.id node
  | some existing =>
    if replaceNodes.contains node.id then nodes.insert node.id node
    else nodes.insert node.id
      { node with properties := extendProperties existing.properties node.properties }

/-- The graph after a batch: edges deleted, nodes written, edges written. -/
def applied (graph : GraphIndex) (batch : GraphMutationBatch) : GraphIndex where
  nodes := ((mergeNodes batch.nodes).toList.map Prod.snd).foldl
    (fun nodes node => upsertNode nodes batch.replaceNodes node) graph.nodes
  edges := ((edgesById batch.edges).toList.map Prod.snd).foldl
    (fun edges edge => edges.insert edge.id edge)
    (batch.deleteEdges.foldl (fun edges id => edges.erase id) graph.edges)

def checkEdge (edge : GraphEdge) : Except GraphError Unit := do
  rejectIf (edge.weight.isFinite = false) (.invalidRequest s!"edge {edge.id} has non-finite weight")
  rejectIf (¬GraphNodeId.isSameWorkspace edge.source edge.target)
    (.invalidRequest s!"edge {edge.id} crosses graph workspace namespaces")

/-- Write a batch atomically; an edge that does not pass its checks fails it. -/
def upsertBatch (graph : GraphIndex) (fault : Option GraphError) (batch : GraphMutationBatch)
    : Except GraphError GraphIndex :=
  if batch.isEmpty then .ok graph
  else do
    checkEach checkEdge ((edgesById batch.edges).toList.map Prod.snd)
    match fault with
    | some error => .error error
    | none => .ok (graph.applied batch)

def without (graph : GraphIndex) (nodeId : String) : GraphIndex where
  nodes := graph.nodes.erase nodeId
  edges := graph.edges.filter fun _ edge => edge.source ≠ nodeId ∧ edge.target ≠ nodeId

/-- Delete a node with the edges at it; edges at an unknown node stay. -/
def deleteNode (graph : GraphIndex) (fault : Option GraphError) (nodeId : String)
    : Except GraphError GraphIndex :=
  match graph.nodes[nodeId]? with
  | none => .ok graph
  | some _ => match fault with
    | some error => .error error
    | none => .ok (graph.without nodeId)

def countNodesOfKind (graph : GraphIndex) (kind : NodeKind) : Nat :=
  (graph.nodes.toList.filter fun row => row.2.kind = kind).length

inductive Direction where
  | out
  | into
  | both
  deriving DecidableEq

structure NeighborRequest where
  nodeId : String
  direction : Direction
  edgeKinds : List EdgeKind
  limit : Nat
  minWeight : Option Score

structure GraphNeighbor where
  node : GraphNode
  edge : GraphEdge

/-- The order of adjacency rows of one node: by kind, then by edge id. -/
def adjacencyBefore (left right : GraphEdge) : Prop :=
  ((compare left.kind.asKey right.kind.asKey).then (compare left.id right.id)) ≠ .gt

instance (left right : GraphEdge) : Decidable (adjacencyBefore left right) :=
  inferInstanceAs (Decidable (_ ≠ _))

def edgeRefsFor (graph : GraphIndex) (atNode : GraphEdge → Bool) (kind : Option EdgeKind)
    (limit : Nat) : List GraphEdge :=
  (((graph.edges.toList.map Prod.snd).filter fun edge =>
    atNode edge && kind.all (edge.kind = ·)).insertionSort adjacencyBefore).take limit

def edgeRefsForNode (graph : GraphIndex) (nodeId : String) (direction : Direction)
    (kinds : List EdgeKind) (limit : Nat) : List (GraphEdge × Bool) :=
  let selectedKinds := if kinds = [] then [none] else kinds.map some
  selectedKinds.flatMap fun kind =>
    (if direction ≠ .into then
      (graph.edgeRefsFor (·.source = nodeId) kind limit).map (·, true) else [])
    ++ if direction ≠ .out then
      (graph.edgeRefsFor (·.target = nodeId) kind limit).map (·, false) else []

def graphNeighbor (graph : GraphIndex) (nodeId : String) (ref : GraphEdge × Bool)
    : Option GraphNeighbor :=
  match graph.nodes[if ref.2 then ref.1.target else ref.1.source]? with
  | none => none
  | some node =>
    if GraphNodeId.isSameWorkspace nodeId node.id then some ⟨node, ref.1⟩ else none

def distinctRefs (refs : List (GraphEdge × Bool)) : List (GraphEdge × Bool) :=
  refs.foldl (fun kept ref =>
    if kept.any (·.1.id = ref.1.id) then kept else kept ++ [ref]) []

def neighborBefore (left right : GraphNeighbor) : Prop :=
  ((((right.edge.weight.partialCmp left.edge.weight).getD .eq).then
    (compare left.node.id right.node.id)).then (compare left.edge.id right.edge.id)) ≠ .gt

instance (left right : GraphNeighbor) : Decidable (neighborBefore left right) :=
  inferInstanceAs (Decidable (_ ≠ _))

def neighbors (graph : GraphIndex) (request : NeighborRequest) : List GraphNeighbor :=
  let refs := distinctRefs (graph.edgeRefsForNode request.nodeId request.direction
    request.edgeKinds (request.limit * 4))
  let neighbors := (refs.filterMap (graph.graphNeighbor request.nodeId)).filter fun neighbor =>
    request.minWeight.all neighbor.edge.weight.ge
  (neighbors.insertionSort neighborBefore).take request.limit

structure RelatedChunksRequest where
  nodeId : String
  edgeKinds : List EdgeKind
  maxDepth : Nat
  perHopLimit : Nat
  limit : Nat

def RelatedChunksRequest.hopFrom (request : RelatedChunksRequest) (nodeId : String)
    : NeighborRequest where
  nodeId := nodeId
  direction := .both
  edgeKinds := request.edgeKinds
  limit := request.perHopLimit
  minWeight := none

structure RelatedChunkTrace where
  vectorId : String
  viaNode : String
  hop : Nat
  pathEdges : List GraphEdge

/-- A breadth-first search: what is found, reached and waiting, and whether the limit ended it. -/
structure Traversal where
  chunks : List RelatedChunkTrace
  visited : List String
  queue : List (String × Nat × List GraphEdge)
  full : Bool

def Traversal.visit (request : RelatedChunksRequest) (depth : Nat) (path : List GraphEdge)
    (traversal : Traversal) (neighbor : GraphNeighbor) : Traversal :=
  let neighborId := neighbor.node.id
  if traversal.full ∨ ¬GraphNodeId.isSameWorkspace request.nodeId neighborId then traversal
  else
    let nextPath := path ++ [neighbor.edge]
    let found := match GraphNodeId.asChunkVectorId neighborId with
      | some vectorId =>
        if neighborId ≠ request.nodeId
            ∧ ¬traversal.chunks.any (·.vectorId = vectorId) then
          traversal.chunks ++ [⟨vectorId, neighborId, depth + 1, nextPath⟩]
        else traversal.chunks
      | none => traversal.chunks
    if traversal.chunks.length < found.length ∧ request.limit ≤ found.length then
      { traversal with chunks := found, full := true }
    else if depth + 1 < request.maxDepth ∧ neighborId ∉ traversal.visited then
      { chunks := found
        visited := neighborId :: traversal.visited
        queue := traversal.queue ++ [(neighborId, depth + 1, nextPath)]
        full := false }
    else { traversal with chunks := found }

/-- Work off the queue; each node enters it at most once. -/
def traverse (graph : GraphIndex) (request : RelatedChunksRequest)
    : Nat → Traversal → Traversal
  | 0, traversal => traversal
  | fuel + 1, traversal => match traversal.queue with
    | [] => traversal
    | (nodeId, depth, path) :: queue =>
      let popped := { traversal with queue := queue }
      if traversal.full then traversal
      else if request.maxDepth ≤ depth then graph.traverse request fuel popped
      else graph.traverse request fuel ((graph.neighbors (request.hopFrom nodeId)).foldl
          (Traversal.visit request depth path) popped)

def relatedChunksWithTrace (graph : GraphIndex) (request : RelatedChunksRequest)
    : Except GraphError (List RelatedChunkTrace) :=
  if request.limit = 0 ∨ request.maxDepth = 0 then .ok []
  else if 3 < request.maxDepth then
    .error (.invalidRequest "related_chunks max_depth is capped at 3")
  else .ok (graph.traverse request (graph.nodes.size + 2)
    { chunks := []
      visited := [request.nodeId]
      queue := [(request.nodeId, 0, [])]
      full := false }).chunks

end GraphIndex

end AkiDB.Vectors
