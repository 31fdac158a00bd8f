import AkiDB.Library.DerivedRows
import AkiDB.Library.Runs
import AkiDB.Vectors.GraphStates

/-!
The index rows of the native graph store follow from its records unless a batch takes away a
shared chunk link.
-/

namespace AkiDB.Vectors
open AkiDB.Common AtomicBatch Checked KeyedMaps DerivedRows GraphIndex List Prod

inductive IndexRow where
  | outgoing (source : String) (kind : EdgeKind) (edgeId : String)
  | incoming (target : String) (kind : EdgeKind) (edgeId : String)
  | chunk (entity chunk : String)
  | kind (kind : NodeKind) (nodeId : String)
  deriving DecidableEq

def IndexRow.refers (nodeId edgeId : String) : IndexRow → Bool
  | outgoing source _ id => source = nodeId && id = edgeId
  | incoming target _ id => target = nodeId && id = edgeId
  | _ => false

/-- The store: the records and the index rows, whose values follow from their keys. -/
structure GraphStore extends GraphIndex where
  rows : Finset IndexRow

namespace GraphStore

abbrev RowOperation : Type :=
  BatchOperation IndexRow Unit

def new : GraphStore where
  toGraphIndex := GraphIndex.empty
  rows := ∅

def storedEdges (store : GraphStore) : List GraphEdge :=
  store.edges.toList.map snd

def shouldLinkChunk (edge : GraphEdge) : Bool :=
  (GraphNodeId.asChunkVectorId edge.target).isSome &&
    match edge.kind with
    | .calls | .contains | .dependsOn | .imports | .mentions | .parentOf | .relatedTo
    | .testedBy | .tests => true
    | _ => false

def edgeRows (edge : GraphEdge) : List IndexRow :=
  [.outgoing edge.source edge.kind edge.id, .incoming edge.target edge.kind edge.id]
    ++ if shouldLinkChunk edge then [.chunk edge.source edge.target] else []

/-- The operations on index rows; those on the records are in `GraphIndex.applied`. -/
def nodeUpsertOperations (store : GraphStore) (node : GraphNode) : List RowOperation :=
  (match store.nodes[node.id]? with
    | some existing =>
      if existing.kind ≠ node.kind then [.delete (.kind existing.kind node.id)] else []
    | none => [])
  ++ [.put (.kind node.kind node.id) ()]

def edgeDeleteOperations (edge : GraphEdge) : List RowOperation :=
  (edgeRows edge).map .delete

def edgeUpsertOperations (store : GraphStore) (edge : GraphEdge) : List RowOperation :=
  (match store.edges[edge.id]? with
    | some existing => edgeDeleteOperations existing
    | none => [])
  ++ (edgeRows edge).map (.put · ())

def writtenEdges (batch : GraphMutationBatch) : List GraphEdge :=
  (edgesById batch.edges).toList.map snd

def deletedEdges (store : GraphStore) (batch : GraphMutationBatch) : List GraphEdge :=
  store.storedEdges.filter (·.id ∈ batch.deleteEdges)

def rowOperations (store : GraphStore) (batch : GraphMutationBatch) : List RowOperation :=
  (store.deletedEdges batch).flatMap edgeDeleteOperations
    ++ ((mergeNodes batch.nodes).toList.map snd).flatMap store.nodeUpsertOperations
    ++ (writtenEdges batch).flatMap store.edgeUpsertOperations

def written (store : GraphStore) (batch : GraphMutationBatch) : GraphStore where
  toGraphIndex := store.applied batch
  rows := applyRows store.rows (store.rowOperations batch)

def upsertBatch (store : GraphStore) (fault : Option GraphError) (batch : GraphMutationBatch)
    : Except GraphError GraphStore :=
  if batch.isEmpty then .ok store
  else do
    checkEach checkEdge (writtenEdges batch)
    match fault with
    | some error => .error error
    | none => .ok (store.written batch)

def edgeRefsAt (store : GraphStore) (nodeId : String) : List GraphEdge :=
  store.storedEdges.filter fun edge => ∃ row ∈ store.rows, row.refers nodeId edge.id

/-- The store without some of its edges and one of its nodes. -/
def removed (store : GraphStore) (edges : List GraphEdge) (node : Option GraphNode)
    : GraphStore where
  nodes := node.elim store.nodes fun node => store.nodes.erase node.id
  edges := (edges.map GraphEdge.id).foldl (fun edges id => edges.erase id) store.edges
  rows := applyRows store.rows (edges.flatMap edgeDeleteOperations
      ++ node.elim [] fun node => [.delete (.kind node.kind node.id)])

structure DeleteNodeResult where
  deleted : Bool
  edgesDeleted : Nat

def deleteNode (store : GraphStore) (fault : Option GraphError) (nodeId : String)
    : Except GraphError (GraphStore × DeleteNodeResult) :=
  match store.nodes[nodeId]? with
  | none => .ok (store, ⟨false, 0⟩)
  | some node =>
    match fault with
    | some error => .error error
    | none =>
      let edges := store.edgeRefsAt nodeId
      .ok (store.removed edges (some node), ⟨true, edges.length⟩)

def deleteEdge (store : GraphStore) (fault : Option GraphError) (edgeId : String)
    : Except GraphError (GraphStore × Bool) :=
  match store.edges[edgeId]? with
  | none => .ok (store, false)
  | some edge =>
    match fault with
    | some error => .error error
    | none => .ok (store.removed [edge] none, true)

end GraphStore

inductive GraphAction where
  | upsertNode (fault : Option GraphError) (node : GraphNode)
  | upsertEdge (fault : Option GraphError) (edge : GraphEdge)
  | upsertBatch (fault : Option GraphError) (batch : GraphMutationBatch)
  | deleteEdge (fault : Option GraphError) (edgeId : String)
  | deleteNode (fault : Option GraphError) (nodeId : String)

namespace GraphAction

def batch : GraphAction → GraphMutationBatch
  | upsertNode _ node =>
    { deleteEdges := [], replaceNodes := [node.id], nodes := [node], edges := [] }
  | upsertEdge _ edge =>
    { deleteEdges := [], replaceNodes := [], nodes := [], edges := [edge] }
  | upsertBatch _ batch => batch
  | _ => { deleteEdges := [], replaceNodes := [], nodes := [], edges := [] }

/-- A call that fails leaves the store as it was. -/
def perform (store : GraphStore) (action : GraphAction) : GraphStore :=
  match action with
  | upsertNode fault _ | upsertEdge fault _ | upsertBatch fault _ =>
    (store.upsertBatch fault action.batch).toOption.getD store
  | deleteEdge fault edgeId =>
    ((store.deleteEdge fault edgeId).toOption.map fst).getD store
  | deleteNode fault nodeId =>
    ((store.deleteNode fault nodeId).toOption.map fst).getD store

end GraphAction

namespace GraphStore

/-! Chunk links that edges share -/

/-- Both edges call for one chunk link. -/
def SameLink (left right : GraphEdge) : Prop :=
  shouldLinkChunk left ∧ shouldLinkChunk right
    ∧ left.source = right.source ∧ left.target = right.target

instance (left right : GraphEdge) : Decidable (SameLink left right) :=
  inferInstanceAs (Decidable (_ ∧ _))

/-- A deleted link is put again by an edge that is written later, or no edge calls for it. -/
def LinksKept (store : GraphStore) (touched : String → Prop) (writes : List GraphEdge) : Prop :=
  ∀ old ∈ store.storedEdges, touched old.id → (∃ edge ∈ writes, SameLink old edge
      ∧ (old.id ∈ writes.map GraphEdge.id → compare edge.id old.id ≠ .lt))
    ∨ (∀ edge ∈ writes, ¬SameLink old edge)
      ∧ ∀ other ∈ store.storedEdges, ¬touched other.id → ¬SameLink old other

instance (store : GraphStore) (touched : String → Prop) [DecidablePred touched]
    (writes : List GraphEdge) : Decidable (store.LinksKept touched writes) :=
  inferInstanceAs (Decidable (∀ old ∈ store.storedEdges, _ → _))

/-- The condition on a call; the deletion of a node needs none. -/
def Permits (store : GraphStore) : GraphAction → Prop
  | .deleteEdge _ edgeId => store.LinksKept (· = edgeId) []
  | .deleteNode .. => True
  | action => store.LinksKept
      (fun id => id ∈ action.batch.deleteEdges ∨ id ∈ (writtenEdges action.batch).map GraphEdge.id)
      (writtenEdges action.batch)

instance (store : GraphStore) (action : GraphAction) : Decidable (store.Permits action) := by
  cases action <;> unfold Permits <;> infer_instance

/-! Records of the store and their rows -/

abbrev GraphRecord : Type :=
  GraphEdge ⊕ GraphNode

def recordKey : GraphRecord → String ⊕ String :=
  Sum.map GraphEdge.id GraphNode.id

def rowsOf : GraphRecord → List IndexRow :=
  Sum.elim edgeRows fun node => [.kind node.kind node.id]

def Has (store : GraphStore) : GraphRecord → Prop :=
  Sum.elim (fun edge => store.edges[edge.id]? = some edge)
    fun node => store.nodes[node.id]? = some node

/-- The order in which a batch writes its records. -/
def WrittenBefore : GraphRecord → GraphRecord → Prop
  | .inl left, .inl right => compare left.id right.id = .lt
  | .inr left, .inr right => compare left.id right.id = .lt
  | .inr _, .inl _ => True
  | .inl _, .inr _ => False

structure Keyed (store : GraphStore) : Prop where
  edges : ∀ (place : String) edge, store.edges[place]? = some edge → edge.id = place
  nodes : ∀ (place : String) node, store.nodes[place]? = some node → node.id = place

variable {store : GraphStore} {batch : GraphMutationBatch}

variable {edge : GraphEdge} {row : IndexRow} {record : GraphRecord} {edges : List GraphEdge}
  {node : Option GraphNode} {nodeId : String}

theorem mem_edgeRows
    : row ∈ edgeRows edge ↔ row = .outgoing edge.source edge.kind edge.id
      ∨ row = .incoming edge.target edge.kind edge.id
      ∨ shouldLinkChunk edge ∧ row = .chunk edge.source edge.target := by
  unfold edgeRows
  rw [mem_append, mem_cons, mem_singleton, or_assoc]
  split <;> simp_all

theorem Keyed.mem_storedEdges (keyed : store.Keyed)
    : edge ∈ store.storedEdges ↔ store.edges[edge.id]? = some edge := by
  refine mem_values.trans ⟨?_, fun found => ⟨edge.id, found⟩⟩
  rintro ⟨place, found⟩
  exact keyed.edges place edge found ▸ found

theorem mem_writtenEdges
    : edge ∈ writtenEdges batch ↔ (edgesById batch.edges)[edge.id]? = some edge := by
  refine mem_values.trans ⟨?_, fun found => ⟨edge.id, found⟩⟩
  rintro ⟨place, found⟩
  exact ((edgesById_sound batch.edges).1 place edge found).1 ▸ found

def writtenNodes (store : GraphStore) (batch : GraphMutationBatch) : List GraphNode :=
  ((mergeNodes batch.nodes).toList.map snd).map fun node =>
    writtenNode batch.replaceNodes store.nodes[node.id]? node

def writtenRecords (store : GraphStore) (batch : GraphMutationBatch) : List GraphRecord :=
  (store.writtenNodes batch).map .inr ++ (writtenEdges batch).map .inl

theorem mem_writtenNodes {node}
    : node ∈ store.writtenNodes batch ↔ ∃ given, (mergeNodes batch.nodes)[node.id]? = some given
      ∧ node = writtenNode batch.replaceNodes store.nodes[node.id]? given := by
  have named {place : String} {given : GraphNode}
      (found : (mergeNodes batch.nodes)[place]? = some given) : given.id = place :=
    ((mergeNodes_sound batch.nodes).1 place given found).1
  constructor
  · intro member
    obtain ⟨given, among, rfl⟩ := mem_map.mp member
    obtain ⟨place, found⟩ := mem_values.mp among
    rw [(kind_writtenNode ..).2]
    exact ⟨given, named found ▸ found, rfl⟩
  · rintro ⟨given, found, same⟩
    have id_eq := named found
    refine mem_map.mpr ⟨given, mem_values.mpr ⟨_, found⟩, ?_⟩
    rw [id_eq]
    exact same.symm

def writerAt (store : GraphStore) (batch : GraphMutationBatch) : String ⊕ String →
    Option GraphRecord :=
  Sum.elim (fun id => (edgesById batch.edges)[id]?.map .inl) fun id =>
    (mergeNodes batch.nodes)[id]?.map fun given =>
      .inr (writtenNode batch.replaceNodes store.nodes[id]? given)

theorem mem_writtenRecords
    : record ∈ store.writtenRecords batch
      ↔ store.writerAt batch (recordKey record) = some record := by
  rcases record with edge | node
  · simp [writtenRecords, writerAt, recordKey, mem_writtenEdges]
  · simp [writtenRecords, writerAt, recordKey, mem_writtenNodes, eq_comm]

theorem key_writerAt {key} (writes : store.writerAt batch key = some record)
    : recordKey record = key := by
  rcases key with id | id <;> obtain ⟨given, found, rfl⟩ := Option.map_eq_some_iff.mp writes
  · exact congrArg Sum.inl ((edgesById_sound batch.edges).1 id given found).1
  · refine congrArg Sum.inr ?_
    exact (kind_writtenNode ..).2.trans ((mergeNodes_sound batch.nodes).1 id given found).1

theorem Keyed.has_written (keyed : store.Keyed)
    : (store.written batch).Has record
      ↔ store.writerAt batch (recordKey record) = some record
        ∨ store.writerAt batch (recordKey record) = none ∧ store.Has record
          ∧ record ∉ (store.deletedEdges batch).map .inl := by
  rcases record with edge | node
  · have later : (store.written batch).Has (.inl edge)
        ↔ (store.applied batch).edges[edge.id]? = some edge := Iff.rfl
    have stays (has : store.Has (.inl edge))
        : Sum.inl edge ∉ (store.deletedEdges batch).map (Sum.inl : GraphEdge → GraphRecord)
          ↔ edge.id ∉ batch.deleteEdges := by
      simp [deletedEdges, keyed.mem_storedEdges.mpr has]
    rw [later, edges_applied]
    cases found : (edgesById batch.edges)[edge.id]? with
    | some given => simp [writerAt, recordKey, found]
    | none =>
      by_cases deleted : edge.id ∈ batch.deleteEdges
      · simp only [writerAt, recordKey, Sum.map_inl, Sum.elim_inl, found, Option.map_none,
          Option.none_or, if_pos deleted, reduceCtorEq, false_or, true_and, false_iff]
        exact fun ⟨has, kept⟩ => (stays has).mp kept deleted
      · simp only [writerAt, recordKey, Sum.map_inl, Sum.elim_inl, found, Option.map_none,
          Option.none_or, if_neg deleted, reduceCtorEq, false_or, true_and]
        exact ⟨fun has => ⟨has, (stays has).mpr deleted⟩, fun both => both.1⟩
  · have later : (store.written batch).Has (.inr node)
        ↔ (store.applied batch).nodes[node.id]? = some node := Iff.rfl
    rw [later, nodes_applied]
    cases found : (mergeNodes batch.nodes)[node.id]? with
    | some given => simp [writerAt, recordKey, found]
    | none => simp [writerAt, recordKey, found, Has]

theorem ordered_writtenRecords : (store.writtenRecords batch).Pairwise WrittenBefore := by
  refine pairwise_append.mpr ⟨?_, ?_, ?_⟩
  · rw [pairwise_map, writtenNodes, pairwise_map]
    refine (ordered_values fun place node found =>
      ((mergeNodes_sound batch.nodes).1 place node found).1).imp fun smaller => ?_
    simp only [WrittenBefore, (kind_writtenNode ..).2]
    exact smaller
  · rw [pairwise_map]
    exact ordered_values fun place edge found =>
      ((edgesById_sound batch.edges).1 place edge found).1
  · intro left isNode right isEdge
    obtain ⟨node, _, rfl⟩ := mem_map.mp isNode
    obtain ⟨edge, _, rfl⟩ := mem_map.mp isEdge
    trivial

theorem single_has (left right : GraphRecord) (hasLeft : store.Has left)
    (hasRight : store.Has right) (same : recordKey left = recordKey right) : left = right := by
  rcases left with left | left <;> rcases right with right | right
  · have ids : left.id = right.id := Sum.inl.inj same
    exact congrArg Sum.inl (Option.some.inj (hasLeft.symm.trans (ids ▸ hasRight)))
  · cases same
  · cases same
  · have ids : left.id = right.id := Sum.inr.inj same
    exact congrArg Sum.inr (Option.some.inj (hasLeft.symm.trans (ids ▸ hasRight)))

theorem Keyed.named_iff (keyed : store.Keyed)
    (stored : ∀ edge ∈ edges, edge ∈ store.storedEdges) (has : store.Has (.inl edge))
    : edge.id ∈ edges.map GraphEdge.id ↔ edge ∈ edges := by
  refine ⟨fun named => ?_, mem_map_of_mem⟩
  obtain ⟨other, member, ids⟩ := mem_map.mp named
  have same := single_has (.inl other) (.inl edge)
    (keyed.mem_storedEdges.mp (stored other member)) has (congrArg Sum.inl ids)
  exact Sum.inl.inj same ▸ member

theorem irreflexive_writtenBefore (record : GraphRecord) : ¬WrittenBefore record record := by
  cases record <;> simp [WrittenBefore]

theorem Keyed.change_written (keyed : store.Keyed)
    : Change recordKey store.Has (store.written batch).Has
        ((store.deletedEdges batch).map .inl) (store.writtenRecords batch) WrittenBefore where
  single := single_has
  removes old isRemoved := by
    obtain ⟨edge, member, rfl⟩ := mem_map.mp isRemoved
    exact keyed.mem_storedEdges.mp (mem_of_mem_filter member)
  ordered := ordered_writtenRecords
  irreflexive := irreflexive_writtenBefore
  distinct left isLeft right isRight same := by
    rw [mem_writtenRecords] at isLeft isRight
    exact Option.some.inj (isLeft.symm.trans (same ▸ isRight))
  result record := by
    have unwritten : store.writerAt batch (recordKey record) = none
        ↔ ∀ other ∈ store.writtenRecords batch, recordKey other ≠ recordKey record := by
      refine ⟨fun absent other isWritten same => ?_, fun apart => ?_⟩
      · rw [mem_writtenRecords, same, absent] at isWritten
        cases isWritten
      · cases writes : store.writerAt batch (recordKey record) with
        | none => rfl
        | some other =>
          have same := key_writerAt writes
          exact (apart other (mem_writtenRecords.mpr (same ▸ writes)) same).elim
    rw [keyed.has_written, mem_writtenRecords, unwritten]
    tauto

theorem Keyed.replaced_edge (keyed : store.Keyed) (edge : GraphEdge) (row : IndexRow)
    : (∃ old, store.Has old ∧ recordKey (.inl edge) = recordKey old ∧ row ∈ rowsOf old)
      ↔ ∃ old, store.edges[edge.id]? = some old ∧ row ∈ edgeRows old := by
  constructor
  · rintro ⟨old | old, has, same, called⟩
    · exact ⟨old, (Sum.inl.inj same) ▸ has, called⟩
    · cases same
  · rintro ⟨old, found, called⟩
    have same := keyed.edges _ _ found
    refine ⟨.inl old, ?_, congrArg Sum.inl same.symm, called⟩
    exact (same.symm ▸ found : store.edges[old.id]? = some old)

theorem Keyed.replaced_node (keyed : store.Keyed) (node : GraphNode) (row : IndexRow)
    : (∃ old, store.Has old ∧ recordKey (.inr node) = recordKey old ∧ row ∈ rowsOf old)
      ↔ ∃ old, store.nodes[node.id]? = some old ∧ row = .kind old.kind node.id := by
  constructor
  · rintro ⟨old | old, has, same, called⟩
    · cases same
    · have ids : node.id = old.id := Sum.inr.inj same
      exact ⟨old, ids ▸ has, ids ▸ mem_singleton.mp called⟩
  · rintro ⟨old, found, rfl⟩
    have same := keyed.nodes _ _ found
    refine ⟨.inr old, ?_, congrArg Sum.inr same.symm, mem_singleton.mpr (by rw [same])⟩
    exact (same.symm ▸ found : store.nodes[old.id]? = some old)

theorem Keyed.mem_recordOperations (keyed : store.Keyed) (rows : Finset IndexRow)
    (record : GraphRecord) (row : IndexRow)
    : row ∈ applyRows rows (record.elim store.edgeUpsertOperations store.nodeUpsertOperations)
      ↔ row ∈ rowsOf record ∨ row ∈ rows
        ∧ ¬∃ old, store.Has old ∧ recordKey record = recordKey old ∧ row ∈ rowsOf old := by
  rcases record with edge | node
  · rw [keyed.replaced_edge, Sum.elim_inl, edgeUpsertOperations, applyRows_append,
      mem_applyRows_put]
    cases found : store.edges[edge.id]? with
    | none => simp [applyRows, rowsOf]
    | some existing =>
      dsimp only
      rw [edgeDeleteOperations, mem_applyRows_delete]
      simp [rowsOf]
  · rw [keyed.replaced_node, Sum.elim_inr, nodeUpsertOperations, applyRows_append]
    have puts (rows : Finset IndexRow)
        : row ∈ applyRows rows [.put (.kind node.kind node.id) ()]
          ↔ row ∈ rowsOf (.inr node) ∨ row ∈ rows :=
      @mem_applyRows_put _ _ rows [IndexRow.kind node.kind node.id] row
    rw [puts]
    cases found : store.nodes[node.id]? with
    | none => simp [applyRows]
    | some existing =>
      dsimp only
      split
      · have deletes := @mem_applyRows_delete _ _ rows [IndexRow.kind existing.kind node.id] row
        rw [map_singleton] at deletes
        rw [deletes]
        simp
      · rename_i same
        rw [not_not] at same
        simp only [applyRows, foldl_nil, rowsOf, Sum.elim_inr, mem_singleton, same,
          Option.some.injEq, exists_eq_left']
        tauto

theorem mem_deletions {rows}
    : row ∈ applyRows rows (edges.flatMap edgeDeleteOperations)
      ↔ row ∈ rows ∧ ∀ old ∈ edges.map Sum.inl, row ∉ rowsOf old := by
  have flat : edges.flatMap edgeDeleteOperations = (edges.flatMap edgeRows).map .delete :=
    map_flatMap.symm
  rw [flat, mem_applyRows_delete, mem_flatMap]
  simp [rowsOf]

theorem Keyed.mem_rows_written (keyed : store.Keyed) (row : IndexRow)
    : row ∈ (store.written batch).rows
      ↔ AfterAll (fun record => row ∈ rowsOf record)
        (fun record => ∃ old, store.Has old ∧ recordKey record = recordKey old
          ∧ row ∈ rowsOf old)
        (store.writtenRecords batch)
        (row ∈ store.rows ∧ ∀ old ∈ (store.deletedEdges batch).map .inl, row ∉ rowsOf old) := by
  have nodes : ((mergeNodes batch.nodes).toList.map snd).flatMap store.nodeUpsertOperations
      = (store.writtenNodes batch).flatMap store.nodeUpsertOperations := by
    unfold writtenNodes
    generalize (mergeNodes batch.nodes).toList.map snd = nodes
    rw [flatMap_map]
    refine flatMap_congr fun node _ => ?_
    obtain ⟨kind_eq, id_eq⟩ :=
      kind_writtenNode batch.replaceNodes store.nodes[node.id]? node
    rw [nodeUpsertOperations, nodeUpsertOperations, id_eq, kind_eq]
  have operations : store.rowOperations batch
      = (store.deletedEdges batch).flatMap edgeDeleteOperations
        ++ (store.writtenRecords batch).flatMap
          (Sum.elim store.edgeUpsertOperations store.nodeUpsertOperations) := by
    rw [rowOperations, nodes, writtenRecords, flatMap_append, flatMap_map,
      flatMap_map, append_assoc]
    rfl
  rw [written, operations, applyRows_append]
  exact mem_applyRows_flatMap (fun rows record => keyed.mem_recordOperations rows record row)
    mem_deletions

/-! Deletions -/

def removedRecords (edges : List GraphEdge) (node : Option GraphNode) : List GraphRecord :=
  edges.map .inl ++ node.toList.map .inr

theorem Keyed.edges_removed (keyed : store.Keyed)
    (stored : ∀ edge ∈ edges, edge ∈ store.storedEdges)
    : (store.removed edges node).Has (.inl edge) ↔ store.Has (.inl edge) ∧ edge ∉ edges := by
  have lookup : (store.removed edges node).edges[edge.id]?
      = if edge.id ∈ edges.map GraphEdge.id then none else store.edges[edge.id]? :=
    lookup_foldl_erase ..
  have later : (store.removed edges node).Has (.inl edge)
      ↔ (store.removed edges node).edges[edge.id]? = some edge := Iff.rfl
  rw [later, lookup]
  constructor
  · split
    · simp
    · rename_i unnamed
      exact fun has => ⟨has, fun member => unnamed (mem_map_of_mem member)⟩
  · rintro ⟨has, stays⟩
    rw [if_neg (mt (keyed.named_iff stored has).mp stays)]
    exact has

theorem nodes_removed {deleted} (stored : ∀ node ∈ deleted, store.nodes[node.id]? = some node)
    {node}
    : (store.removed edges deleted).Has (.inr node)
      ↔ store.Has (.inr node) ∧ node ∉ deleted := by
  cases deleted with
  | none => simp [removed, Has]
  | some gone =>
    have found := stored gone rfl
    have later : (store.removed edges (some gone)).Has (.inr node)
        ↔ (store.nodes.erase gone.id)[node.id]? = some node := Iff.rfl
    rw [later, lookup_erase]
    split
    · rename_i same
      refine ⟨by simp, fun both => (both.2 ?_).elim⟩
      rw [same] at found
      exact found.symm.trans both.1
    · rename_i apart
      refine ⟨fun has => ⟨has, fun same => apart ?_⟩, fun both => both.1⟩
      rw [Option.some.inj same]

theorem Keyed.change_removed (keyed : store.Keyed)
    (storedEdges : ∀ edge ∈ edges, edge ∈ store.storedEdges)
    (storedNode : ∀ gone ∈ node, store.nodes[gone.id]? = some gone)
    : Change recordKey store.Has (store.removed edges node).Has (removedRecords edges node) []
        WrittenBefore where
  single := single_has
  removes old isRemoved := by
    rcases mem_append.mp isRemoved with isEdge | isNode
    · obtain ⟨edge, member, rfl⟩ := mem_map.mp isEdge
      exact keyed.mem_storedEdges.mp (storedEdges edge member)
    · obtain ⟨gone, member, rfl⟩ := mem_map.mp isNode
      exact storedNode gone (Option.mem_toList.mp member)
  ordered := .nil
  irreflexive := irreflexive_writtenBefore
  distinct _ isLeft := by cases isLeft
  result record := by
    rcases record with edge | gone
    · rw [keyed.edges_removed storedEdges]
      simp [removedRecords]
    · rw [nodes_removed storedNode]
      simp [removedRecords]

theorem mem_rows_removed
    : row ∈ (store.removed edges node).rows
      ↔ row ∈ store.rows ∧ ∀ old ∈ removedRecords edges node, row ∉ rowsOf old := by
  have last (rows : Finset IndexRow)
      : row ∈ applyRows rows (node.elim [] fun node => [.delete (.kind node.kind node.id)])
        ↔ row ∈ rows ∧ ∀ old ∈ node.toList.map Sum.inr, row ∉ rowsOf old := by
    cases node with
    | none => simp [applyRows]
    | some gone =>
      have deletes := @mem_applyRows_delete _ _ rows [IndexRow.kind gone.kind gone.id] row
      rw [map_singleton] at deletes
      refine deletes.trans ?_
      simp [rowsOf]
  unfold removed removedRecords
  rw [applyRows_append, last, mem_deletions, and_assoc, ← forall_mem_append]

/-! Rows follow from records -/

theorem owned_row (noLink : ∀ entity chunk, row ≠ .chunk entity chunk) (left right : GraphRecord)
    (ofLeft : row ∈ rowsOf left) (ofRight : row ∈ rowsOf right)
    : recordKey left = recordKey right := by
  have named {record : GraphRecord} (called : row ∈ rowsOf record)
      : (∃ edge, record = .inl edge ∧ (row = .outgoing edge.source edge.kind edge.id
            ∨ row = .incoming edge.target edge.kind edge.id))
        ∨ ∃ node, record = .inr node ∧ row = .kind node.kind node.id := by
    rcases record with edge | node
    · rcases mem_edgeRows.mp called with isOut | isIn | ⟨_, isLink⟩
      · exact .inl ⟨edge, rfl, .inl isOut⟩
      · exact .inl ⟨edge, rfl, .inr isIn⟩
      · exact (noLink _ _ isLink).elim
    · exact .inr ⟨node, rfl, mem_singleton.mp called⟩
  rcases named ofLeft with ⟨edge, rfl, rfl | rfl⟩ | ⟨node, rfl, rfl⟩ <;>
    rcases named ofRight with ⟨other, rfl, same | same⟩ | ⟨other, rfl, same⟩ <;>
    simp_all [recordKey]

theorem chunk_mem_rowsOf {entity chunk}
    : IndexRow.chunk entity chunk ∈ rowsOf record
      ↔ ∃ edge, record = .inl edge ∧ shouldLinkChunk edge ∧ edge.source = entity
        ∧ edge.target = chunk := by
  rcases record with edge | node
  · simp only [rowsOf, Sum.elim_inl, mem_edgeRows, reduceCtorEq, IndexRow.chunk.injEq, false_or,
      Sum.inl.injEq, exists_eq_left']
    tauto
  · simp [rowsOf]

/-- The condition restores every chunk link. -/
theorem LinksKept.restored {touched : String → Prop} {writes} {later : GraphRecord → Prop}
    {gone written} (keyed : store.Keyed) (kept : store.LinksKept touched writes)
    (change : Change recordKey store.Has later gone written WrittenBefore)
    (writes_iff : ∀ edge, Sum.inl edge ∈ written ↔ edge ∈ writes)
    (touched_iff : ∀ edge, store.Has (.inl edge) →
      (touched edge.id ↔ Sum.inl edge ∈ gone ∨ edge.id ∈ writes.map GraphEdge.id))
    (entity chunk : String)
    : Restored recordKey rowsOf store.Has later gone written WrittenBefore
        (.chunk entity chunk) := by
  have uncalled {old : GraphEdge} (links : shouldLinkChunk old ∧ old.source = entity
        ∧ old.target = chunk)
      (noWrites : ∀ edge ∈ writes, ¬SameLink old edge)
      (noOthers : ∀ other ∈ store.storedEdges, ¬touched other.id → ¬SameLink old other)
      (record : GraphRecord) (isLater : later record)
      : IndexRow.chunk entity chunk ∉ rowsOf record := by
    intro called
    obtain ⟨edge, rfl, link, rfl, rfl⟩ := chunk_mem_rowsOf.mp called
    have same : SameLink old edge := ⟨links.1, link, links.2⟩
    rcases (change.result (.inl edge)).mp isLater with isWritten | ⟨has, stays, apart⟩
    · exact noWrites edge ((writes_iff edge).mp isWritten) same
    · refine noOthers edge (keyed.mem_storedEdges.mpr has) ?_ same
      rw [touched_iff edge has, not_or]
      refine ⟨stays, fun named => ?_⟩
      obtain ⟨other, member, ids⟩ := mem_map.mp named
      exact apart (.inl other) ((writes_iff other).mpr member) (congrArg Sum.inl ids)
  have called_of {old edge : GraphEdge} (links : shouldLinkChunk old ∧ old.source = entity
        ∧ old.target = chunk) (same : SameLink old edge)
      : IndexRow.chunk entity chunk ∈ rowsOf (.inl edge) :=
    chunk_mem_rowsOf.mpr ⟨edge, rfl, same.2.1, same.2.2.1.symm.trans links.2.1,
      same.2.2.2.symm.trans links.2.2⟩
  constructor
  · intro old isGone called
    obtain ⟨edge, rfl, links⟩ := chunk_mem_rowsOf.mp called
    have has := change.removes _ isGone
    rcases kept edge (keyed.mem_storedEdges.mpr has) ((touched_iff edge has).mpr (.inl isGone))
      with ⟨other, member, same, _⟩ | ⟨noWrites, noOthers⟩
    · exact .inl ⟨.inl other, (writes_iff other).mpr member, called_of links same⟩
    · exact .inr (uncalled links noWrites noOthers)
  · intro record isWritten old has sameKey called
    obtain ⟨edge, rfl, links⟩ := chunk_mem_rowsOf.mp called
    rcases record with writer | node
    · have ids : writer.id = edge.id := Sum.inl.inj sameKey
      have named : edge.id ∈ writes.map GraphEdge.id :=
        ids ▸ mem_map_of_mem ((writes_iff writer).mp isWritten)
      rcases kept edge (keyed.mem_storedEdges.mpr has) ((touched_iff edge has).mpr (.inr named))
        with ⟨other, member, same, after⟩ | ⟨noWrites, noOthers⟩
      · refine .inl ⟨.inl other, (writes_iff other).mpr member, called_of links same, ?_⟩
        exact fun earlier => after named (ids ▸ earlier)
      · exact .inr (uncalled links noWrites noOthers)
    · cases sameKey

/-- Records are stored under their ids, and every row but chunk links follows from them. -/
structure Sound (store : GraphStore) : Prop extends store.Keyed where
  derived : ∀ row, (∀ entity chunk, row ≠ .chunk entity chunk) →
    Derived rowsOf store.Has (· ∈ store.rows) row

def LinksDerived (store : GraphStore) : Prop :=
  ∀ entity chunk, Derived rowsOf store.Has (· ∈ store.rows) (.chunk entity chunk)

theorem Sound.new : new.Sound where
  edges place edge found := by cases (lookup_empty place).symm.trans found
  nodes place node found := by cases (lookup_empty place).symm.trans found
  derived row _ := by
    refine ⟨fun member => ?_, ?_⟩
    · cases Finset.notMem_empty row member
    · rintro ⟨edge | node, has, _⟩
      · cases (lookup_empty edge.id).symm.trans has
      · cases (lookup_empty node.id).symm.trans has

theorem Keyed.written (keyed : store.Keyed) : (store.written batch).Keyed where
  edges place edge found := by
    rw [show (store.written batch).edges[place]? = _ from edges_applied ..] at found
    rcases Option.or_eq_some_iff.mp found with given | ⟨_, kept⟩
    · exact ((edgesById_sound batch.edges).1 place edge given).1
    · split at kept
      · cases kept
      · exact keyed.edges place edge kept
  nodes place node found := by
    rw [show (store.written batch).nodes[place]? = _ from nodes_applied ..] at found
    cases given : (mergeNodes batch.nodes)[place]? with
    | none =>
      rw [given] at found
      exact keyed.nodes place node found
    | some merged =>
      rw [given] at found
      cases found
      exact (kind_writtenNode ..).2.trans ((mergeNodes_sound batch.nodes).1 place merged given).1

theorem Keyed.removed (keyed : store.Keyed)
    : (store.removed edges node).Keyed where
  edges place edge found := by
    rw [show (store.removed edges node).edges[place]? = _ from lookup_foldl_erase ..] at found
    split at found
    · cases found
    · exact keyed.edges place edge found
  nodes place kept found := by
    cases node with
    | none => exact keyed.nodes place kept found
    | some gone =>
      rw [show (store.removed edges (some gone)).nodes[place]? = _ from lookup_erase ..]
        at found
      split at found
      · cases found
      · exact keyed.nodes place kept found

theorem Sound.written (sound : store.Sound) : (store.written batch).Sound where
  toKeyed := sound.toKeyed.written
  derived row noLink :=
    sound.change_written.derived (sound.derived row noLink) (sound.mem_rows_written row)
      (sound.change_written.restored_of_owned (owned_row noLink))

theorem Sound.removed (sound : store.Sound) (storedEdges : ∀ edge ∈ edges, edge ∈ store.storedEdges)
    (storedNode : ∀ gone ∈ node, store.nodes[gone.id]? = some gone)
    : (store.removed edges node).Sound where
  toKeyed := sound.toKeyed.removed
  derived row noLink :=
    have change := sound.change_removed storedEdges storedNode
    change.derived (sound.derived row noLink) mem_rows_removed
      (change.restored_of_owned (owned_row noLink))

/-- The adjacency and kind rows are those of the stored records. -/
structure RowsExact (store : GraphStore) : Prop where
  outgoing : ∀ source kind id, IndexRow.outgoing source kind id ∈ store.rows
    ↔ ∃ edge, store.edges[id]? = some edge ∧ edge.source = source ∧ edge.kind = kind
  incoming : ∀ target kind id, IndexRow.incoming target kind id ∈ store.rows
    ↔ ∃ edge, store.edges[id]? = some edge ∧ edge.target = target ∧ edge.kind = kind
  kinds : ∀ kind id, IndexRow.kind kind id ∈ store.rows
    ↔ ∃ node, store.nodes[id]? = some node ∧ node.kind = kind

theorem Sound.rowsExact (sound : store.Sound) : store.RowsExact where
  outgoing source kind id := by
    refine (sound.derived _ (by simp)).trans ⟨?_, ?_⟩
    · rintro ⟨edge | node, has, called⟩
      · simp only [rowsOf, Sum.elim_inl, mem_edgeRows, IndexRow.outgoing.injEq, reduceCtorEq,
          and_false, or_false] at called
        obtain ⟨rfl, rfl, rfl⟩ := called
        exact ⟨edge, has, rfl, rfl⟩
      · simp [rowsOf] at called
    · rintro ⟨edge, found, rfl, rfl⟩
      obtain rfl := sound.edges _ _ found
      exact ⟨.inl edge, found, mem_edgeRows.mpr (.inl rfl)⟩
  incoming target kind id := by
    refine (sound.derived _ (by simp)).trans ⟨?_, ?_⟩
    · rintro ⟨edge | node, has, called⟩
      · simp only [rowsOf, Sum.elim_inl, mem_edgeRows, IndexRow.incoming.injEq, reduceCtorEq,
          and_false, or_false, false_or] at called
        obtain ⟨rfl, rfl, rfl⟩ := called
        exact ⟨edge, has, rfl, rfl⟩
      · simp [rowsOf] at called
    · rintro ⟨edge, found, rfl, rfl⟩
      obtain rfl := sound.edges _ _ found
      exact ⟨.inl edge, found, mem_edgeRows.mpr (.inr (.inl rfl))⟩
  kinds kind id := by
    refine (sound.derived _ (by simp)).trans ⟨?_, ?_⟩
    · rintro ⟨edge | node, has, called⟩
      · simp [rowsOf, mem_edgeRows] at called
      · simp only [rowsOf, Sum.elim_inr, mem_singleton, IndexRow.kind.injEq] at called
        obtain ⟨rfl, rfl⟩ := called
        exact ⟨node, has, rfl⟩
    · rintro ⟨node, found, rfl⟩
      obtain rfl := sound.nodes _ _ found
      exact ⟨.inr node, found, mem_singleton.mpr rfl⟩

theorem Sound.mem_edgeRefsAt (sound : store.Sound)
    : edge ∈ store.edgeRefsAt nodeId
      ↔ edge ∈ store.storedEdges ∧ (edge.source = nodeId ∨ edge.target = nodeId) := by
  unfold edgeRefsAt
  rw [mem_filter, decide_eq_true_iff]
  refine and_congr_right fun stored => ?_
  have exact := sound.rowsExact
  have has := sound.mem_storedEdges.mp stored
  constructor
  · rintro ⟨row, member, refers⟩
    cases row with
    | outgoing source kind id =>
      simp only [IndexRow.refers, Bool.and_eq_true, decide_eq_true_iff] at refers
      obtain ⟨rfl, rfl⟩ := refers
      obtain ⟨_, found, isSource, _⟩ := (exact.outgoing ..).mp member
      cases has.symm.trans found
      exact .inl isSource
    | incoming target kind id =>
      simp only [IndexRow.refers, Bool.and_eq_true, decide_eq_true_iff] at refers
      obtain ⟨rfl, rfl⟩ := refers
      obtain ⟨_, found, isTarget, _⟩ := (exact.incoming ..).mp member
      cases has.symm.trans found
      exact .inr isTarget
    | chunk => cases refers
    | kind => cases refers
  · rintro (rfl | rfl)
    · exact ⟨_, (exact.outgoing ..).mpr ⟨edge, has, rfl, rfl⟩, by simp [IndexRow.refers]⟩
    · exact ⟨_, (exact.incoming ..).mpr ⟨edge, has, rfl, rfl⟩, by simp [IndexRow.refers]⟩

/-! Calls and runs -/

theorem upsertBatch_cases (fault : Option GraphError)
    : (store.upsertBatch fault batch).toOption.getD store = store
      ∨ (store.upsertBatch fault batch).toOption.getD store = store.written batch
        ∧ ∀ edge ∈ writtenEdges batch, checkEdge edge = .ok () := by
  cases outcome : store.upsertBatch fault batch with
  | error => exact .inl rfl
  | ok next =>
    unfold upsertBatch at outcome
    split at outcome
    · cases outcome
      exact .inl rfl
    · obtain ⟨_, checked, written⟩ := bind_eq_ok.mp outcome
      cases fault with
      | some => cases written
      | none =>
        cases written
        exact .inr ⟨rfl, checkEach_eq_ok.mp checked⟩

/-- The effect of a call: none, that of its batch, or a deletion of stored records. -/
inductive Effect (store : GraphStore) (action : GraphAction) : GraphStore → Prop
  | none : Effect store action store
  | batch (upserts : store.Permits action → store.LinksKept
        (fun id => id ∈ action.batch.deleteEdges
          ∨ id ∈ (writtenEdges action.batch).map GraphEdge.id)
        (writtenEdges action.batch))
      : Effect store action (store.written action.batch)
  | edge (edge : GraphEdge) (found : store.edges[edge.id]? = some edge)
      (deletes : store.Permits action → store.LinksKept (· = edge.id) [])
      : Effect store action (store.removed [edge] .none)
  | node (node : GraphNode) (found : store.nodes[node.id]? = some node)
      : Effect store action (store.removed (store.edgeRefsAt node.id) (some node))

theorem Keyed.effect (keyed : store.Keyed) (action : GraphAction)
    : Effect store action (action.perform store) := by
  have upserts (fault : Option GraphError) (permits : store.Permits action → store.LinksKept
        (fun id => id ∈ action.batch.deleteEdges
          ∨ id ∈ (writtenEdges action.batch).map GraphEdge.id)
        (writtenEdges action.batch))
      : Effect store action ((store.upsertBatch fault action.batch).toOption.getD store) := by
    rcases @upsertBatch_cases store action.batch fault with same | ⟨same, -⟩ <;> rw [same]
    · exact .none
    · exact .batch permits
  cases action with
  | upsertNode fault node => exact upserts _ id
  | upsertEdge fault edge => exact upserts _ id
  | upsertBatch fault batch => exact upserts _ id
  | deleteEdge fault edgeId =>
    unfold GraphAction.perform GraphStore.deleteEdge
    dsimp only
    cases found : store.edges[edgeId]? with
    | none => exact .none
    | some edge =>
      have same := keyed.edges _ _ found
      cases fault with
      | some => exact .none
      | none =>
        refine .edge edge (same.symm ▸ found) fun permits => ?_
        rw [same]
        exact permits
  | deleteNode fault nodeId =>
    unfold GraphAction.perform GraphStore.deleteNode
    dsimp only
    cases found : store.nodes[nodeId]? with
    | none => exact .none
    | some node =>
      have same := keyed.nodes _ _ found
      cases fault with
      | some => exact .none
      | none =>
        have effect : Effect store (.deleteNode none nodeId) _ :=
          .node node (same.symm ▸ found)
        rw [same] at effect
        exact effect

section
variable (sound : store.Sound)
include sound

theorem Sound.storedAt (edge : GraphEdge)
    (member : edge ∈ store.edgeRefsAt nodeId) : edge ∈ store.storedEdges :=
  (sound.mem_edgeRefsAt.mp member).1

/-- Every call keeps the rows derived from the records. -/
theorem Sound.perform (action : GraphAction)
    : (action.perform store).Sound := by
  have effect := sound.effect action
  generalize action.perform store = next at effect
  cases effect with
  | none => exact sound
  | batch => exact sound.written
  | edge edge found =>
    refine sound.removed (fun other member => ?_) (by simp)
    rw [mem_singleton.mp member]
    exact sound.mem_storedEdges.mpr found
  | node node found =>
    refine sound.removed sound.storedAt fun gone same => ?_
    cases same
    exact found

theorem Sound.linksKept_deleteNode (nodeId : String)
    : store.LinksKept (· ∈ (store.edgeRefsAt nodeId).map GraphEdge.id) [] := by
  intro old stored named
  refine .inr ⟨by simp, fun other otherStored unnamed same => unnamed ?_⟩
  have oldAt := (sound.named_iff sound.storedAt (sound.mem_storedEdges.mp stored)).mp named
  have ends := (sound.mem_edgeRefsAt.mp oldAt).2
  rw [same.2.2.1, same.2.2.2] at ends
  exact mem_map_of_mem (sound.mem_edgeRefsAt.mpr ⟨otherStored, ends⟩)

theorem Sound.links_removed (links : store.LinksDerived)
    (storedEdges : ∀ edge ∈ edges, edge ∈ store.storedEdges)
    (storedNode : ∀ gone ∈ node, store.nodes[gone.id]? = some gone)
    (kept : store.LinksKept (· ∈ edges.map GraphEdge.id) [])
    : (store.removed edges node).LinksDerived := by
  intro entity chunk
  have change := sound.change_removed storedEdges storedNode
  refine change.derived (links entity chunk) mem_rows_removed
    (kept.restored sound.toKeyed change (by simp) (fun edge has => ?_) entity chunk)
  rw [sound.named_iff storedEdges has]
  simp [removedRecords]

theorem Sound.links_perform (links : store.LinksDerived) {action} (permits : store.Permits action)
    : (action.perform store).LinksDerived := by
  have effect := sound.effect action
  generalize action.perform store = next at effect
  cases effect with
  | none => exact links
  | batch upserts =>
    intro entity chunk
    have change := @Keyed.change_written store action.batch sound.toKeyed
    refine change.derived (links entity chunk) (sound.mem_rows_written _)
      ((upserts permits).restored sound.toKeyed change (fun edge => ?_) (fun edge has => ?_)
        entity chunk)
    · simp [writtenRecords]
    · simp [deletedEdges, sound.mem_storedEdges.mpr has]
  | edge edge found deletes =>
    refine sound.links_removed links (fun other member => ?_) (by simp) ?_
    · rw [mem_singleton.mp member]
      exact sound.mem_storedEdges.mpr found
    · simpa using deletes permits
  | node node found =>
    refine sound.links_removed links sound.storedAt (fun gone same => ?_)
      (sound.linksKept_deleteNode node.id)
    cases same
    exact found

end

/-! Exact index rows -/

/-- There is a chunk link iff a stored edge between its ends calls for it. -/
def LinksExact (store : GraphStore) : Prop :=
  ∀ entity chunk, IndexRow.chunk entity chunk ∈ store.rows
    ↔ ∃ (id : String) (edge : GraphEdge), store.edges[id]? = some edge ∧ shouldLinkChunk edge
      ∧ edge.source = entity ∧ edge.target = chunk

theorem Sound.linksExact (sound : store.Sound) (links : store.LinksDerived)
    : store.LinksExact := by
  intro entity chunk
  refine (links entity chunk).trans ⟨?_, ?_⟩
  · rintro ⟨record, has, called⟩
    obtain ⟨edge, rfl, link, ends⟩ := chunk_mem_rowsOf.mp called
    exact ⟨edge.id, edge, has, link, ends⟩
  · rintro ⟨id, edge, found, link, ends⟩
    obtain rfl := sound.edges _ _ found
    exact ⟨.inl edge, found, chunk_mem_rowsOf.mpr ⟨edge, rfl, link, ends⟩⟩

/-- No edge at a deleted node is left. -/
theorem Sound.no_edge_at_deleted (sound : store.Sound) {fault} {next : GraphStore} {result}
    (answered : store.deleteNode fault nodeId = .ok (next, result))
    (deleted : result.deleted = true) {id : String} (found : next.edges[id]? = some edge)
    : edge.source ≠ nodeId ∧ edge.target ≠ nodeId := by
  unfold deleteNode at answered
  cases stored : store.nodes[nodeId]? with
  | none =>
    rw [stored] at answered
    cases answered
    cases deleted
  | some node =>
    rw [stored] at answered
    cases fault with
    | some => cases answered
    | none =>
      cases answered
      obtain rfl := sound.toKeyed.removed.edges _ _ found
      have stays := (sound.edges_removed sound.storedAt).mp found
      rw [← not_or]
      exact fun ends => stays.2 (sound.mem_edgeRefsAt.mpr ⟨sound.mem_storedEdges.mpr stays.1, ends⟩)

theorem LinksDerived.new : new.LinksDerived := by
  intro entity chunk
  refine ⟨fun member => ?_, ?_⟩
  · cases Finset.notMem_empty _ member
  · rintro ⟨edge | node, has, _⟩
    · cases (lookup_empty edge.id).symm.trans has
    · cases (lookup_empty node.id).symm.trans has

/-- Permitted calls keep a store sound and its chunk links derived.
Witness: by induction over the run.
-/
theorem soundAlong {actions : List GraphAction}
    (along : Runs.Along GraphAction.perform Permits store actions)
    (initially : store.Sound ∧ store.LinksDerived)
    : (actions.foldl GraphAction.perform store).Sound
      ∧ (actions.foldl GraphAction.perform store).LinksDerived :=
  @Runs.Along.invariant _ _ _ _ (fun store : GraphStore => store.Sound ∧ store.LinksDerived)
    (fun _ action held permits =>
      ⟨held.1.perform action, held.1.links_perform held.2 permits⟩)
    _ _ along initially

/-- After every run the rows are exactly those of the stored records; the chunk links are if no call
takes away one still called for.
Witness: rows that one record owns follow every change.
-/
theorem index_rows_exact (actions : List GraphAction)
    : let store := actions.foldl GraphAction.perform new
      store.RowsExact
      ∧ (∀ fault nodeId next (result : DeleteNodeResult),
        store.deleteNode fault nodeId = .ok (next, result) →
        result.deleted = true → ∀ (id : String) edge, next.edges[id]? = some edge →
        edge.source ≠ nodeId ∧ edge.target ≠ nodeId)
      ∧ (Runs.Along GraphAction.perform Permits new actions →
        store.LinksExact) := by
  intro store
  have sound : store.Sound :=
    List.foldlRecOn _ _ Sound.new fun _ sound action _ => sound.perform action
  refine ⟨sound.rowsExact, fun fault nodeId next result answered deleted id edge found =>
    sound.no_edge_at_deleted answered deleted found, fun along => sound.linksExact ?_⟩
  exact (soundAlong along ⟨Sound.new, LinksDerived.new⟩).2

def callsChunk : GraphEdge :=
  GraphEdge.new "calls" "function:main" "chunk:v1" .calls

def mentionsChunk : GraphEdge :=
  GraphEdge.new "mentions" "function:main" "chunk:v1" .mentions

/-- One edge takes over the link of another in a batch. -/
def handedOverLink : List GraphAction :=
  [.upsertEdge none callsChunk, .upsertBatch none
      { deleteEdges := ["calls"]
        replaceNodes := []
        nodes := [GraphNode.new "function:main" .function]
        edges := [mentionsChunk] }]

theorem handed_over_link_exact
    : (handedOverLink.foldl GraphAction.perform new).LinksExact :=
  (index_rows_exact handedOverLink).2.2 (by decide +kernel)

def sharedLink : List GraphAction :=
  [.upsertEdge none callsChunk, .upsertEdge none mentionsChunk, .deleteEdge none "calls"]

/-- The deletion of one of two edges that call for a link takes the link of the other. -/
theorem shared_link_lost
    : ((sharedLink.foldl GraphAction.perform new).edges["mentions"]?).isSome
      ∧ shouldLinkChunk mentionsChunk
      ∧ IndexRow.chunk mentionsChunk.source mentionsChunk.target
        ∉ (sharedLink.foldl GraphAction.perform new).rows := by
  decide +kernel

end GraphStore

end AkiDB.Vectors
