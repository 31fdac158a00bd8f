import AkiDB.Library.TopK
import AkiDB.Vectors.GraphRows
import AkiDB.Vectors.GraphTraversal

/-!
The bounded queries of the graph, which follow the adjacency rows, and what they are meant to
answer.
-/

namespace AkiDB.Vectors
open AkiDB.Common Checked TopK GroupedCut KeyedMaps List

namespace GraphIndex

def edgePlace (edge : GraphEdge) : String ×ₗ String :=
  toLex (edge.kind.asKey, edge.id)

def neighborPlace (neighbor : GraphNeighbor) : ℚᵒᵈ ×ₗ String ×ₗ String :=
  toLex (.toDual neighbor.edge.weight.value, toLex (neighbor.node.id, neighbor.edge.id))

theorem adjacencyBefore_iff {left right}
    : adjacencyBefore left right ↔ edgePlace left ≤ edgePlace right := by
  rw [adjacencyBefore, then_ne_gt, compare_le_iff_le, edgePlace, edgePlace, Prod.Lex.toLex_le_toLex]

theorem neighborBefore_iff {left right} (leftFinite : left.edge.weight.isFinite)
    (rightFinite : right.edge.weight.isFinite)
    : neighborBefore left right ↔ neighborPlace left ≤ neighborPlace right := by
  rw [neighborBefore, Score.partialCmp_of_isFinite rightFinite leftFinite, Option.getD_some,
    Ordering.then_assoc, then_ne_gt, then_ne_gt, compare_le_iff_le, neighborPlace, neighborPlace,
    Prod.Lex.toLex_le_toLex, Prod.Lex.toLex_le_toLex, OrderDual.toDual_lt_toDual,
    OrderDual.toDual_inj, eq_comm]

/-! The neighbours that a request is after -/

section
variable (graph : GraphIndex)

def stored : List GraphEdge :=
  graph.edges.toList.map Prod.snd

section
variable (request : NeighborRequest)

/-- The request asks for an edge of this kind, followed from its source or from its target. -/
def NeighborRequest.Follows (edge : GraphEdge) (leaves : Bool)
    : Prop :=
  (request.edgeKinds = [] ∨ edge.kind ∈ request.edgeKinds)
  ∧ request.direction ≠ (if leaves then .into else .out)
  ∧ (if leaves then edge.source else edge.target) = request.nodeId

instance (request : NeighborRequest) (edge : GraphEdge) (leaves : Bool)
    : Decidable (request.Follows edge leaves) :=
  inferInstanceAs (Decidable (_ ∧ _))

def neighborsOver (refs : List (GraphEdge × Bool)) : List GraphNeighbor :=
  (refs.filterMap (graph.graphNeighbor request.nodeId)).filter fun neighbor =>
    request.minWeight.all neighbor.edge.weight.ge

def eligible : List GraphNeighbor :=
  graph.neighborsOver request ((graph.stored.filter fun edge =>
    ∃ leaves, request.Follows edge leaves).map fun edge => (edge, edge.source = request.nodeId))

def rowsBefore (edge : GraphEdge)
    (leaves : Bool) : List GraphEdge :=
  graph.stored.filter fun other => ¬adjacencyBefore edge other
    ∧ (if leaves then other.source else other.target) = request.nodeId
    ∧ (request.edgeKinds = [] ∨ other.kind = edge.kind)

/-- From one end or the other, the scan gets to an edge before it stops. -/
def Scans (edge : GraphEdge) : Prop :=
  ∃ leaves, request.Follows edge leaves
    ∧ (graph.rowsBefore request edge leaves).length < request.limit * 4

def scannedRefs : List (GraphEdge × Bool) :=
  graph.edgeRefsForNode request.nodeId request.direction request.edgeKinds (request.limit * 4)

end

end

variable {graph : GraphIndex} {request : NeighborRequest} {edge : GraphEdge}
variable {neighbor : GraphNeighbor} {refs : List (GraphEdge × Bool)}

theorem edge_graphNeighbor {nodeId ref} (found : graph.graphNeighbor nodeId ref = some neighbor)
    : neighbor.edge = ref.1 := by
  unfold graphNeighbor at found
  split at found
  · cases found
  · split at found
    · cases found
      rfl
    · cases found

theorem mem_neighborsOver
    (atNode : ∀ ref ∈ refs, (if ref.2 then ref.1.source else ref.1.target) = request.nodeId)
    : neighbor ∈ graph.neighborsOver request refs
      ↔ (∃ leaves, (neighbor.edge, leaves) ∈ refs)
        ∧ graph.graphNeighbor request.nodeId
          (neighbor.edge, neighbor.edge.source = request.nodeId) = some neighbor
        ∧ request.minWeight.all neighbor.edge.weight.ge := by
  have ends (ref) (listed : ref ∈ refs) : graph.graphNeighbor request.nodeId ref
      = graph.graphNeighbor request.nodeId (ref.1, ref.1.source = request.nodeId) := by
    have isEnd := atNode ref listed
    obtain ⟨edge, _ | _⟩ := ref
    · by_cases loops : edge.source = request.nodeId
      · simp_all [graphNeighbor]
      · rw [decide_eq_false loops]
    · simp_all
  rw [neighborsOver, mem_filter, mem_filterMap, ← and_assoc]
  refine and_congr_left fun _ => ⟨?_, ?_⟩
  · rintro ⟨ref, listed, found⟩
    rw [edge_graphNeighbor found, ← ends ref listed]
    exact ⟨⟨ref.2, listed⟩, found⟩
  · rintro ⟨⟨leaves, listed⟩, found⟩
    exact ⟨_, listed, (ends _ listed).trans found⟩

theorem mem_eligible
    : neighbor ∈ graph.eligible request
      ↔ (neighbor.edge ∈ graph.stored ∧ ∃ leaves, request.Follows neighbor.edge leaves)
        ∧ graph.graphNeighbor request.nodeId
          (neighbor.edge, neighbor.edge.source = request.nodeId) = some neighbor
        ∧ request.minWeight.all neighbor.edge.weight.ge := by
  rw [eligible, mem_neighborsOver]
  · simp
  · intro ref listed
    obtain ⟨edge, selected, rfl⟩ := mem_map.mp listed
    obtain ⟨leaves, -, -, isEnd⟩ := of_decide_eq_true (mem_filter.mp selected).2
    by_cases isSource : edge.source = request.nodeId <;> cases leaves <;> simp_all

theorem nodup_neighborsOver (distinct : (refs.map (·.1.id)).Nodup)
    : ((graph.neighborsOver request refs).map neighborPlace).Nodup := by
  refine Nodup.of_map (fun place => (ofLex (ofLex place).2).2) ?_
  rw [map_map]
  refine pairwise_map.mpr (List.Pairwise.filter _ (pairwise_filterMap.mpr ?_))
  refine (pairwise_map.mp distinct).imp fun apart left isLeft right isRight same => apart ?_
  rw [← edge_graphNeighbor isLeft, ← edge_graphNeighbor isRight]
  exact same

theorem distinctRefs_eq (refs : List (GraphEdge × Bool))
    : distinctRefs refs = retainFirst (·.1.id) [] refs := by
  have general (kept : List (GraphEdge × Bool)) (seen : List String)
      (same : ∀ id, id ∈ seen ↔ ∃ ref ∈ kept, ref.1.id = id)
      : refs.foldl (fun kept ref =>
          if kept.any (·.1.id = ref.1.id) then kept else kept ++ [ref]) kept
        = kept ++ retainFirst (·.1.id) seen refs := by
    induction refs generalizing kept seen with
    | nil => simp [retainFirst]
    | cons ref rest ih =>
      have known : kept.any (·.1.id = ref.1.id) = true ↔ ref.1.id ∈ seen := by
        simp [same, any_eq_true]
      rw [foldl_cons, retainFirst]
      by_cases isOld : ref.1.id ∈ seen
      · rw [if_pos (known.mpr isOld), if_pos isOld]
        exact ih kept seen same
      · rw [if_neg (mt known.mp isOld), if_neg isOld, ih _ (ref.1.id :: seen), append_assoc,
          singleton_append]
        intro id
        simp [same, or_comm, eq_comm]
  exact general [] [] (by simp)

section
variable (keyed : (graph.stored.map GraphEdge.id).Nodup)
include keyed

theorem mem_scannedRefs {leaves : Bool}
    : (edge, leaves) ∈ graph.scannedRefs request
      ↔ edge ∈ graph.stored ∧ request.Follows edge leaves
        ∧ (graph.rowsBefore request edge leaves).length < request.limit * 4 := by
  classical
  have scan (atNode : GraphEdge → Bool) (kind : Option EdgeKind)
      : edge ∈ graph.edgeRefsFor atNode kind (request.limit * 4)
        ↔ (edge ∈ graph.stored ∧ atNode edge && kind.all (edge.kind = ·))
          ∧ ((graph.stored.filter fun other => atNode other && kind.all (other.kind = ·)).filter
            fun other => ¬adjacencyBefore edge other).length < request.limit * 4 := by
    have distinct : ((graph.stored.filter fun other =>
        atNode other && kind.all (other.kind = ·)).map edgePlace).Nodup := by
      refine Nodup.of_map (fun place => (ofLex place).2) ?_
      rw [map_map]
      exact keyed.sublist (filter_sublist.map _)
    have sorted := sorted_insertionSort
      (fun left _ right _ => @adjacencyBefore_iff left right) distinct
    rw [edgeRefsFor, ← stored, mem_take_iff_length sorted, mem_insertionSort,
      mem_filter, ((perm_insertionSort _ _).filter _).length_eq]
    simp only [adjacencyBefore_iff, not_le]
  have side : (edge, leaves) ∈ graph.scannedRefs request
      ↔ ∃ kind ∈ if request.edgeKinds = [] then [none] else request.edgeKinds.map some,
        request.direction ≠ (if leaves then .into else .out)
        ∧ edge ∈ graph.edgeRefsFor
          (fun other => (if leaves then other.source else other.target) = request.nodeId) kind
          (request.limit * 4) := by
    cases leaves <;> simp [scannedRefs, edgeRefsForNode]
  simp only [side, scan, filter_filter, rowsBefore, NeighborRequest.Follows]
  by_cases everyKind : request.edgeKinds = [] <;> simp [everyKind] <;> tauto

theorem mem_scanned
    : neighbor ∈ graph.neighborsOver request (distinctRefs (graph.scannedRefs request))
      ↔ neighbor ∈ graph.eligible request ∧ graph.Scans request neighbor.edge := by
  have kept : (∃ leaves, (neighbor.edge, leaves) ∈ distinctRefs (graph.scannedRefs request))
      ↔ ∃ leaves, (neighbor.edge, leaves) ∈ graph.scannedRefs request := by
    rw [distinctRefs_eq]
    refine ⟨fun ⟨leaves, first⟩ => ⟨leaves, (retainFirst_sublist _ _ _).subset first⟩, ?_⟩
    rintro ⟨leaves, listed⟩
    have known : neighbor.edge.id
        ∈ (retainFirst (·.1.id) [] (graph.scannedRefs request)).map (·.1.id) :=
      mem_keys_retainFirst.mpr ⟨mem_map.mpr ⟨_, listed, rfl⟩, not_mem_nil⟩
    obtain ⟨⟨edge, side⟩, first, same⟩ := mem_map.mp known
    have isStored := ((mem_scannedRefs keyed).mp ((retainFirst_sublist _ _ _).subset first)).1
    obtain rfl : edge = neighbor.edge :=
      inj_on_of_nodup_map keyed isStored ((mem_scannedRefs keyed).mp listed).1 same
    exact ⟨side, first⟩
  rw [mem_neighborsOver, mem_eligible, kept, and_right_comm]
  · refine and_congr_left fun _ => ⟨?_, ?_⟩
    · rintro ⟨leaves, listed⟩
      obtain ⟨isStored, follows, few⟩ := (mem_scannedRefs keyed).mp listed
      exact ⟨⟨isStored, leaves, follows⟩, leaves, follows, few⟩
    · rintro ⟨⟨isStored, -⟩, leaves, scanned⟩
      exact ⟨leaves, (mem_scannedRefs keyed).mpr ⟨isStored, scanned⟩⟩
  · intro ref first
    rw [distinctRefs_eq] at first
    exact ((mem_scannedRefs keyed).mp ((retainFirst_sublist _ _ _).subset first)).2.1.2.2

theorem neighbors_eq_iff (weighed : ∀ edge ∈ graph.stored, edge.weight.isFinite)
    : graph.neighbors request
        = ((graph.eligible request).insertionSort neighborBefore).take request.limit
      ↔ ∀ neighbor ∈ ((graph.eligible request).insertionSort neighborBefore).take request.limit,
        graph.Scans request neighbor.edge := by
  classical
  have wholeDistinct : ((graph.eligible request).map neighborPlace).Nodup := by
    refine nodup_neighborsOver ?_
    rw [map_map]
    exact keyed.sublist (filter_sublist.map _)
  have partDistinct : ((graph.neighborsOver request
      (distinctRefs (graph.scannedRefs request))).map neighborPlace).Nodup := by
    refine nodup_neighborsOver ?_
    rw [distinctRefs_eq]
    exact nodup_keys_retainFirst _ _ _
  have agrees : ∀ left ∈ graph.eligible request, ∀ right ∈ graph.eligible request,
      neighborBefore left right ↔ neighborPlace left ≤ neighborPlace right :=
    fun left isLeft right isRight => neighborBefore_iff
      (weighed _ (mem_eligible.mp isLeft).1.1) (weighed _ (mem_eligible.mp isRight).1.1)
  have wholeSorted := sorted_insertionSort agrees wholeDistinct
  have partSorted := sorted_insertionSort (fun left isLeft right isRight =>
    agrees left ((mem_scanned keyed).mp isLeft).1 right ((mem_scanned keyed).mp isRight).1)
    partDistinct
  refine (take_eq_iff partSorted wholeSorted fun neighbor member => ?_).trans ?_
  · rw [mem_insertionSort] at member ⊢
    exact ((mem_scanned keyed).mp member).1
  · refine forall₂_congr fun neighbor member => ?_
    have isEligible := (mem_insertionSort _).mp (mem_of_mem_take member)
    rw [mem_insertionSort, mem_scanned keyed]
    exact and_iff_right isEligible

end

end GraphIndex

namespace GraphStore
open GraphIndex

variable {store : GraphStore} {edge : GraphEdge}

theorem Sound.edges_perform (sound : store.Sound) {action : GraphAction}
    (has : (action.perform store).Has (.inl edge))
    : store.Has (.inl edge) ∨ edge ∈ writtenEdges action.batch := by
  have effect := sound.effect action
  generalize action.perform store = next at effect has
  cases effect with
  | none => exact .inl has
  | batch =>
    rcases sound.has_written.mp has with writes | ⟨-, had, -⟩
    · right
      simpa [writtenRecords] using mem_writtenRecords.mpr writes
    · exact .inl had
  | edge old found =>
    have stored : ∀ edge ∈ [old], edge ∈ store.storedEdges := by
      simpa using sound.mem_storedEdges.mpr found
    exact .inl ((sound.edges_removed stored).mp has).1
  | node node => exact .inl ((sound.edges_removed sound.storedAt).mp has).1

theorem checkEdge_eq_ok
    : checkEdge edge = .ok ()
      ↔ edge.weight.isFinite ∧ GraphNodeId.isSameWorkspace edge.source edge.target := by
  simp [checkEdge, seq_eq_ok, rejectIf_eq_ok]

/-- A call stores no edge that does not pass its checks. -/
theorem Sound.checked_perform (sound : store.Sound)
    (checked : ∀ edge, store.Has (.inl edge) → checkEdge edge = .ok ()) (action : GraphAction)
    (edge : GraphEdge) (has : (action.perform store).Has (.inl edge))
    : checkEdge edge = .ok () := by
  rcases sound.edges_perform has with had | written
  · exact checked edge had
  have upserts {fault : Option GraphError}
      (has : ((store.upsertBatch fault action.batch).toOption.getD store).Has (.inl edge))
      : checkEdge edge = .ok () := by
    rcases @upsertBatch_cases store action.batch fault with same | ⟨-, passed⟩
    · rw [same] at has
      exact checked edge has
    · exact passed edge written
  cases action with
  | upsertNode => exact upserts has
  | upsertEdge => exact upserts has
  | upsertBatch => exact upserts has
  | deleteEdge => cases written
  | deleteNode => cases written

/-- After every run the store is sound and its edges pass the checks.
Witness: by induction over the run.
-/
theorem sound_and_checked (actions : List GraphAction)
    : let store := actions.foldl GraphAction.perform new
      store.Sound ∧ ∀ edge, store.Has (.inl edge) → checkEdge edge = .ok () :=
  List.foldlRecOn (motive := fun store : GraphStore =>
      store.Sound ∧ ∀ edge, store.Has (.inl edge) → checkEdge edge = .ok ())
    actions GraphAction.perform
    ⟨Sound.new, fun edge has => by cases (lookup_empty edge.id).symm.trans has⟩
    fun _ held action _ => ⟨held.1.perform action, held.1.checked_perform held.2 action⟩

/-- The neighbours are the heaviest eligible ones exactly if few enough rows come before each of
these in its scan.
Witness: the answer is the first part of what the scan gets to.
-/
theorem neighbors_heaviest_iff_scanned (actions : List GraphAction) (request : NeighborRequest)
    : let graph := (actions.foldl GraphAction.perform new).toGraphIndex
      graph.neighbors request
        = ((graph.eligible request).insertionSort neighborBefore).take request.limit
      ↔ ∀ neighbor ∈ ((graph.eligible request).insertionSort neighborBefore).take request.limit,
        graph.Scans request neighbor.edge := by
  obtain ⟨sound, checked⟩ := sound_and_checked actions
  exact neighbors_eq_iff (nodup_values sound.edges) fun edge stored =>
    (checkEdge_eq_ok.mp (checked edge (sound.mem_storedEdges.mp stored))).1

def fiveCalls : List GraphAction :=
  let calls := ["a", "b", "c", "d"].map (GraphEdge.new · "function:main" "function:log" .calls)
  let heaviest := { GraphEdge.new "e" "function:main" "function:run" .calls with
    weight := .finite 2 }
  let functions := ["function:main", "function:log", "function:run"].map (GraphNode.new · .function)
  [.upsertBatch none ⟨[], [], functions, calls ++ [heaviest]⟩]

/-- The heaviest neighbour is left out for one that the scan gets to. -/
theorem heaviest_neighbor_left_out
    : let graph := (fiveCalls.foldl GraphAction.perform new).toGraphIndex
      let request : NeighborRequest := ⟨"function:main", .out, [], 1, none⟩
      (graph.neighbors request).map (·.edge.id) = ["a"]
      ∧ (((graph.eligible request).insertionSort neighborBefore).take 1).map (·.edge.id)
        = ["e"] := by
  decide +kernel

end GraphStore

end AkiDB.Vectors
