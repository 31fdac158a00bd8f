import AkiDB.Library.BreadthFirst
import AkiDB.Vectors.Graph

/-! The bounded neighbourhood search ends, and each chunk comes with a shortest walk. -/

namespace AkiDB.Vectors
open BreadthFirst List GraphNodeId

namespace GraphIndex

def steps (graph : GraphIndex) (request : NeighborRequest) : List (GraphEdge × String) :=
  (graph.neighbors request).map fun neighbor => (neighbor.edge, neighbor.node.id)

def hops (graph : GraphIndex) (request : RelatedChunksRequest) (nodeId : String)
    : List (GraphEdge × String) :=
  graph.steps (request.hopFrom nodeId)

variable {graph : GraphIndex} {request : RelatedChunksRequest}

theorem mem_neighbors {request neighbor} (member : neighbor ∈ graph.neighbors request)
    : isSameWorkspace request.nodeId neighbor.node.id
      ∧ ∃ place : String, graph.nodes[place]? = some neighbor.node := by
  have sorted := mem_of_mem_take member
  rw [mem_insertionSort] at sorted
  obtain ⟨ref, _, found⟩ := mem_filterMap.mp (mem_of_mem_filter sorted)
  unfold graphNeighbor at found
  split at found
  · cases found
  · next node stored =>
      split at found
      · next same =>
          cases found
          exact ⟨same, _, stored⟩
      · cases found

theorem mem_steps {request step} (member : step ∈ graph.steps request)
    : isSameWorkspace request.nodeId step.2
      ∧ step.2 ∈ graph.nodes.toList.map fun row => row.2.id := by
  obtain ⟨neighbor, listed, rfl⟩ := mem_map.mp member
  obtain ⟨same, place, stored⟩ := mem_neighbors listed
  exact ⟨same, mem_map.mpr
    ⟨(place, neighbor.node), Std.ExtTreeMap.mem_toList_iff_getElem?_eq_some.mpr stored, rfl⟩⟩

theorem workspace_of_walk {path nodeId}
    (walk : Walk (graph.hops request) request.nodeId path nodeId)
    : isSameWorkspace request.nodeId nodeId := by
  induction walk with
  | nil => exact rfl
  | step before leads ih => exact Eq.trans ih (mem_steps leads).1

/-- The chunk of a trace is another one of the seed's workspace, and its path a shortest walk. -/
structure Traced (graph : GraphIndex) (request : RelatedChunksRequest)
    (chunk : RelatedChunkTrace) : Prop where
  walk : Walk (graph.hops request) request.nodeId chunk.pathEdges chunk.viaNode
  hop : chunk.pathEdges.length = chunk.hop
  depth : chunk.hop ≤ request.maxDepth
  other : chunk.viaNode ≠ request.nodeId
  named : asChunkVectorId chunk.viaNode = some chunk.vectorId
  workspace : isSameWorkspace request.nodeId chunk.viaNode
  shortest : ∀ path nodeId, Walk (graph.hops request) request.nodeId path nodeId →
    nodeId ≠ request.nodeId → asChunkVectorId nodeId = some chunk.vectorId →
    chunk.hop ≤ path.length

/-- Traces of different chunks, no more than asked for. -/
structure Traces (graph : GraphIndex) (request : RelatedChunksRequest)
    (chunks : List RelatedChunkTrace) : Prop where
  traced : ∀ chunk ∈ chunks, graph.Traced request chunk
  distinct : (chunks.map (·.vectorId)).Nodup
  few : chunks.length ≤ request.limit

/-- The chunk of a node, unless it is the seed, is among the traces. -/
def Listed (request : RelatedChunksRequest) (chunks : List RelatedChunkTrace) (nodeId : String)
    : Prop :=
  nodeId ≠ request.nodeId → ∀ vectorId, asChunkVectorId nodeId = some vectorId →
    vectorId ∈ chunks.map (·.vectorId)

/-- A search under way, with the nodes that were handled and those that wait. -/
structure Searching (graph : GraphIndex) (request : RelatedChunksRequest)
    (handled waiting : List (String × Nat)) (traversal : Traversal) : Prop where
  unfilled : traversal.full = false
  room : traversal.chunks.length < request.limit
  traces : graph.Traces request traversal.chunks
  layered : Layered (graph.hops request) request.nodeId (request.maxDepth - 1) handled waiting
  visited : ∀ id, id ∈ traversal.visited ↔ id ∈ (handled ++ waiting).map Prod.fst
  paths : ∀ entry ∈ traversal.queue, entry.2.2.length = entry.2.1
    ∧ Walk (graph.hops request) request.nodeId entry.2.2 entry.1
  complete : ∀ entry ∈ handled, ∀ step ∈ graph.hops request entry.1,
    Listed request traversal.chunks step.2

def waitingOf (traversal : Traversal) : List (String × Nat) :=
  traversal.queue.map fun entry => (entry.1, entry.2.1)

variable {handled : List (String × Nat)} {traversal : Traversal} {nodeId : String}
  {depth : Nat} {path : List GraphEdge} {neighbor : GraphNeighbor}

/-- A chunk that is not listed while a node is expanded is not nearer than its successors. -/
theorem Searching.unlisted_far {waiting}
    (searching : Searching graph request handled ((nodeId, depth) :: waiting) traversal) {vectorId}
    (unlisted : vectorId ∉ traversal.chunks.map (·.vectorId)) {other target}
    (walk : Walk (graph.hops request) request.nodeId other target) (apart : target ≠ request.nodeId)
    (named : asChunkVectorId target = some vectorId)
    : depth + 1 ≤ other.length := by
  by_contra short
  cases walk with
  | nil => exact apart rfl
  | @step before previous label _ walk leads =>
    rw [length_append, length_singleton] at short
    have layered := searching.layered
    have within := (layered.walked (nodeId, depth) (by simp)).1
    have behind := pairwise_cons.mp (pairwise_append.mp layered.ordered).2.1
    obtain ⟨_, done⟩ := layered.handled_of_walk walk (by
      intro entry waits
      rcases mem_cons.mp waits with rfl | later
      · dsimp only
        omega
      · have far := behind.1 entry later
        omega) (by dsimp only at within; omega)
    exact unlisted (searching.complete _ done _ leads apart vectorId named)

def recorded (request : RelatedChunksRequest) (depth : Nat) (path : List GraphEdge)
    (traversal : Traversal) (neighbor : GraphNeighbor) : List RelatedChunkTrace :=
  match asChunkVectorId neighbor.node.id with
  | some vectorId =>
    if neighbor.node.id ≠ request.nodeId
        ∧ ¬traversal.chunks.any (·.vectorId = vectorId) then
      traversal.chunks ++ [⟨vectorId, neighbor.node.id, depth + 1, path ++ [neighbor.edge]⟩]
    else traversal.chunks
  | none => traversal.chunks

theorem Searching.recorded {waiting}
    (searching : Searching graph request handled ((nodeId, depth) :: waiting) traversal)
    (length : path.length = depth) (walk : Walk (graph.hops request) request.nodeId path nodeId)
    (shallow : depth < request.maxDepth)
    (member : neighbor ∈ graph.neighbors (request.hopFrom nodeId))
    : graph.Traces request (recorded request depth path traversal neighbor)
      ∧ traversal.chunks <+: recorded request depth path traversal neighbor
      ∧ Listed request (recorded request depth path traversal neighbor) neighbor.node.id := by
  have steps : Walk (graph.hops request) request.nodeId (path ++ [neighbor.edge])
      neighbor.node.id := walk.step (mem_map_of_mem member)
  unfold GraphIndex.recorded
  cases named : asChunkVectorId neighbor.node.id with
  | none =>
    refine ⟨searching.traces, prefix_rfl, fun _ vectorId has => ?_⟩
    cases named.symm.trans has
  | some vectorId =>
    dsimp only
    split
    · next new =>
        have unlisted : vectorId ∉ traversal.chunks.map (·.vectorId) := by
          simpa [mem_map] using new.2
        refine ⟨⟨fun chunk listed => ?_, ?_, ?_⟩, prefix_append .., fun _ other has => ?_⟩
        · rcases mem_append.mp listed with earlier | single
          · exact searching.traces.traced chunk earlier
          · cases mem_singleton.mp single
            exact ⟨steps, by simp [length], shallow, new.1, named, workspace_of_walk steps,
              fun _ _ => searching.unlisted_far unlisted⟩
        · rw [map_append, nodup_append]
          refine ⟨searching.traces.distinct, by simp, ?_⟩
          rintro _ earlier _ single rfl
          cases mem_singleton.mp single
          exact unlisted earlier
        · rw [length_append, length_singleton]
          exact searching.room
        · cases named.symm.trans has
          simp
    · next old =>
        refine ⟨searching.traces, prefix_rfl, fun apart other has => ?_⟩
        cases named.symm.trans has
        simpa [apart, mem_map] using old

/-- What is left of the search after some neighbours were looked at. -/
structure Visited (graph : GraphIndex) (request : RelatedChunksRequest)
    (handled : List (String × Nat)) (nodeId : String) (depth : Nat)
    (neighbors : List GraphNeighbor) (traversal : Traversal) : Prop where
  searching : Searching graph request handled ((nodeId, depth) :: waitingOf traversal) traversal
  listed : ∀ neighbor ∈ neighbors, Listed request traversal.chunks neighbor.node.id
  known : depth + 1 < request.maxDepth → ∀ neighbor ∈ neighbors,
    neighbor.node.id ∈ traversal.visited

theorem Listed.mono {chunks more nodeId} (listed : Listed request chunks nodeId)
    (grown : chunks <+: more)
    : Listed request more nodeId :=
  fun apart vectorId named => (grown.map _).subset (listed apart vectorId named)

/-- A visited neighbour is recorded, or the limit is reached. -/
theorem Visited.visit {neighbors}
    (visited : Visited graph request handled nodeId depth neighbors traversal)
    (length : path.length = depth) (walk : Walk (graph.hops request) request.nodeId path nodeId)
    (shallow : depth < request.maxDepth)
    (member : neighbor ∈ graph.neighbors (request.hopFrom nodeId))
    : let next := traversal.visit request depth path neighbor
      (next.full = true ∧ graph.Traces request next.chunks)
        ∨ Visited graph request handled nodeId depth (neighbors ++ [neighbor]) next := by
  have searching := visited.searching
  obtain ⟨traces, grown, listed⟩ := searching.recorded length walk shallow member
  generalize same : recorded request depth path traversal neighbor = found at traces grown listed
  have steps : Walk (graph.hops request) request.nodeId (path ++ [neighbor.edge])
      neighbor.node.id := walk.step (mem_map_of_mem member)
  have step : traversal.visit request depth path neighbor
      = if traversal.chunks.length < found.length ∧ request.limit ≤ found.length then
          { traversal with chunks := found, full := true }
        else if depth + 1 < request.maxDepth ∧ neighbor.node.id ∉ traversal.visited then
          { chunks := found
            visited := neighbor.node.id :: traversal.visited
            queue := traversal.queue ++ [(neighbor.node.id, depth + 1, path ++ [neighbor.edge])]
            full := false }
        else { traversal with chunks := found } := by
    unfold Traversal.visit
    rw [if_neg (by simp [searching.unfilled, workspace_of_walk steps]), ← same]
    rfl
  have complete : ∀ entry ∈ handled, ∀ step ∈ graph.hops request entry.1,
      Listed request found step.2 :=
    fun entry done step leads => (searching.complete entry done step leads).mono grown
  have all : ∀ other ∈ neighbors ++ [neighbor], Listed request found other.node.id := by
    intro other among
    rcases mem_append.mp among with earlier | single
    · exact (visited.listed other earlier).mono grown
    · cases mem_singleton.mp single
      exact listed
  rw [step]
  split
  · exact .inl ⟨rfl, traces⟩
  · next unfilled =>
      have room : found.length < request.limit := by
        have := grown.length_le
        have := searching.room
        omega
      refine .inr ?_
      split
      · next new =>
          have fresh : neighbor.node.id
              ∉ (handled ++ (nodeId, depth) :: waitingOf traversal).map Prod.fst :=
            fun among => new.2 ((searching.visited _).mpr among)
          have pushed := searching.layered.push (Nat.lt_sub_of_add_lt new.1)
            (mem_map_of_mem member) fresh
          refine ⟨⟨rfl, room, traces, ?_, ?_, ?_, complete⟩, all, fun _ other among => ?_⟩
          · simpa [waitingOf] using pushed
          · intro id
            rw [mem_cons, searching.visited]
            simp [waitingOf, or_comm, or_left_comm]
          · intro entry waits
            rcases mem_append.mp waits with earlier | single
            · exact searching.paths entry earlier
            · cases mem_singleton.mp single
              exact ⟨by simp [length], steps⟩
          · rcases mem_append.mp among with earlier | single
            · exact mem_cons_of_mem _ (visited.known new.1 other earlier)
            · cases mem_singleton.mp single
              exact mem_cons_self
      · next old =>
          refine ⟨⟨searching.unfilled, room, traces, searching.layered, searching.visited,
            searching.paths, complete⟩, all, fun below other among => ?_⟩
          rcases mem_append.mp among with earlier | single
          · exact visited.known below other earlier
          · cases mem_singleton.mp single
            exact not_not.mp fun new => old ⟨below, new⟩

theorem foldl_visit_full (neighbors : List GraphNeighbor) (full : traversal.full = true)
    : neighbors.foldl (Traversal.visit request depth path) traversal = traversal := by
  induction neighbors with
  | nil => rfl
  | cons neighbor rest ih =>
    rw [foldl_cons, show traversal.visit request depth path neighbor = traversal from
      if_pos (.inl full), ih]

theorem Visited.foldl {before neighbors}
    (visited : Visited graph request handled nodeId depth before traversal)
    (length : path.length = depth) (walk : Walk (graph.hops request) request.nodeId path nodeId)
    (shallow : depth < request.maxDepth)
    (among : ∀ neighbor ∈ neighbors, neighbor ∈ graph.neighbors (request.hopFrom nodeId))
    : let next := neighbors.foldl (Traversal.visit request depth path) traversal
      (next.full = true ∧ graph.Traces request next.chunks)
        ∨ Visited graph request handled nodeId depth (before ++ neighbors) next := by
  induction neighbors generalizing before traversal with
  | nil => exact .inr (by simpa using visited)
  | cons neighbor rest ih =>
    rw [foldl_cons]
    rcases visited.visit length walk shallow (among neighbor mem_cons_self) with
      filled | more
    · rw [foldl_visit_full rest filled.1]
      exact .inl filled
    · have later := ih more fun other member => among other (mem_cons_of_mem _ member)
      rwa [append_assoc] at later

theorem Visited.settle (visited : Visited graph request handled nodeId depth
      ([] ++ graph.neighbors (request.hopFrom nodeId)) traversal)
    : Searching graph request (handled ++ [(nodeId, depth)]) (waitingOf traversal)
        traversal := by
  have searching := visited.searching
  refine { searching with layered := ?_, visited := ?_, complete := ?_ }
  · refine searching.layered.settle fun below step leads => ?_
    obtain ⟨neighbor, member, rfl⟩ := mem_map.mp leads
    exact (searching.visited _).mp (visited.known (by omega) neighbor (by simpa using member))
  · simpa using searching.visited
  · intro entry done step leads
    rcases mem_append.mp done with earlier | single
    · exact searching.complete entry earlier step leads
    · cases mem_singleton.mp single
      obtain ⟨neighbor, member, rfl⟩ := mem_map.mp leads
      exact visited.listed neighbor (by simpa using member)

variable (fuel : Nat)

theorem traverse_full (full : traversal.full = true)
    : graph.traverse request fuel traversal = traversal := by
  cases fuel with
  | zero => rfl
  | succ fuel =>
    unfold traverse
    split
    · rfl
    · exact if_pos full

theorem traverse_nil (ends : traversal.queue = [])
    : graph.traverse request fuel traversal = traversal := by
  cases fuel with
  | zero => rfl
  | succ fuel => simp [traverse, ends]

theorem traverse_cons {rest} (unfilled : traversal.full = false)
    (waits : traversal.queue = (nodeId, depth, path) :: rest) (shallow : depth < request.maxDepth)
    : graph.traverse request (fuel + 1) traversal
      = graph.traverse request fuel ((graph.neighbors (request.hopFrom nodeId)).foldl
        (Traversal.visit request depth path) { traversal with queue := rest }) := by
  simp [traverse, waits, unfilled, Nat.not_le_of_lt shallow]

/-- The search ends, whatever the fuel beyond the nodes left. -/
theorem Searching.traverse {budget : Nat} (deep : 0 < request.maxDepth)
    (searching : Searching graph request handled (waitingOf traversal) traversal)
    (enough : graph.nodes.size + 2 ≤ budget + handled.length)
    : ∃ last : Traversal, graph.Traces request last.chunks ∧ (last.queue = [] ∨ last.full = true)
      ∧ ∀ fuel, budget ≤ fuel → graph.traverse request fuel traversal = last := by
  induction budget generalizing handled traversal with
  | zero =>
    have bound := searching.layered.length_le fun node step leads => (mem_steps leads).2
    rw [length_append, length_map, Std.ExtTreeMap.length_toList] at bound
    omega
  | succ budget ih =>
    cases queue : traversal.queue with
    | nil => exact ⟨_, searching.traces, .inl queue, fun fuel _ => traverse_nil fuel queue⟩
    | cons entry rest =>
      obtain ⟨nodeId, depth, path⟩ := entry
      have waiting : waitingOf traversal
          = (nodeId, depth) :: waitingOf { traversal with queue := rest } := by
        rw [waitingOf, queue]
        rfl
      obtain ⟨length, walk⟩ := searching.paths (nodeId, depth, path) (by simp [queue])
      have low := (searching.layered.walked (nodeId, depth) (by simp [waiting])).1
      have shallow : depth < request.maxDepth := by
        omega
      have popped : Visited graph request handled nodeId depth []
          { traversal with queue := rest } := by
        rw [waiting] at searching
        refine ⟨{ searching with paths := fun entry among => ?_ }, by simp, by simp⟩
        exact searching.paths entry (queue ▸ mem_cons_of_mem _ among)
      have visits := popped.foldl length walk shallow fun _ member => member
      have next (fuel : Nat) (larger : budget + 1 ≤ fuel) : ∃ left, budget ≤ left
          ∧ graph.traverse request fuel traversal = graph.traverse request left
            ((graph.neighbors (request.hopFrom nodeId)).foldl
              (Traversal.visit request depth path) { traversal with queue := rest }) := by
        obtain ⟨left, rfl⟩ : ∃ left, fuel = left + 1 := ⟨fuel - 1, by omega⟩
        exact ⟨left, by omega, traverse_cons left searching.unfilled queue shallow⟩
      generalize (graph.neighbors (request.hopFrom nodeId)).foldl
        (Traversal.visit request depth path) { traversal with queue := rest } = expanded
        at visits next
      rcases visits with filled | visited
      · refine ⟨_, filled.2, .inr filled.1, fun fuel larger => ?_⟩
        obtain ⟨left, _, same⟩ := next fuel larger
        rw [same, traverse_full left filled.1]
      · obtain ⟨last, traces, settled, ends⟩ := ih visited.settle (by simp; omega)
        refine ⟨last, traces, settled, fun fuel larger => ?_⟩
        obtain ⟨left, larger, same⟩ := next fuel larger
        rw [same, ends left larger]

def startOf (request : RelatedChunksRequest) : Traversal where
  chunks := []
  visited := [request.nodeId]
  queue := [(request.nodeId, 0, [])]
  full := false

theorem searching_start (graph : GraphIndex) (some : 0 < request.limit)
    : Searching graph request [] (waitingOf (startOf request)) (startOf request) where
  unfilled := rfl
  room := some
  traces := ⟨by simp [startOf], by simp [startOf], Nat.zero_le _⟩
  layered := .initial
  visited := by simp [startOf, waitingOf]
  paths := by
    intro entry member
    cases mem_singleton.mp member
    exact ⟨rfl, .nil⟩
  complete := by simp

theorem traces_relatedChunksWithTrace (graph : GraphIndex) (request : RelatedChunksRequest)
    : match graph.relatedChunksWithTrace request with
      | .error _ => 3 < request.maxDepth
      | .ok chunks => graph.Traces request chunks := by
  unfold relatedChunksWithTrace
  by_cases none : request.limit = 0 ∨ request.maxDepth = 0
  · rw [if_pos none]
    exact ⟨by simp, by simp, Nat.zero_le _⟩
  · rw [if_neg none]
    by_cases deep : 3 < request.maxDepth
    · rw [if_pos deep]
      exact deep
    · rw [if_neg deep]
      have some : 0 < request.limit := by omega
      obtain ⟨last, traces, -, ends⟩ := (searching_start graph some).traverse (by omega)
        (le_refl (graph.nodes.size + 2))
      exact (ends _ le_rfl).symm ▸ traces

/-- The search ends with an empty queue or at the limit, fails only for a depth beyond three, and
answers different chunks, each with a shortest walk.
Witness: nodes are expanded by depth.
-/
theorem related_chunks_by_shortest_walks (graph : GraphIndex) (request : RelatedChunksRequest)
    : (0 < request.limit → 0 < request.maxDepth → ∃ last : Traversal,
        (last.queue = [] ∨ last.full = true) ∧ ∀ fuel, graph.nodes.size + 2 ≤ fuel →
          graph.traverse request fuel (startOf request) = last)
      ∧ match graph.relatedChunksWithTrace request with
        | .error _ => 3 < request.maxDepth
        | .ok chunks => graph.Traces request chunks := by
  refine ⟨fun some deep => ?_, traces_relatedChunksWithTrace graph request⟩
  obtain ⟨last, -, settled, ends⟩ := (searching_start graph some).traverse deep
    (le_refl (graph.nodes.size + 2))
  exact ⟨last, settled, ends⟩

end GraphIndex

end AkiDB.Vectors
