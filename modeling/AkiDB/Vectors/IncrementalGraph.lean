import AkiDB.Vectors.NodeProperties

/-!
The graph as a projection of the live vectors, and when projecting or deleting one vector keeps it
so.
-/

namespace AkiDB.Vectors
open AkiDB.Common AtomicBatch Checked KeyedMaps List GraphIndex

section Definitions

variable (codec : JsonCodec)

def projectedNodes (id : String) (metadata : List UInt8) : KeyValueMap String GraphNode :=
  mergeNodes (projectionNodes codec id metadata)

def projectedEdges (id : String) (metadata : List UInt8) : KeyValueMap String GraphEdge :=
  edgesById (projectionEdges codec id metadata)

variable (live : String → Option (List UInt8))

/-- The graph holds the edges of the live vectors, their nodes, those they refer to, and no more. -/
structure Projected (graph : GraphIndex) : Prop where
  edges : ∀ (place : String) edge, graph.edges[place]? = some edge
    ↔ ∃ id metadata, live id = some metadata
      ∧ (projectedEdges codec id metadata)[place]? = some edge
  own : ∀ id metadata, live id = some metadata
    → graph.nodes[ownId codec id metadata]? = some (ownNode codec id metadata)
  shared : ∀ id metadata (place : String) node, live id = some metadata
    → (projectedNodes codec id metadata)[place]? = some node
    → (∀ other given, live other = some given → place ≠ ownId codec other given)
    → graph.nodes[place]? = some node
  owed : ∀ (place : String) node, graph.nodes[place]? = some node
    → ∃ id metadata, live id = some metadata
      ∧ ((projectedNodes codec id metadata)[place]?).isSome = true

/-- Two vectors share no edge, and write the nodes they share alike. -/
structure Compatible (id : String) (metadata : List UInt8) (other : String)
    (given : List UInt8) : Prop where
  edges : ∀ place : String, (projectedEdges codec id metadata)[place]? = none
    ∨ (projectedEdges codec other given)[place]? = none
  nodes : ∀ (place : String) node shared, (projectedNodes codec id metadata)[place]? = some node
    → (projectedNodes codec other given)[place]? = some shared
    → place ≠ ownId codec id metadata → place ≠ ownId codec other given → node = shared

def AllCompatible : Prop :=
  ∀ id metadata other given, live id = some metadata → live other = some given → id ≠ other
    → Compatible codec id metadata other given

/-- Another live vector writes the node. -/
def OwedByAnother (id place : String) : Prop :=
  ∃ other given, other ≠ id ∧ live other = some given
    ∧ ((projectedNodes codec other given)[place]?).isSome = true

/-- A write compatible with the other live vectors that leaves over nothing it owed before. -/
structure WriteKeeps (id : String)
    (metadata : List UInt8) : Prop where
  compatible : ∀ other given, live other = some given → other ≠ id
    → Compatible codec id metadata other given
  workspace : ∀ old, live id = some old → ownId codec id metadata = ownId codec id old
  nodes : ∀ old (place : String) node, live id = some old
    → (projectedNodes codec id old)[place]? = some node → place ≠ ownId codec id old
    → (projectedNodes codec id metadata)[place]? = some node
      ∨ ((projectedNodes codec id metadata)[place]? = none ∧ OwedByAnother codec live id place)

/-- No other live vector names the vector, and others owe every other node of its projection. -/
structure DeleteKeeps (id : String)
    (metadata : List UInt8) : Prop where
  alone : ∀ other given, live other = some given → other ≠ id
    → (projectedNodes codec other given)[ownId codec id metadata]? = none
  nodes : ∀ (place : String) node, live id = some metadata
    → (projectedNodes codec id metadata)[place]? = some node → place ≠ ownId codec id metadata
    → OwedByAnother codec live id place

end Definitions

section Facts

variable {codec : JsonCodec} {live : String → Option (List UInt8)} {graph : GraphIndex}
  {id other : String} {metadata given : List UInt8}

theorem ownId_ne (different : id ≠ other) : ownId codec id metadata ≠ ownId codec other given :=
  fun same => different (chunkNodeId_inj same).2

theorem projectedNodes_own : (projectedNodes codec id metadata)[ownId codec id metadata]?
    = some (ownNode codec id metadata) :=
  mergeNodes_own

variable {place : String} {node : GraphNode}

theorem id_of_projectedNodes (found : (projectedNodes codec id metadata)[place]? = some node)
    : node.id = place :=
  ((mergeNodes_sound _).1 place node found).1

theorem mem_of_projectedEdges {edge}
    (found : (projectedEdges codec id metadata)[place]? = some edge)
    : edge.id = place ∧ edge ∈ projectionEdges codec id metadata :=
  (edgesById_sound _).1 place edge found

theorem isSome_projectedEdges
    : ((projectedEdges codec id metadata)[place]?).isSome = true
      ↔ place ∈ (projectionEdges codec id metadata).map (·.id) := by
  rw [mem_map]
  constructor
  · intro present
    obtain ⟨edge, found⟩ := Option.isSome_iff_exists.mp present
    obtain ⟨named, member⟩ := mem_of_projectedEdges found
    exact ⟨edge, member, named⟩
  · rintro ⟨edge, member, rfl⟩
    exact (edgesById_sound _).2 edge member

theorem eq_referredChunk_of_projected (different : id ≠ other)
    (found : (projectedNodes codec id metadata)[ownId codec other given]? = some node)
    : node = referredChunk (workspaceIdFromMetadata codec given) other :=
  (eq_referredChunk_of_merged found (ownId_ne (Ne.symm different))).2

theorem Compatible.symm (compatible : Compatible codec id metadata other given)
    : Compatible codec other given id metadata where
  edges := fun place => (compatible.edges place).symm
  nodes := fun place node shared found held own ownOther =>
    (compatible.nodes place shared node held found ownOther own).symm

/-- The graph of live vectors is determined by them. -/
theorem Projected.unique {next} (left : Projected codec live graph)
    (right : Projected codec live next) : graph = next := by
  obtain ⟨nodes, edges⟩ := graph
  obtain ⟨otherNodes, otherEdges⟩ := next
  have sameEdges : edges = otherEdges := Std.ExtTreeMap.ext_getElem? fun place =>
    Option.ext fun edge => (left.edges place edge).trans (right.edges place edge).symm
  have within : ∀ {first second : GraphIndex}, Projected codec live first
      → Projected codec live second → ∀ (place : String) node,
      first.nodes[place]? = some node → second.nodes[place]? = some node := by
    intro first second one two place node found
    by_cases owned : ∃ id metadata, live id = some metadata ∧ place = ownId codec id metadata
    · obtain ⟨id, metadata, held, rfl⟩ := owned
      rw [one.own id metadata held] at found
      rw [two.own id metadata held, found]
    · have free : ∀ other given, live other = some given → place ≠ ownId codec other given :=
        fun other given held same => owned ⟨other, given, held, same⟩
      obtain ⟨id, metadata, held, present⟩ := one.owed place node found
      obtain ⟨shared, written⟩ := Option.isSome_iff_exists.mp present
      rw [one.shared id metadata place shared held written free] at found
      rw [two.shared id metadata place shared held written free, found]
  have sameNodes : nodes = otherNodes := Std.ExtTreeMap.ext_getElem? fun place =>
    Option.ext fun node => ⟨within left right place node, within right left place node⟩
  rw [sameEdges, sameNodes]

theorem projected_empty : Projected codec (fun _ => none) .empty where
  edges := by simp [empty]
  own := by simp
  shared := by simp
  owed := by simp [empty]

end Facts

section Projecting

variable {codec : JsonCodec} {live : String → Option (List UInt8)} {graph : GraphIndex}
  {id : String} {metadata : List UInt8}

section
variable (projected : Projected codec live graph)
include projected

theorem mem_storedEdgeIds {old} (held : live id = some old)
    : ∃ edgeIds, storedGraphProjectionEdgeIds graph (ownId codec id old) id = some edgeIds
      ∧ ∀ place, place ∈ edgeIds ↔ ((projectedEdges codec id old)[place]?).isSome = true := by
  have strings : ∀ values : List String, (values.map Json.string).filterMap Json.asStr
      = values := by
    intro values
    rw [filterMap_map]
    exact filterMap_some
  unfold storedGraphProjectionEdgeIds
  rw [projected.own id old held, Option.bind_some, lookup_ownNode_edgeIds, Option.bind_some]
  refine ⟨_, rfl, fun place => ?_⟩
  rw [mem_filter, strings, sortedDistinct, mem_dedup, mem_insertionSort, isSome_projectedEdges]
  refine and_iff_left_of_imp fun member => ?_
  obtain ⟨edge, found⟩ := Option.isSome_iff_exists.mp (isSome_projectedEdges.mpr member)
  have stored := (projected.edges place edge).mpr ⟨id, old, held, found⟩
  simp [stored, (projectedEdge (mem_of_projectedEdges found).2).evidence, Json.asStr]

theorem storedEdgeIds_eq_none (absent : live id = none)
    : storedGraphProjectionEdgeIds graph (ownId codec id metadata) id = none := by
  have different : ∀ other given, live other = some given → other ≠ id := by
    rintro other given held rfl
    cases absent.symm.trans held
  unfold storedGraphProjectionEdgeIds
  cases found : graph.nodes[ownId codec id metadata]? with
  | none => rfl
  | some node =>
    obtain ⟨other, given, held, present⟩ := projected.owed _ node found
    obtain ⟨written, writtenBy⟩ := Option.isSome_iff_exists.mp present
    have stored := projected.shared other given _ written held writtenBy
      fun any anyGiven anyHeld => ownId_ne (Ne.symm (different any anyGiven anyHeld))
    cases found.symm.trans stored
    rw [eq_referredChunk_of_projected (different other given held) writtenBy,
      Option.bind_some, lookup_referredChunk_edgeIds, Option.bind_none]

theorem mem_deleteEdges
    (keeps : WriteKeeps codec live id metadata) (place : String)
    : place ∈ (graphChunkBatch codec graph id metadata (live id)).deleteEdges
      ↔ ∃ old, live id = some old
        ∧ ((projectedEdges codec id old)[place]?).isSome = true := by
  unfold graphChunkBatch
  dsimp only
  rw [← ownId]
  cases held : live id with
  | none =>
    rw [storedEdgeIds_eq_none projected held]
    simp
  | some old =>
    obtain ⟨edgeIds, stored, same⟩ := mem_storedEdgeIds projected held
    rw [keeps.workspace old held, stored]
    simp [same place]

end

theorem writtenNode_eq {replaced place node existing} (named : node.id = place)
    (kept : place ∉ replaced) (sorted : Json.FieldsSorted node.properties)
    (same : ∀ stored, existing = some stored → stored = node)
    : writtenNode replaced existing node = node := by
  unfold writtenNode
  cases existing with
  | none => rfl
  | some stored =>
    cases same stored rfl
    have absent : ¬replaced.contains node.id = true := by simpa [named] using kept
    dsimp only
    rw [if_neg absent, extendProperties_eq sorted fun field => lookup_field sorted]

theorem held_update {other given value}
    : Function.update live id value other = some given
      ↔ (other = id ∧ value = some given) ∨ (other ≠ id ∧ live other = some given) := by
  by_cases same : other = id
  · subst same
    simp
  · simp [same]

/-- The node is not the own node of a live vector. -/
def Unowned (codec : JsonCodec) (live : String → Option (List UInt8)) (place : String) : Prop :=
  ∀ other given, live other = some given → place ≠ ownId codec other given

theorem Unowned.before_write {place}
    (free : Unowned codec (Function.update live id (some metadata)) place)
    (keeps : WriteKeeps codec live id metadata) : Unowned codec live place := by
  intro other given held
  by_cases same : other = id
  · subst same
    rw [← keeps.workspace given held]
    exact free other metadata (Function.update_self ..)
  · exact free other given (held_update.mpr (.inr ⟨same, held⟩))

section
variable (projected : Projected codec live graph)
include projected

variable {node : GraphNode}

theorem Projected.writtenNode_shared (keeps : WriteKeeps codec live id metadata) {place}
    (found : (projectedNodes codec id metadata)[place]? = some node)
    (free : Unowned codec (Function.update live id (some metadata)) place)
    : writtenNode [ownId codec id metadata] graph.nodes[place]? node = node := by
  have freeBefore := free.before_write keeps
  have notOwn := free id metadata (Function.update_self ..)
  refine writtenNode_eq (id_of_projectedNodes found) (by simpa using notOwn)
    (sorted_of_merged found) ?_
  intro stored existing
  obtain ⟨other, given, held, present⟩ := projected.owed place stored existing
  obtain ⟨shared, writtenBy⟩ := Option.isSome_iff_exists.mp present
  cases existing.symm.trans (projected.shared other given place shared held writtenBy freeBefore)
  by_cases same : other = id
  · subst same
    rcases keeps.nodes given place stored held writtenBy (freeBefore other given held) with
      again | ⟨gone, _⟩
    · exact Option.some.inj (again.symm.trans found)
    · cases gone.symm.trans found
  · exact ((keeps.compatible other given held same).nodes place node stored found writtenBy
      notOwn (freeBefore other given held)).symm

theorem Projected.edges_project
    (compatible : AllCompatible codec live) (keeps : WriteKeeps codec live id metadata)
    (place : String) (edge : GraphEdge)
    : (graph.applied (graphChunkBatch codec graph id metadata (live id))).edges[place]?
        = some edge
      ↔ ∃ other given, Function.update live id (some metadata) other = some given
        ∧ (projectedEdges codec other given)[place]? = some edge := by
  have applied : (graph.applied (graphChunkBatch codec graph id metadata (live id))).edges[place]?
      = (projectedEdges codec id metadata)[place]?.or
        (if place ∈ (graphChunkBatch codec graph id metadata (live id)).deleteEdges then none
          else graph.edges[place]?) :=
    edges_applied graph _ place
  rw [applied]
  constructor
  · intro found
    cases own : (projectedEdges codec id metadata)[place]? with
    | some newEdge =>
      rw [own, Option.some_or] at found
      exact ⟨id, metadata, Function.update_self .., own.trans found⟩
    | none =>
      rw [own, Option.none_or] at found
      split at found
      · cases found
      · next kept =>
          obtain ⟨other, given, held, heldEdge⟩ := (projected.edges place edge).mp found
          refine ⟨other, given, held_update.mpr (.inr ⟨?_, held⟩), heldEdge⟩
          rintro rfl
          exact kept ((mem_deleteEdges projected keeps place).mpr ⟨given, held, by simp [heldEdge]⟩)
  · rintro ⟨other, given, held, heldEdge⟩
    rcases held_update.mp held with ⟨rfl, ⟨⟩⟩ | ⟨different, before⟩
    · rw [heldEdge, Option.some_or]
    · have free : (projectedEdges codec id metadata)[place]? = none :=
        ((keeps.compatible other given before different).edges place).resolve_right
          (by simp [heldEdge])
      have kept : place ∉ (graphChunkBatch codec graph id metadata (live id)).deleteEdges := by
        intro deleted
        obtain ⟨old, oldHeld, present⟩ := (mem_deleteEdges projected keeps place).mp deleted
        rcases (compatible other given id old before oldHeld different).edges place with
          none | none
        · cases none.symm.trans heldEdge
        · exact absurd present (by simp [none])
      rw [free, Option.none_or, if_neg kept]
      exact (projected.edges place edge).mpr ⟨other, given, before, heldEdge⟩

theorem Projected.writtenNode_own {other given} (held : live other = some given)
    (different : other ≠ id)
    (found : (projectedNodes codec id metadata)[ownId codec other given]? = some node)
    : writtenNode [ownId codec id metadata] graph.nodes[ownId codec other given]? node
      = ownNode codec other given := by
  have referred := eq_referredChunk_of_projected (Ne.symm different) found
  have absent : ¬[ownId codec id metadata].contains node.id = true := by
    rw [id_of_projectedNodes found]
    simpa using ownId_ne different
  rw [projected.own other given held]
  unfold writtenNode
  dsimp only
  rw [if_neg absent, extendProperties_eq (sorted_ownNode ..) (by
    rw [referred]
    exact fun field member => lookup_ownNode _ _ _ member)]
  have sameId : node.id = (ownNode codec other given).id := by
    rw [id_of_projectedNodes found, id_ownNode]
  have sameKind : node.kind = (ownNode codec other given).kind := by
    rw [referred, kind_ownNode]
    rfl
  rw [sameId, sameKind]

theorem Projected.project
    (compatible : AllCompatible codec live) (keeps : WriteKeeps codec live id metadata)
    : Projected codec (Function.update live id (some metadata))
        (graph.applied (graphChunkBatch codec graph id metadata (live id))) := by
  have nodesAt : ∀ place : String,
      (graph.applied (graphChunkBatch codec graph id metadata (live id))).nodes[place]?
        = (projectedNodes codec id metadata)[place]?.elim graph.nodes[place]? fun node =>
          some (writtenNode [ownId codec id metadata] graph.nodes[place]? node) :=
    nodes_applied graph _
  refine ⟨projected.edges_project compatible keeps, ?_, ?_, ?_⟩
  · intro other given held
    rw [nodesAt]
    rcases held_update.mp held with ⟨rfl, ⟨⟩⟩ | ⟨different, before⟩
    · rw [projectedNodes_own, Option.elim_some]
      unfold writtenNode
      split
      · rfl
      · rw [if_pos (by simp [id_ownNode])]
    · cases found : (projectedNodes codec id metadata)[ownId codec other given]? with
      | none => exact projected.own other given before
      | some node => rw [Option.elim_some, projected.writtenNode_own before different found]
  · intro other given place node held found free
    rw [nodesAt]
    rcases held_update.mp held with ⟨rfl, ⟨⟩⟩ | ⟨different, before⟩
    · rw [found, Option.elim_some, projected.writtenNode_shared keeps found free]
    · cases own : (projectedNodes codec id metadata)[place]? with
      | none =>
        exact projected.shared other given place node before found (Unowned.before_write free keeps)
      | some shared =>
        have same := (keeps.compatible other given before different).nodes place shared node own
          found (free id metadata (Function.update_self ..)) (free other given held)
        rw [Option.elim_some, projected.writtenNode_shared keeps own free, same]
  · intro place node found
    rw [nodesAt] at found
    cases own : (projectedNodes codec id metadata)[place]? with
    | some shared => exact ⟨id, metadata, Function.update_self .., by simp [own]⟩
    | none =>
      rw [own, Option.elim_none] at found
      obtain ⟨other, given, held, present⟩ := projected.owed place node found
      by_cases same : other = id
      · subst same
        obtain ⟨shared, writtenBy⟩ := Option.isSome_iff_exists.mp present
        have notOwn : place ≠ ownId codec other given := by
          rintro rfl
          rw [← keeps.workspace given held, projectedNodes_own] at own
          cases own
        rcases keeps.nodes given place shared held writtenBy notOwn with
          again | ⟨_, owing, owed, different, owingHeld, owingPresent⟩
        · cases own.symm.trans again
        · exact ⟨owing, owed, held_update.mpr (.inr ⟨different, owingHeld⟩), owingPresent⟩
      · exact ⟨other, given, held_update.mpr (.inr ⟨same, held⟩), present⟩

end

theorem AllCompatible.update (compatible : AllCompatible codec live)
    (keeps : WriteKeeps codec live id metadata)
    : AllCompatible codec (Function.update live id (some metadata)) := by
  intro left first right second heldLeft heldRight different
  rcases held_update.mp heldLeft with ⟨rfl, ⟨⟩⟩ | ⟨leftOther, leftBefore⟩
  · rcases held_update.mp heldRight with ⟨rfl, _⟩ | ⟨rightOther, rightBefore⟩
    · exact absurd rfl different
    · exact keeps.compatible right second rightBefore rightOther
  · rcases held_update.mp heldRight with ⟨rfl, ⟨⟩⟩ | ⟨_, rightBefore⟩
    · exact (keeps.compatible left first leftBefore leftOther).symm
    · exact compatible left first right second leftBefore rightBefore different

end Projecting

section Deleting

variable {codec : JsonCodec} {live : String → Option (List UInt8)} {graph next : GraphIndex}
  {id : String} {metadata : List UInt8} {fault : Option GraphError}

theorem Projected.without (projected : Projected codec live graph)
    (held : live id = some metadata) (keeps : DeleteKeeps codec live id metadata)
    : Projected codec (Function.update live id none) (graph.without (ownId codec id metadata)) := by
  have among : ∀ other given, Function.update live id none other = some given
      ↔ other ≠ id ∧ live other = some given := by
    simp [held_update]
  constructor
  · intro place edge
    rw [edges_without, Option.filter_eq_some_iff, projected.edges place edge]
    constructor
    · rintro ⟨⟨other, given, before, found⟩, apart⟩
      refine ⟨other, given, (among other given).mpr ⟨?_, before⟩, found⟩
      rintro rfl
      cases held.symm.trans before
      obtain ⟨_, _, _, _, _, ends⟩ := (projectedEdge (mem_of_projectedEdges found).2).ends
      rw [decide_eq_true_eq] at apart
      exact ends.elim (fun source => apart.1 source.1) fun target => apart.2 target.2
    · rintro ⟨other, given, after, found⟩
      obtain ⟨different, before⟩ := (among other given).mp after
      refine ⟨⟨other, given, before, found⟩, decide_eq_true ?_⟩
      obtain ⟨node, referred, _, _, _, ends⟩ :=
        (projectedEdge (mem_of_projectedEdges found).2).ends
      have notOwn : ownId codec other given ≠ ownId codec id metadata := ownId_ne different
      have notReferred : node.id ≠ ownId codec id metadata := by
        intro same
        have present := (mergeNodes_sound (projectionNodes codec other given)).2 node
          (mem_cons_of_mem _ referred)
        rw [same] at present
        exact absurd present (by
          rw [show (mergeNodes (projectionNodes codec other given))[ownId codec id
            metadata]? = none from keeps.alone other given before different]
          simp)
      rcases ends with ⟨source, target⟩ | ⟨source, target⟩
      · exact ⟨source ▸ notOwn, target ▸ notReferred⟩
      · exact ⟨source ▸ notReferred, target ▸ notOwn⟩
  · intro other given after
    obtain ⟨different, before⟩ := (among other given).mp after
    rw [nodes_without, if_neg (ownId_ne (Ne.symm different))]
    exact projected.own other given before
  · intro other given place node after found free
    obtain ⟨different, before⟩ := (among other given).mp after
    have notOwn : place ≠ ownId codec id metadata := by
      rintro rfl
      cases (keeps.alone other given before different).symm.trans found
    rw [nodes_without, if_neg (Ne.symm notOwn)]
    refine projected.shared other given place node before found fun any anyGiven anyHeld => ?_
    by_cases same : any = id
    · subst same
      cases held.symm.trans anyHeld
      exact notOwn
    · exact free any anyGiven ((among any anyGiven).mpr ⟨same, anyHeld⟩)
  · intro place node found
    rw [nodes_without] at found
    split at found
    · cases found
    · next notOwn =>
        obtain ⟨other, given, before, present⟩ := projected.owed place node found
        by_cases same : other = id
        · subst same
          cases held.symm.trans before
          obtain ⟨shared, writtenBy⟩ := Option.isSome_iff_exists.mp present
          obtain ⟨owing, owed, different, owingHeld, owingPresent⟩ :=
            keeps.nodes place shared held writtenBy (Ne.symm notOwn)
          exact ⟨owing, owed, (among owing owed).mpr ⟨different, owingHeld⟩, owingPresent⟩
        · exact ⟨other, given, (among other given).mpr ⟨same, before⟩, present⟩

theorem Projected.delete (projected : Projected codec live graph)
    (known : live id = some metadata ∨ live id = none)
    (keeps : DeleteKeeps codec live id metadata)
    (deleted : graph.deleteNode fault (ownId codec id metadata) = .ok next)
    : Projected codec (Function.update live id none) next := by
  rcases known with held | absent
  · rcases deleteNode_eq_ok deleted with ⟨missing, _⟩ | ⟨_, rfl⟩
    · cases missing.symm.trans (projected.own id metadata held)
    · exact projected.without held keeps
  · have same : Function.update live id none = live := by rw [← absent, Function.update_eq_self]
    rw [same]
    rcases deleteNode_eq_ok deleted with ⟨_, rfl⟩ | ⟨present, _⟩
    · exact projected
    · -- a node of a dead vector would be owed by a vector that names it
      obtain ⟨node, found⟩ := Option.isSome_iff_exists.mp present
      obtain ⟨other, given, held, written⟩ := projected.owed _ node found
      have different : other ≠ id := by
        rintro rfl
        cases absent.symm.trans held
      rw [keeps.alone other given held different] at written
      cases written

theorem AllCompatible.erase (compatible : AllCompatible codec live)
    : AllCompatible codec (Function.update live id none) := by
  have before : ∀ other given, Function.update live id none other = some given
      → live other = some given := by
    simp [held_update]
  intro left first right second heldLeft heldRight different
  exact compatible left first right second (before left first heldLeft)
    (before right second heldRight) different

end Deleting

section Rebuilding

variable {codec : JsonCodec}

/-- Edges of a projection stay in one workspace, so no batch is turned away. -/
theorem upsertBatch_graphChunkBatch (graph : GraphIndex) (id : String) (metadata : List UInt8)
    (previous : Option (List UInt8))
    : graph.upsertBatch none (graphChunkBatch codec graph id metadata previous)
      = .ok (graph.applied (graphChunkBatch codec graph id metadata previous)) := by
  have nonempty : (graphChunkBatch codec graph id metadata previous).isEmpty = false := by
    simp [GraphMutationBatch.isEmpty, graphChunkBatch]
  have checked : ∀ edge ∈ (edgesById (projectionEdges codec id metadata)).toList.map
      Prod.snd, edge.weight.isFinite ∧ GraphNodeId.isSameWorkspace edge.source edge.target := by
    intro edge member
    obtain ⟨place, found⟩ := mem_values.mp member
    have edgeOf := projectedEdge (mem_of_projectedEdges found).2
    obtain ⟨node, _, kind, raw, named, ends⟩ := edgeOf.ends
    refine ⟨edgeOf.finite, ?_⟩
    rcases ends with ⟨source, target⟩ | ⟨source, target⟩
    · rw [source, target, named]
      exact isSameWorkspace_graphNodeId _ .chunk kind id raw
    · rw [source, target, named]
      exact isSameWorkspace_graphNodeId _ kind .chunk raw id
  unfold upsertBatch
  rw [if_neg (by simp [nonempty])]
  refine seq_eq_ok.mpr ⟨checkEach_eq_ok.mpr fun edge member => ?_, rfl⟩
  exact seq_eq_ok.mpr ⟨rejectIf_eq_ok.mpr (by simp [(checked edge member).1]),
    rejectIf_eq_ok.mpr (not_not_intro (checked edge member).2)⟩

/-- Projecting compatible vectors, in any order, succeeds and leaves the graph of all of them. -/
theorem indexChunks_projected {full : String → Option (List UInt8)}
    (compatible : AllCompatible codec full) {order} (distinct : (order.map (·.externalId)).Nodup)
    (waiting : ∀ stored ∈ order, full stored.externalId = some stored.metadata)
    {live : String → Option (List UInt8)} {graph}
    (done : ∀ id metadata, live id = some metadata → full id = some metadata)
    (missing : ∀ stored ∈ order, live stored.externalId = none)
    (projected : Projected codec live graph)
    : ∃ next, indexChunks codec {} order graph = (.ok (), next)
      ∧ ∃ after : String → Option (List UInt8), Projected codec after next
        ∧ ∀ id, after id
          = if id ∈ order.map (·.externalId) then full id else live id := by
  induction order generalizing live graph with
  | nil => exact ⟨graph, rfl, live, projected, by simp⟩
  | cons stored rest ih =>
    rw [map_cons, nodup_cons] at distinct
    have unknown := missing stored mem_cons_self
    have known := waiting stored mem_cons_self
    have keeps : WriteKeeps codec live stored.externalId stored.metadata := by
      refine ⟨fun other given held different => ?_, ?_, ?_⟩
      · exact compatible _ _ _ _ known (done other given held) (Ne.symm different)
      · intro old held
        cases unknown.symm.trans held
      · intro old place node held
        cases unknown.symm.trans held
    have written := projected.project (fun left first right second heldLeft heldRight different =>
        compatible left first right second (done left first heldLeft)
          (done right second heldRight) different) keeps
    rw [unknown] at written
    obtain ⟨next, indexed, after, result, same⟩ := @ih distinct.2
      (fun later member => waiting later (mem_cons_of_mem _ member))
      (Function.update live stored.externalId (some stored.metadata)) _
      (fun id metadata held => by
        rcases held_update.mp held with ⟨rfl, same⟩ | ⟨_, before⟩
        · rw [known, same]
        · exact done id metadata before)
      (fun later member => by
        have different : later.externalId ≠ stored.externalId := fun own =>
          distinct.1 (own ▸ mem_map_of_mem member)
        rw [Function.update_of_ne different]
        exact missing later (mem_cons_of_mem _ member))
      written
    refine ⟨next, ?_, after, result, fun id => ?_⟩
    · unfold indexChunks
      have accepted := @upsertBatch_graphChunkBatch codec graph stored.externalId
        stored.metadata none
      rw [accepted]
      exact indexed
    · rw [same id]
      by_cases own : id = stored.externalId
      · subst own
        rw [if_neg distinct.1, Function.update_self, if_pos (by simp), known]
      · rw [Function.update_of_ne own]
        by_cases later : id ∈ rest.map (·.externalId)
        · simp only [map_cons, mem_cons, later, or_true, if_true]
        · simp only [map_cons, mem_cons, own, later, or_false, if_false]

end Rebuilding

end AkiDB.Vectors
