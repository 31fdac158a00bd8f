import AkiDB.Vectors.Alignment
import AkiDB.Vectors.GraphTraversal
import AkiDB.Vectors.TextSearch

/-!
What searches return: live vectors that pass the filter, but for the graph stage and the
structured mode.
-/

namespace AkiDB.Vectors
open AkiDB.Common AtomicBatch Checked KeyedMaps List VectorService

/-! Rankings of permitted ids -/

/-- A ranking of permitted ids, each once. -/
structure RankedOf (allowed : String → Prop) (ranked : List ScoredId) : Prop where
  distinct : (ranked.map (·.id)).Nodup
  allowed : ∀ id ∈ ranked.map (·.id), allowed id

namespace RankedOf

variable {allowed other : String → Prop} {ranked next : List ScoredId}

theorem nil : RankedOf allowed [] :=
  ⟨nodup_nil, by simp⟩

section
variable (sound : RankedOf allowed ranked)
include sound

theorem mono (weaker : ∀ id, allowed id → other id)
    : RankedOf other ranked :=
  ⟨sound.distinct, fun id member => weaker id (sound.allowed id member)⟩

theorem of_sublist (shorter : next.Sublist ranked)
    : RankedOf allowed next :=
  ⟨sound.distinct.sublist (shorter.map _),
    fun id member => sound.allowed id ((shorter.map _).subset member)⟩

theorem of_perm
    (same : (next.map (·.id)).Perm (ranked.map (·.id))) : RankedOf allowed next :=
  ⟨same.nodup_iff.mpr sound.distinct, fun id member => sound.allowed id (same.mem_iff.mp member)⟩

theorem filter (passes : String → Bool)
    : RankedOf (fun id => allowed id ∧ passes id = true) (ranked.filter (passes ·.id)) := by
  refine ⟨sound.distinct.sublist (filter_sublist.map _), fun id member => ?_⟩
  obtain ⟨item, kept, rfl⟩ := mem_map.mp member
  obtain ⟨listed, passed⟩ := mem_filter.mp kept
  exact ⟨sound.allowed _ (mem_map_of_mem listed), passed⟩

theorem raiseScore {id} (permitted : allowed id) (score : Score)
    : RankedOf allowed (raiseScore id score ranked) := by
  have ids : ∀ list : List ScoredId, (Vectors.raiseScore id score list).map (·.id)
      = if id ∈ list.map (·.id) then list.map (·.id) else list.map (·.id) ++ [id] := by
    intro list
    induction list with
    | nil => simp [Vectors.raiseScore]
    | cons item rest ih =>
      unfold Vectors.raiseScore
      by_cases same : item.id = id
      · simp [same]
      · have other : id ≠ item.id := Ne.symm same
        rw [if_neg same, map_cons, ih]
        by_cases known : id ∈ rest.map (·.id)
        · simp only [known, if_true, map_cons, mem_cons, or_true]
        · simp only [known, if_false, map_cons, mem_cons, other, or_self, cons_append]
  by_cases known : id ∈ ranked.map (·.id)
  · refine sound.of_perm ?_
    rw [ids, if_pos known]
  · refine ⟨?_, fun found member => ?_⟩
    · rw [ids, if_neg known, ← concat_eq_append]
      exact Nodup.concat known sound.distinct
    · rw [ids, if_neg known] at member
      rcases mem_append.mp member with old | new
      · exact sound.allowed found old
      · exact mem_singleton.mp new ▸ permitted

end

end RankedOf

namespace HnswIndex

variable {floats : Floats} {config : HnswConfig} {index : HnswIndex} {query : List Score}
  {params : SearchParams} {found : List (Nat × Score)}

/-- An accepted hit carries the external id of its candidate. -/
theorem reverse_of_acceptHits {candidate : Nat × Score} {hit : Nat × ScoredId}
    (accepted : (if index.isDeleted candidate.1 then none
      else match index.reverseMapping[candidate.1]? with
        | none => none
        | some id => if params.filter.all (· id) then
            some (candidate.1, (⟨id, distanceToScore floats config candidate.2⟩ : ScoredId))
          else none) = some hit)
    : index.reverseMapping[candidate.1]? = some hit.2.id := by
  split at accepted
  · cases accepted
  · split at accepted
    · cases accepted
    · next id reverse =>
        split at accepted
        · cases accepted; exact reverse
        · cases accepted

theorem distinct_acceptHits (wellFormed : index.WellFormed) (distinct : (found.map Prod.fst).Nodup)
    : ((index.acceptHits floats config params found).map (·.2.id)).Nodup := by
  refine pairwise_map.mpr (pairwise_filterMap.mpr ?_)
  refine (pairwise_map.mp distinct).imp ?_
  intro left right apart first accepted second other same
  have one := (wellFormed.mapped_iff _ _).mpr (reverse_of_acceptHits accepted)
  have two := (wellFormed.mapped_iff _ _).mpr (reverse_of_acceptHits other)
  rw [same] at one
  exact apart (Option.some.inj (one.symm.trans two))

theorem length_windowResults
    : (index.windowResults floats config query params found).length ≤ params.topK := by
  unfold windowResults
  split
  · exact length_take_le ..
  · rw [length_map]
    exact length_take_le ..

theorem distinct_windowResults (wellFormed : index.WellFormed)
    (distinct : (found.map Prod.fst).Nodup)
    : ((index.windowResults floats config query params found).map (·.id)).Nodup := by
  have hits := @distinct_acceptHits floats config index params found wellFormed distinct
  unfold windowResults
  split
  · refine Nodup.sublist ((take_sublist ..).map _) ?_
    refine ((perm_insertionSort _ _).map _).nodup_iff.mpr ?_
    rw [map_map]
    rw [map_congr_left (g := fun hit => hit.2.id) fun hit _ => by
      dsimp only [Function.comp]
      split <;> rfl]
    exact hits
  · rw [map_map]
    exact hits.sublist ((take_sublist ..).map _)

theorem ranked_searchWindow {usearch window} (wellFormed : index.WellFormed)
    (sound : usearch.Sound index.contents)
    (searched : index.searchWindow floats config usearch query params = .ok window)
    : RankedOf (fun id => (∃ held, index.Exposes id held)
        ∧ params.filter.all (· id) = true) window.results
      ∧ window.results.length ≤ params.topK := by
  rcases results_of_searchWindow searched with none | ⟨_, _, found, asked, same⟩
  · rw [none]
    exact ⟨.nil, Nat.zero_le _⟩
  · rw [same]
    refine ⟨⟨distinct_windowResults wellFormed (sound.nodup asked), fun id member => ?_⟩,
      length_windowResults⟩
    obtain ⟨result, listed, rfl⟩ := mem_map.mp member
    obtain ⟨candidate, _, exposed, passes⟩ := mem_windowResults listed
    exact ⟨⟨_, exposed⟩, passes⟩

end HnswIndex

theorem Bm25Index.ranked_search (floats : Floats) (unicode : UnicodeText) (index : Bm25Index)
    (query : String) (topK : Nat)
    : RankedOf (fun id => index.contains id = true) (index.search floats unicode query topK) := by
  have rowOf : ∀ {row : String × List String} {item : ScoredId},
      index.scoreDocument floats (tokenize unicode query) row = some item
        → item.id = row.1 := by
    intro row item scored
    unfold scoreDocument at scored
    split at scored
    · cases scored
    · cases scored; rfl
  have documents : RankedOf (fun id => index.contains id = true) (index.documents.toList.filterMap
        (index.scoreDocument floats (tokenize unicode query))) := by
    constructor
    · refine pairwise_map.mpr (pairwise_filterMap.mpr ?_)
      refine index.documents.distinct_keys_toList.imp ?_
      intro left right apart first scored second other same
      rw [rowOf scored, rowOf other] at same
      exact apart (compare_eq_iff_eq.mpr same)
    · intro id member
      obtain ⟨item, listed, rfl⟩ := mem_map.mp member
      obtain ⟨row, present, scored⟩ := mem_filterMap.mp listed
      rw [rowOf scored]
      have found := Std.ExtTreeMap.mem_toList_iff_getElem?_eq_some.mp present
      simp [Bm25Index.contains, Std.ExtTreeMap.contains_eq_isSome_getElem?, found]
  exact (documents.of_perm ((perm_insertionSort _ _).map _)).of_sublist (take_sublist ..)

namespace GraphIndex

variable {graph : GraphIndex}

def HasChunk (graph : GraphIndex) (vectorId : String) : Prop :=
  ∃ (place : String) (node : GraphNode), graph.nodes[place]? = some node
    ∧ GraphNodeId.asChunkVectorId node.id = some vectorId

theorem chunks_relatedChunksWithTrace {request chunks}
    (related : graph.relatedChunksWithTrace request = .ok chunks)
    : ∀ chunk ∈ chunks, graph.HasChunk chunk.vectorId := by
  have traces := traces_relatedChunksWithTrace graph request
  rw [related] at traces
  rintro ⟨vectorId, viaNode, hop, pathEdges⟩ member
  have traced := traces.traced _ member
  cases traced.walk with
  | nil => exact absurd rfl traced.other
  | step before leads =>
    obtain ⟨⟨place, node⟩, stored, same⟩ := mem_map.mp (mem_steps leads).2
    refine ⟨place, node, Std.ExtTreeMap.mem_toList_iff_getElem?_eq_some.mp stored, ?_⟩
    exact (congrArg GraphNodeId.asChunkVectorId same).trans traced.named

end GraphIndex

namespace ExpansionSettings

variable {settings : ExpansionSettings} {allowed : String → Prop} {expansion : Expansion}

theorem ranked_expandChunk {seedId seedScore chunk}
    (permitted : settings.passes chunk.vectorId = true → allowed chunk.vectorId)
    (sound : RankedOf allowed expansion.ranked)
    : RankedOf allowed (settings.expandChunk seedId seedScore expansion chunk).ranked := by
  unfold expandChunk
  dsimp only
  split
  · exact sound
  · split
    · exact sound
    · next passes => exact sound.raiseScore (permitted (by simpa using passes)) _

theorem ranked_expandSeed {graph seed}
    (permitted : ∀ id, graph.HasChunk id → settings.passes id = true → allowed id)
    (sound : RankedOf allowed expansion.ranked)
    : RankedOf allowed (settings.expandSeed graph expansion seed).ranked := by
  obtain ⟨seedNode, seedId, seedScore⟩ := seed
  unfold expandSeed
  dsimp only
  split
  · exact sound
  · split
    · exact sound
    · split
      · exact sound
      · next chunks related =>
          refine List.foldlRecOn
            (motive := fun expansion : Expansion => RankedOf allowed expansion.ranked)
            _ _ sound ?_
          intro _ sound chunk member
          exact ranked_expandChunk
            (permitted _ (GraphIndex.chunks_relatedChunksWithTrace related chunk member)) sound

/-- An expansion adds chunks of the graph that pass the filter. -/
theorem ranked_expandRanking {graph query workspaceId ranked}
    (permitted : ∀ id, graph.HasChunk id → settings.passes id = true → allowed id)
    (sound : RankedOf allowed ranked)
    : RankedOf allowed (settings.expandRanking graph query workspaceId ranked).ranked := by
  unfold expandRanking
  refine RankedOf.of_perm ?_ (ids_sortRanked _)
  exact List.foldlRecOn (motive := fun expansion : Expansion => RankedOf allowed expansion.ranked)
    _ _ sound fun _ sound seed _ => ranked_expandSeed permitted sound

end ExpansionSettings

/-! Cuts -/

theorem gt_eq_false_of_ge {score minimum : Score} (finite : minimum.isFinite = true)
    (above : score.isFinite && score.ge minimum) : minimum.gt score = false := by
  cases minimum with
  | finite minimum =>
    cases score with
    | finite score =>
      simp only [Score.isFinite, Score.ge, Score.partialCmp, Bool.true_and,
        Option.some.injEq, decide_eq_true_eq] at above
      simp only [Score.gt, Score.partialCmp, Option.some.injEq, decide_eq_false_iff_not]
      rw [compare_gt_iff_gt, compare_eq_iff_eq] at above
      rw [compare_gt_iff_gt]
      rcases above with greater | rfl
      · exact not_lt.mpr (le_of_lt greater)
      · exact lt_irrefl _
    | _ => simp [Score.isFinite] at above
  | _ => simp [Score.isFinite] at finite

theorem gt_eq_false_of_not_isFinite {score minimum : Score}
    (unbounded : minimum.isFinite = false) (other : minimum ≠ .infinite false)
    : minimum.gt score = false := by
  cases minimum with
  | nan => rfl
  | infinite negative =>
    cases negative with
    | false => exact absurd rfl other
    | true =>
      cases score with
      | nan => rfl
      | infinite negative => cases negative <;> rfl
      | finite => rfl
  | finite => simp [Score.isFinite] at unbounded

theorem below_aboveThreshold {results scoreThreshold} {hit : SearchHit} {minimum : Score}
    (given : scoreThreshold = some minimum) (other : minimum ≠ .infinite false)
    (member : hit ∈ aboveThreshold results scoreThreshold) : minimum.gt hit.score = false := by
  subst given
  unfold aboveThreshold at member
  dsimp only at member
  split at member
  · next finite => exact gt_eq_false_of_ge finite (mem_filter.mp member).2
  · next unbounded => exact gt_eq_false_of_not_isFinite (by simpa using unbounded) other

variable (groupOf : SearchHit → List UInt8)

variable {topK : Nat}

theorem length_takeGrouped (perGroup : Nat) (positive : 0 < topK) (seen : List (List UInt8))
    (results : List SearchHit)
    : (takeGrouped groupOf perGroup topK seen results).length ≤ topK := by
  induction results generalizing topK seen with
  | nil => exact Nat.zero_le _
  | cons hit rest ih =>
    unfold takeGrouped
    split
    · rw [length_cons]
      split
      · exact positive
      · have shorter := @ih (topK - 1) (by omega) (groupOf hit :: seen)
        omega
    · exact ih positive seen

theorem count_takeGrouped (perGroup topK : Nat) (seen : List (List UInt8))
    (results : List SearchHit) (group : List UInt8)
    : ((takeGrouped groupOf perGroup topK seen results).filter (groupOf · = group)).length
      + seen.count group ≤ max perGroup (seen.count group) := by
  induction results generalizing topK seen with
  | nil => exact Nat.zero_add _ ▸ Nat.le_max_right ..
  | cons hit rest ih =>
    unfold takeGrouped
    split
    · next room =>
        have later := ih (topK - 1) (groupOf hit :: seen)
        by_cases own : groupOf hit = group
        · subst own
          rw [count_cons_self] at later
          rw [filter_cons_of_pos (by simp), length_cons]
          split
          · simp only [filter_nil, length_nil]
            omega
          · omega
        · rw [count_cons_of_ne own] at later
          rw [filter_cons_of_neg (by simpa using own)]
          split
          · simp only [filter_nil, length_nil]
            omega
          · exact later
    · exact ih topK seen

/-! Results -/

/-- What a search asks of its results besides their order. -/
structure ResultLimits where
  topK : Nat
  scoreThreshold : Option Score
  groupBy : String
  groupSize : Option Nat

/-- The key of a grouping; a blank one groups nothing. -/
def groupKey (groupBy : String) : String :=
  String.ofList (Utf8Text.trimmed groupBy)

/-- Results that are bounded, distinct, live, pass the filter, and keep group size and threshold. -/
structure SoundResults (config : ServiceConfig) (service : VectorService)
    (filter : Option MetadataFilter) (limits : ResultLimits) (results : List SearchHit) : Prop
    where
  bounded : results.length ≤ limits.topK
  distinct : (results.map (·.id)).Nodup
  live : ∀ hit ∈ results, (service.idMapping.getVector hit.id).isSome = true
  passes : ∀ hit ∈ results, ∀ given, filter = some given
    → service.metadataMatchesFilter config hit.id given = true
  grouped : groupKey limits.groupBy ≠ "" → ∀ group,
    (results.filter fun hit => config.metadataGroupKey hit.metadata (groupKey limits.groupBy)
      = group).length ≤ max (limits.groupSize.getD 1) 1
  above : ∀ minimum, limits.scoreThreshold = some minimum
    → ∀ hit ∈ results, minimum.gt hit.score = false

namespace VectorService

/-- The id is a live vector that passes the filter, if there is one. -/
def Answers (config : ServiceConfig) (service : VectorService)
    (filter : Option MetadataFilter) (id : String) : Prop :=
  (service.idMapping.getVector id).isSome = true
    ∧ ∀ given, filter = some given → service.metadataMatchesFilter config id given = true

section Results

variable {config : ServiceConfig} {service : VectorService} {filter : Option MetadataFilter}

theorem answers_of_matches {id given}
    (matched : service.metadataMatchesFilter config id given = true)
    : service.Answers config (some given) id := by
  refine ⟨?_, fun other same => Option.some.inj same ▸ matched⟩
  unfold metadataMatchesFilter loadMetadataValue at matched
  cases found : service.idMapping.getVector id with
  | none => simp [found] at matched
  | some => rfl

theorem answers_of_passes {id}
    (passes : filter.all (service.metadataMatchesFilter config id ·) = true)
    (live : filter = none → (service.idMapping.getVector id).isSome = true)
    : service.Answers config filter id := by
  cases filter with
  | none => exact ⟨live rfl, by simp⟩
  | some given => exact answers_of_matches passes

/-- The score and group cuts make results sound whose ids are. -/
theorem sound_applyScoreAndGroup {results limits} (positive : 0 < limits.topK)
    (applied : limits.scoreThreshold ≠ some (.infinite false))
    (distinct : (results.map (·.id)).Nodup)
    (answers : ∀ hit ∈ results, service.Answers config filter hit.id)
    : SoundResults config service filter limits
        (applyScoreAndGroup config results limits.topK limits.scoreThreshold limits.groupBy
          limits.groupSize) := by
  have kept := applyScoreAndGroup_sublist config results limits.topK limits.scoreThreshold
    limits.groupBy limits.groupSize
  refine ⟨?_, distinct.sublist (kept.map _), fun hit member => (answers hit (kept.subset member)).1,
    fun hit member => (answers hit (kept.subset member)).2, ?_, ?_⟩
  · unfold applyScoreAndGroup
    dsimp only
    split
    · exact length_take_le ..
    · exact length_takeGrouped _ _ positive _ _
  · intro keyed group
    unfold applyScoreAndGroup
    dsimp only
    rw [if_neg (show String.ofList (Utf8Text.trimmed limits.groupBy) ≠ "" from keyed)]
    have counted := count_takeGrouped
      (fun hit => config.metadataGroupKey hit.metadata (groupKey limits.groupBy))
      (max (limits.groupSize.getD 1) 1) limits.topK []
      (aboveThreshold results limits.scoreThreshold) group
    rw [count_nil, Nat.add_zero, Nat.max_zero] at counted
    exact counted
  · intro minimum given hit member
    have other : minimum ≠ .infinite false := by
      rintro rfl
      exact applied given
    refine @below_aboveThreshold results _ _ _ given other ?_
    unfold applyScoreAndGroup at member
    dsimp only at member
    split at member
    · exact mem_of_mem_take member
    · exact (takeGrouped_sublist ..).subset member

theorem ranked_hits {allowed : String → Prop} {ranked} (sound : RankedOf allowed ranked)
    : ((ranked.map service.searchHit).map (·.id)).Nodup
      ∧ ∀ hit ∈ ranked.map service.searchHit, allowed hit.id := by
  refine ⟨by rw [map_map]; exact sound.distinct, fun hit member => ?_⟩
  obtain ⟨item, listed, rfl⟩ := mem_map.mp member
  exact sound.allowed _ (mem_map_of_mem listed)

theorem Aligned.live_of_exposes (aligned : service.Aligned)
    (consistent : service.idMapping.Consistent) {id} {held : Nat}
    (exposed : service.index.Exposes id held)
    : (service.idMapping.getVector id).isSome = true :=
  consistent.isSome_getVector (by rw [(aligned id).exposed held exposed]; rfl)

variable {nprobe : Option Nat}

theorem filter_denseParams {count : Nat} {id}
    (passes : (service.denseParams config count nprobe filter).filter.all (· id) = true)
    : filter.all (service.metadataMatchesFilter config id ·) = true := by
  cases filter with
  | none => rfl
  | some given => exact passes

theorem topK_denseParams (count : Nat) (nprobe : Option Nat)
    : (service.denseParams config count nprobe filter).topK = count := by
  cases filter <;> rfl

theorem ranked_dense (coherent : service.Coherent) {usearch}
    (sound : usearch.Sound service.index.contents) (aligned : filter = none → service.Aligned)
    {query} {count : Nat} {window}
    (searched : service.index.searchWindow config.floats config.hnsw usearch query
      (service.denseParams config count nprobe filter) = .ok window)
    : RankedOf (service.Answers config filter) window.results
      ∧ window.results.length ≤ count := by
  obtain ⟨ranked, bounded⟩ :=
    HnswIndex.ranked_searchWindow coherent.wellFormed sound searched
  rw [topK_denseParams] at bounded
  refine ⟨ranked.mono fun id found => ?_, bounded⟩
  obtain ⟨⟨held, exposed⟩, passes⟩ := found
  exact answers_of_passes (filter_denseParams passes) fun unfiltered =>
    (aligned unfiltered).live_of_exposes coherent.consistent exposed

end Results

end VectorService

namespace VectorService

section TextSearch

variable (config : ServiceConfig) (backends : SearchBackends) (plan : TextSearchPlan)
  (request : TextSearchRequest) (service : VectorService) (ctx : AuthContext)

/-- What a request without a filter needs: aligned structures, and live chunk nodes. -/
structure Unfiltered : Prop where
  aligned : service.Aligned
  chunks : plan.trace.graphEnabled = true → ∀ graph, service.graphIndex = some graph
    → ∀ id, graph.HasChunk id → (service.idMapping.getVector id).isSome = true

theorem ranked_denseStage (coherent : service.Coherent)
    (sound : backends.usearch.Sound service.index.contents)
    (aligned : plan.metadataFilter = none → service.Aligned) {window}
    (searched : service.denseStage config backends plan request = .ok window)
    : RankedOf (service.Answers config plan.metadataFilter) window.results := by
  unfold denseStage at searched
  split at searched
  · cases searched
    exact .nil
  · simp only [bind_eq_ok, pure_eq_ok] at searched
    obtain ⟨_, _, query, _, _, _, dense, asked, rfl⟩ := searched
    obtain ⟨ranked, _⟩ := ranked_dense coherent sound aligned (mapError_eq_ok.mp asked)
    exact ranked.of_sublist filter_sublist

/-- Lexical results without a filter are live in an aligned state. -/
theorem ranked_lexicalStage (consistent : service.idMapping.Consistent)
    (aligned : plan.metadataFilter = none → service.Aligned)
    : RankedOf (fun id => plan.metadataFilter = none
        → (service.idMapping.getVector id).isSome = true)
        (service.lexicalStage config plan request) := by
  unfold lexicalStage
  split
  · exact .nil
  · refine (Bm25Index.ranked_search ..).mono fun id contained unfiltered => ?_
    exact consistent.isSome_getVector ((aligned unfiltered id).lexical contained)

variable {allowed : String → Prop}

theorem ranked_baseRanking {dense lexical} (denseSound : RankedOf allowed dense)
    (lexicalSound : RankedOf allowed lexical)
    : RankedOf allowed (baseRanking config plan request dense lexical) := by
  unfold baseRanking
  split
  · obtain ⟨distinct, among⟩ := @fuse_sound config.floats
      (request.denseWeight.getD plan.trace.vectorWeight)
      (request.lexicalWeight.getD plan.trace.lexicalWeight)
      (dense.filter fun hit => hit.score.gt .zero || lexical.any (·.id = hit.id)) lexical
      (plan.searchK config request)
    refine ⟨distinct, fun id member => ?_⟩
    obtain ⟨item, listed, rfl⟩ := mem_map.mp member
    rcases among item listed with one | two
    · exact denseSound.allowed _ ((filter_sublist.map _).subset one)
    · exact lexicalSound.allowed _ two
  · split
    · exact lexicalSound
    · exact denseSound

theorem ranked_graphStage {ranked}
    (sound : RankedOf (service.Answers config plan.metadataFilter) ranked)
    (unfiltered : plan.metadataFilter = none → Unfiltered plan service)
    : RankedOf (service.Answers config plan.metadataFilter)
        (service.graphStage config backends plan request ctx ranked).ranked := by
  unfold graphStage
  split
  · next graph present =>
      split
      · next enabled =>
          refine ExpansionSettings.ranked_expandRanking (fun id chunk passes => ?_) sound
          exact answers_of_passes passes fun missing =>
            (unfiltered missing).chunks enabled graph present id chunk
      · exact sound
  · exact sound

theorem ranked_rerankStage {ranked} (sound : RankedOf allowed ranked)
    : RankedOf allowed (service.rerankStage config request ranked) := by
  unfold rerankStage
  split
  · refine sound.of_perm ((ids_rerank ..).trans ?_)
    rw [map_map]
    exact .refl _
  · exact sound

theorem ranked_diversityStage {ranked} (sound : RankedOf allowed ranked)
    : RankedOf allowed (service.diversityStage config request ranked) := by
  unfold diversityStage
  dsimp only
  split
  · obtain ⟨distinct, among⟩ := mmr_sound config.floats (service.mmrItems ranked)
      (request.mmrLambda.getD (.finite (1 / 2))) ranked.length
    refine ⟨distinct, fun id member => ?_⟩
    obtain ⟨item, listed, rfl⟩ := mem_map.mp member
    obtain ⟨stored, present, same⟩ := mem_map.mp (among item listed)
    obtain ⟨source, found, entry⟩ := mem_filterMap.mp present
    obtain ⟨_, _, rfl⟩ := Option.map_eq_some_iff.mp entry
    exact same ▸ sound.allowed _ (mem_map_of_mem found)
  · exact sound

theorem ranked_rankedHits {expansion} (sound : RankedOf allowed expansion.ranked)
    : ((service.rankedHits config plan request expansion).map (·.id)).Nodup
      ∧ ∀ hit ∈ service.rankedHits config plan request expansion, allowed hit.id := by
  have staged := (ranked_diversityStage config request service
    (ranked_rerankStage config request service sound)).of_sublist
    (take_sublist (poolCap plan request) _)
  exact ranked_hits staged

theorem ranked_expansion (coherent : service.Coherent)
    (sound : backends.usearch.Sound service.index.contents)
    (unfiltered : plan.metadataFilter = none → Unfiltered plan service) {dense}
    (searched : service.denseStage config backends plan request = .ok dense)
    : RankedOf (service.Answers config plan.metadataFilter)
        (service.graphStage config backends plan request ctx
          ((baseRanking config plan request dense.results
            (service.lexicalStage config plan request)).filter
              fun item => service.passesFilter config plan item.id)).ranked := by
  have aligned : plan.metadataFilter = none → service.Aligned :=
    fun missing => (unfiltered missing).aligned
  have denseRanked : RankedOf (fun id => plan.metadataFilter = none
      → (service.idMapping.getVector id).isSome = true) dense.results :=
    (ranked_denseStage config backends plan request service coherent sound aligned
      searched).mono fun id answers _ => answers.1
  have base := ranked_baseRanking config plan request denseRanked
    (ranked_lexicalStage config plan request service coherent.consistent aligned)
  have filtered : RankedOf (service.Answers config plan.metadataFilter) _ :=
    (base.filter (service.passesFilter config plan)).mono
      fun id found => answers_of_passes found.2 found.1
  exact ranked_graphStage config backends plan request service ctx filtered unfiltered

variable {response : TextSearchResponse}

theorem sound_rankedTextSearch (coherent : service.Coherent)
    (sound : backends.usearch.Sound service.index.contents)
    (unfiltered : plan.metadataFilter = none → Unfiltered plan service)
    (positive : 0 < request.topK) (applied : request.scoreThreshold ≠ some (.infinite false))
    (answered : service.rankedTextSearch config backends plan request ctx = .ok response)
    : SoundResults config service plan.metadataFilter
        ⟨request.topK, request.scoreThreshold, request.groupBy, request.groupSize⟩
        response.results := by
  simp only [rankedTextSearch, bind_eq_ok, pure_eq_ok] at answered
  obtain ⟨dense, searched, rfl⟩ := answered
  obtain ⟨distinct, answers⟩ := ranked_rankedHits config plan request service
    (ranked_expansion config backends plan request service ctx coherent sound unfiltered searched)
  exact @sound_applyScoreAndGroup config service plan.metadataFilter _
    ⟨request.topK, request.scoreThreshold, request.groupBy, request.groupSize⟩ positive
    applied distinct answers

theorem sound_sqlMetadataTextSearch (consistent : service.idMapping.Consistent)
    (aligned : plan.metadataFilter = none → service.Aligned)
    (ungrouped : groupKey request.groupBy = "")
    (above : ∀ minimum, request.scoreThreshold = some minimum
      → minimum.gt (.finite 1) = false)
    (answered : service.sqlMetadataTextSearch config backends plan request ctx = .ok response)
    : SoundResults config service plan.metadataFilter
        ⟨request.topK, request.scoreThreshold, request.groupBy, request.groupSize⟩
        response.results := by
  simp only [sqlMetadataTextSearch, bind_eq_ok, pure_eq_ok] at answered
  obtain ⟨rows, present, _, _, query, _, ids, queried, rfl⟩ := answered
  have present := okOr_eq_ok.mp present
  obtain ⟨distinct, _, stored⟩ := queryIds_sound (mapError_eq_ok.mp queried)
  have taken : ∀ hit ∈ ((ids.filter fun id => service.passesFilter config plan id).map fun id =>
      (⟨id, .finite 1, service.loadMetadata id⟩ : SearchHit)).take request.topK,
      hit.score = .finite 1 ∧ service.Answers config plan.metadataFilter hit.id := by
    intro hit member
    obtain ⟨id, listed, rfl⟩ := mem_map.mp (mem_of_mem_take member)
    obtain ⟨found, passes⟩ := mem_filter.mp listed
    refine ⟨rfl, answers_of_passes passes fun unfiltered => ?_⟩
    refine consistent.isSome_getVector ((aligned unfiltered id).mirror ?_)
    rw [mirrored, present, Option.any_some, Std.ExtTreeMap.contains_eq_isSome_getElem?]
    exact stored id found
  refine ⟨length_take_le .., ?_, fun hit member => (taken hit member).2.1,
    fun hit member => (taken hit member).2.2, fun keyed => absurd ungrouped keyed, ?_⟩
  · refine Nodup.sublist ((take_sublist ..).map _) ?_
    rw [map_map]
    have same : ((fun hit : SearchHit => hit.id) ∘ fun id =>
        (⟨id, .finite 1, service.loadMetadata id⟩ : SearchHit)) = id := rfl
    rw [same, map_id]
    exact distinct.filter _
  · intro minimum given hit member
    rw [(taken hit member).1]
    exact above minimum given

end TextSearch

end VectorService

/-! Every search -/

inductive SearchCall where
  | search (request : SearchRequest)
  | searchBatch (request : SearchBatchRequest)
  | textSearch (request : TextSearchRequest)

namespace SearchCall

variable (config : ServiceConfig) (backends : SearchBackends) (ctx : AuthContext)
  (service : VectorService)

def results : SearchCall → Except Status (List (List SearchHit))
  | search request =>
    (service.searchInner config backends.usearch ctx request).map fun response =>
      [response.results]
  | searchBatch request =>
    (service.searchBatchInner config backends.usearch ctx request).map fun responses =>
      responses.map (·.results)
  | textSearch request =>
    (service.textSearchInner config backends ctx request).map fun response =>
      [response.results]

def filter : SearchCall → Option MetadataFilter
  | search request =>
    ((compileSearchFilter config request.filter request.tagFilter ctx).toOption).join
  | searchBatch _ => ((compileSearchFilter config [] none ctx).toOption).join
  | textSearch request =>
    ((compileSearchFilter config request.filter request.tagFilter ctx).toOption).join

def limits : SearchCall → ResultLimits
  | search request =>
    ⟨request.topK, request.scoreThreshold, request.groupBy, request.groupSize⟩
  | searchBatch request => ⟨request.topK, none, "", none⟩
  | textSearch request =>
    ⟨request.topK, request.scoreThreshold, request.groupBy, request.groupSize⟩

/-- The cuts that a call asks for are made, also in the structured mode. -/
def CutsMade : SearchCall → Prop
  | search request => request.scoreThreshold ≠ some (.infinite false)
  | searchBatch _ => True
  | textSearch request => ∀ plan, planTextSearch config ctx request = .ok plan →
      if plan.trace.mode = .structuredSql then
        groupKey request.groupBy = ""
          ∧ ∀ minimum, request.scoreThreshold = some minimum → minimum.gt (.finite 1) = false
      else request.scoreThreshold ≠ some (.infinite false)

/-- A call without a filter finds a state that no failed deletion led to. -/
structure FindsLive (call : SearchCall) : Prop where
  reachable : ReachableWhere config (fun before operation => operation.KeepsAligned before) service
  chunks : ∀ request plan, call = textSearch request → planTextSearch config ctx request = .ok plan
    → plan.trace.graphEnabled = true → ∀ graph, service.graphIndex = some graph
    → ∀ id, graph.HasChunk id → (service.idMapping.getVector id).isSome = true

end SearchCall

variable {nprobe : Option Nat}

theorem positive_of_validateSearchControls (controls : validateSearchControls topK nprobe = .ok ())
    : 0 < topK := by
  simp only [validateSearchControls, bind_eq_ok] at controls
  obtain ⟨_, positive, _⟩ := controls
  exact Nat.pos_of_ne_zero (rejectIf_eq_ok.mp positive)

theorem filter_of_planTextSearch {config ctx request plan}
    (planned : planTextSearch config ctx request = .ok plan)
    : SearchCall.filter config ctx (.textSearch request) = plan.metadataFilter
      ∧ 0 < request.topK := by
  simp only [planTextSearch, bind_eq_ok, pure_eq_ok] at planned
  obtain ⟨_, _, _, _, _, controls, _, _, filter, compiled, _, _, rfl⟩ := planned
  exact ⟨by simp [SearchCall.filter, compiled, Except.toOption],
    positive_of_validateSearchControls controls⟩

/-- One query of a batch. -/
theorem sound_searchBatchQuery {config service} (coherent : service.Coherent) {usearch}
    (sound : usearch.Sound service.index.contents) {filter}
    (aligned : filter = none → service.Aligned) {query response}
    (answered : service.searchBatchQuery config usearch
      (service.denseParams config topK nprobe filter) topK query = .ok response)
    : SoundResults config service filter ⟨topK, none, "", none⟩ response.results := by
  simp only [searchBatchQuery, bind_eq_ok, pure_eq_ok] at answered
  obtain ⟨_, _, window, asked, rfl⟩ := answered
  obtain ⟨ranked, bounded⟩ := ranked_dense coherent sound aligned (mapError_eq_ok.mp asked)
  obtain ⟨distinct, answers⟩ := ranked_hits ranked
  refine ⟨by rw [length_map]; exact bounded, distinct,
    fun hit listed => (answers hit listed).1, fun hit listed => (answers hit listed).2,
    fun keyed => absurd ?_ keyed, by simp⟩
  rfl

/-- The answer to every search in every reachable state is sound, if it has a filter or nothing
outlives its vector, and if its cuts are made.
Witness: a text search follows its stages.
-/
theorem results_sound {config : ServiceConfig} {backends : SearchBackends} {ctx : AuthContext}
    {service : VectorService} (reachable : Reachable config service)
    (sound : backends.usearch.Sound service.index.contents) (call : SearchCall)
    (cuts : call.CutsMade config ctx)
    (live : call.filter config ctx = none → call.FindsLive config ctx service)
    {answers : List (List SearchHit)}
    (answered : call.results config backends ctx service = .ok answers)
    {results : List SearchHit} (member : results ∈ answers)
    : SoundResults config service (call.filter config ctx) call.limits results := by
  have coherent := reachable.coherent
  have aligned : call.filter config ctx = none → service.Aligned :=
    fun missing => (live missing).reachable.aligned
  cases call with
  | search request =>
    obtain ⟨response, searched, rfl⟩ := map_eq_ok.mp answered
    cases mem_singleton.mp member
    simp only [searchInner, bind_eq_ok, pure_eq_ok] at searched
    obtain ⟨_, _, _, controls, _, _, filter, compiled, window, asked, rfl⟩ := searched
    have same : SearchCall.filter config ctx (.search request) = filter := by
      simp [SearchCall.filter, compiled, Except.toOption]
    rw [same] at aligned ⊢
    obtain ⟨ranked, _⟩ := ranked_dense coherent sound aligned (mapError_eq_ok.mp asked)
    obtain ⟨distinct, answers⟩ := ranked_hits ranked
    exact @VectorService.sound_applyScoreAndGroup config service filter _
      ⟨request.topK, request.scoreThreshold, request.groupBy, request.groupSize⟩
      (positive_of_validateSearchControls controls) cuts distinct answers
  | searchBatch request =>
    obtain ⟨responses, searched, rfl⟩ := map_eq_ok.mp answered
    obtain ⟨response, listed, rfl⟩ := mem_map.mp member
    simp only [searchBatchInner, bind_eq_ok] at searched
    obtain ⟨_, _, _, _, filter, compiled, asked⟩ := searched
    have same : SearchCall.filter config ctx (.searchBatch request) = filter := by
      simp [SearchCall.filter, compiled, Except.toOption]
    rw [same] at aligned ⊢
    obtain ⟨query, _, found⟩ := mem_of_partner (mapM_eq_ok.mp asked) listed
    exact sound_searchBatchQuery coherent sound aligned found
  | textSearch request =>
    obtain ⟨response, searched, rfl⟩ := map_eq_ok.mp answered
    cases mem_singleton.mp member
    simp only [textSearchInner, bind_eq_ok] at searched
    obtain ⟨plan, planned, searched⟩ := searched
    have cutsMade := cuts plan planned
    obtain ⟨same, positive⟩ := filter_of_planTextSearch planned
    -- The structured mode makes no score and group cuts, so none may be asked for there.
    rw [same] at aligned live ⊢
    split at searched
    · next structured =>
        rw [if_pos structured] at cutsMade
        exact sound_sqlMetadataTextSearch config backends plan request service
          ctx coherent.consistent aligned cutsMade.1 cutsMade.2 searched
    · next ranked =>
        rw [if_neg ranked] at cutsMade
        refine sound_rankedTextSearch config backends plan request service ctx
          coherent sound (fun missing => ⟨aligned missing, ?_⟩) positive cutsMade searched
        exact (live missing).chunks request plan rfl planned

/-! Samples -/

/-- An evaluated answer is the answer. -/
theorem SearchCall.results_of_map {config backends ctx service} {call : SearchCall} {α : Type}
    {f : SearchHit → α} {values : List α}
    (evaluated : (call.results config backends ctx service).toOption.map (·.map (·.map f))
      = some [values])
    : ∃ results, call.results config backends ctx service = .ok [results]
      ∧ results.map f = values := by
  obtain ⟨lists, found, same⟩ := Option.map_eq_some_iff.mp evaluated
  obtain ⟨results, rfl, listed⟩ := map_eq_singleton_iff.mp same
  cases answered : call.results config backends ctx service with
  | error => simp [answered, Except.toOption] at found
  | ok lists =>
    rw [answered] at found
    cases found
    exact ⟨results, rfl, listed⟩

def mentionConfig : ServiceConfig :=
  .small false [.object [("parent_id", .string "p"), ("workspace_id", .string "default")]]

def mentionCaller : AuthContext := ⟨"default", none⟩

def mentionRequest : Request := .insert ⟨"c", "a", [.finite 1], [0], "x"⟩

/-- A service with one vector; its metadata names a parent that is not stored. -/
def mentionService : VectorService :=
  mentionRequest.perform mentionConfig mentionCaller {} (.blank true true)

theorem aligned_mentionService : ReachableWhere mentionConfig
    (fun before operation => operation.KeepsAligned before) mentionService := by
  refine @ReachableWhere.step _ _ _ _ (.request mentionCaller {} mentionRequest)
    (.blank true true) ?_ rfl
  exact ⟨rfl, .inl rfl⟩

theorem reachable_mentionService : Reachable mentionConfig mentionService :=
  @ReachableWhere.step _ _ _ _ (.request mentionCaller {} mentionRequest)
    (.blank true true) trivial rfl

def mentionBackends : SearchBackends where
  usearch := findFirst
  embeddingProvider := none
  powi := fun decay _ => decay
  graphFault := fun _ => none
  sql := ⟨fun _ _ => true, none⟩

theorem sound_mentionBackends : mentionBackends.usearch.Sound mentionService.index.contents :=
  sound_findFirst (by decide +kernel)

def mentionSearch (mode : String) (scoreThreshold : Option Score) : SearchCall :=
  .textSearch
    { collection := "c"
      text := "x"
      topK := 10
      retrievalMode := mode
      scoreThreshold := scoreThreshold }

/-- A graph search returns the mentioned chunk, a structured one what is below the threshold. -/
theorem mentioned_chunk_returned
    : Reachable mentionConfig mentionService
      ∧ mentionBackends.usearch.Sound mentionService.index.contents
      ∧ (∃ results, (mentionSearch "graph" none).results mentionConfig mentionBackends
          mentionCaller mentionService = .ok [results]
        ∧ ¬SoundResults mentionConfig mentionService none
          (mentionSearch "graph" none).limits results)
      ∧ ∃ results, (mentionSearch "sql" (some (.finite 2))).results mentionConfig
          mentionBackends mentionCaller mentionService = .ok [results]
        ∧ ¬SoundResults mentionConfig mentionService none
          (mentionSearch "sql" (some (.finite 2))).limits results := by
  have graph : ((mentionSearch "graph" none).results mentionConfig mentionBackends
      mentionCaller mentionService).toOption.map (·.map (·.map (·.id))) = some [["a", "p"]] := by
    decide +kernel
  have sql : ((mentionSearch "sql" (some (.finite 2))).results mentionConfig mentionBackends
      mentionCaller mentionService).toOption.map (·.map (·.map (·.score)))
      = some [[.finite 1]] := by
    decide +kernel
  refine ⟨reachable_mentionService, sound_mentionBackends, ?_, ?_⟩
  · obtain ⟨results, answered, ids⟩ := SearchCall.results_of_map graph
    refine ⟨results, answered, fun sound => ?_⟩
    have listed : "p" ∈ results.map (·.id) := by rw [ids]; decide
    obtain ⟨hit, member, named⟩ := mem_map.mp listed
    have live := sound.live hit member
    rw [named] at live
    exact absurd live (by decide +kernel)
  · obtain ⟨results, answered, scores⟩ := SearchCall.results_of_map sql
    refine ⟨results, answered, fun sound => ?_⟩
    have listed : Score.finite 1 ∈ results.map (·.score) := by rw [scores]; decide
    obtain ⟨hit, member, scored⟩ := mem_map.mp listed
    have above := sound.above (.finite 2) rfl hit member
    rw [scored] at above
    exact absurd above (by decide)

/-- A lexical search of the same state answers with its live vector. -/
theorem mentioning_vector_returned
    : ∃ results, (mentionSearch "bm25" none).results mentionConfig mentionBackends
        mentionCaller mentionService = .ok [results]
      ∧ results.map (·.id) = ["a"]
      ∧ SoundResults mentionConfig mentionService
        ((mentionSearch "bm25" none).filter mentionConfig mentionCaller)
        (mentionSearch "bm25" none).limits results := by
  have evaluated : ((mentionSearch "bm25" none).results mentionConfig mentionBackends
      mentionCaller mentionService).toOption.map (·.map (·.map (·.id))) = some [["a"]] := by
    decide +kernel
  obtain ⟨results, answered, listed⟩ := SearchCall.results_of_map evaluated
  refine ⟨results, answered, listed, results_sound reachable_mentionService
    sound_mentionBackends _ ?_ (fun _ => ⟨aligned_mentionService, ?_⟩) answered
    mem_cons_self⟩
  · intro plan _
    split
    · exact ⟨by decide, by simp⟩
    · simp
  · rintro request plan ⟨⟩ planned enabled
    have disabled : ((planTextSearch mentionConfig mentionCaller
        { collection := "c", text := "x", topK := 10, retrievalMode := "bm25" }).toOption.map
        (·.trace.graphEnabled)) = some false := by decide +kernel
    rw [planned] at disabled
    exact absurd (enabled.symm.trans (Option.some.inj disabled)) (by decide)

end AkiDB.Vectors
