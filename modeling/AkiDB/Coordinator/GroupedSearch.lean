import AkiDB.Coordinator.MergedResults
import AkiDB.Library.Utf8Text

/-!
Coordinator search over exact shards: when the page is that of one index with all the vectors.
-/

namespace AkiDB.Coordinator
open AkiDB.Common ArbitraryHeap TopK Unsigned GroupedCut List ResultMerger

variable {Metadata : Type}

structure SearchControls where
  topK : Nat
  scoreThreshold : Option Score
  groupBy : String
  groupSize : Option Nat

namespace SearchControls

variable (controls : SearchControls)

def key : List Char :=
  Utf8Text.trimmed controls.groupBy

def perGroup : Option Nat :=
  if controls.key = [] then none else some (max (controls.groupSize.getD 1) 1)

def passes (result : SearchResult Metadata) : Bool :=
  match controls.scoreThreshold with
  | some min => !min.isFinite || (result.score.isFinite && result.score.ge min)
  | none => true

end SearchControls

def maxShardTopK : Nat := 10000
def groupedOverfetch : Nat := 4

def fanoutFetchK (topK : Nat) (grouping : Bool) : Nat :=
  if !grouping then topK else max (min (saturatingMul64 topK groupedOverfetch) maxShardTopK) topK

section Search

variable (field : Metadata → String → Option String) (controls : SearchControls)

/-- The text of the grouping field of the metadata, empty if there is none. -/
def groupValue (result : SearchResult Metadata) : String :=
  (result.metadata.bind (field · (String.ofList controls.key))).getD ""

def groupLoop (perGroup : Nat)
    : List String → List (SearchResult Metadata) → List (SearchResult Metadata) →
      List (SearchResult Metadata)
  | _, out, [] => out
  | counts, out, result :: rest =>
    let value := groupValue field controls result
    let (counts, out) :=
      if counts.count value < perGroup then (value :: counts, out ++ [result])
      else (counts, out)
    if out.length ≥ controls.topK then out else groupLoop perGroup counts out rest

def applyScoreAndGroup (results : List (SearchResult Metadata)) : List (SearchResult Metadata) :=
  let filtered := results.filter controls.passes
  match controls.perGroup with
  | none => filtered.take controls.topK
  | some perGroup => groupLoop field controls perGroup [] [] filtered

/-- An exact index: the first vectors by score that pass the threshold and the cut per group. -/
def exactAnswer (number : Nat) (vectors : List (SearchResult Metadata))
    : List (SearchResult Metadata) :=
  let sorted := (vectors.filter controls.passes).insertionSort
    fun left right => finishCmp left right ≠ .gt
  (keepPerGroup (groupValue field controls) controls.perGroup [] sorted).take number

def combineLimited : Option Bool → Option Bool → Option Bool
  | some true, _ | _, some true => some true
  | some false, some false => some false
  | _, _ => none

def SearchControls.fetchK : Nat :=
  fanoutFetchK controls.topK (controls.key ≠ [])

def CoordinatorService.search (layout : Layout (SearchResult Metadata))
    (answers : List (List (SearchResult Metadata) × Option Bool))
    : List (SearchResult Metadata) × Option Bool :=
  let merged := (answers.foldl (fun merger answer => merger.addResults layout answer.1)
    (new controls.fetchK)).finish
  let limited := answers.foldl (fun limited answer => combineLimited limited answer.2) (some false)
  let results := applyScoreAndGroup field controls merged
  (results, if results.length ≥ controls.topK then some false else limited)

end Search

/-- Vectors with their scores for a query, spread over shards. -/
structure Cluster (Metadata : Type) where
  shards : List (List (SearchResult Metadata))
  some_shard : shards ≠ []
  isFinite : ∀ result ∈ shards.flatten, result.score.isFinite = true
  distinctIds : (shards.flatten.map (·.id)).Nodup
  distinctScores : (shards.flatten.map (·.score)).Nodup

def Cluster.answers (cluster : Cluster Metadata) (field : Metadata → String → Option String)
    (controls : SearchControls) : List (List (SearchResult Metadata)) :=
  cluster.shards.map (exactAnswer field controls controls.fetchK)

def Cluster.search (cluster : Cluster Metadata) (field : Metadata → String → Option String)
    (controls : SearchControls) (layout : Layout (SearchResult Metadata))
    : List (SearchResult Metadata) × Option Bool :=
  CoordinatorService.search field controls layout
    ((cluster.answers field controls).map fun results => (results, some false))

/-! Merging results of different ids -/

def rank (result : SearchResult Metadata) : Lex (ℚᵒᵈ × String) :=
  place (entry result)

theorem rank_injOn {results : List (SearchResult Metadata)}
    (distinct : (results.map (·.id)).Nodup) {left right : SearchResult Metadata}
    (leftIn : left ∈ results) (rightIn : right ∈ results) (same : rank left = rank right)
    : left = right :=
  inj_on_of_nodup_map distinct leftIn rightIn (congrArg Prod.fst (place_injective same))

theorem nodup_ids_of_subperm {some all : List (SearchResult Metadata)}
    (part : some.Subperm all) (distinct : (all.map (·.id)).Nodup)
    : (some.map (·.id)).Nodup := by
  obtain ⟨list, perm, sublist⟩ := part
  exact (perm.map _).nodup_iff.mp ((sublist.map _).nodup distinct)

namespace ResultMerger

variable (layout : Layout (SearchResult Metadata))

variable {merger : ResultMerger Metadata}

theorem lossless_of_distinct (consistent : merger.Consistent) {result : SearchResult Metadata}
    (distinct : ((result :: merger.heap).map (·.id)).Nodup)
    : merger.Lossless layout result := by
  obtain ⟨fresh, heapDistinct⟩ := nodup_cons.mp distinct
  have untracked : merger.bestScores[result.id]? = none := by
    cases found : merger.bestScores[result.id]? with
    | none => rfl
    | some score =>
      obtain ⟨other, member, named, -⟩ := consistent.tracked _ _ found
      exact absurd (mem_map.mpr ⟨other, member, named⟩) fresh
  have enough : ∀ {kept : List (SearchResult Metadata)}, (kept.map (·.id)).Nodup →
      merger.capacity ≤ kept.length →
      ∀ discarded, KeepsEnough merger.capacity kept discarded := by
    intro kept keptDistinct long discarded
    refine .inr ?_
    rw [toFinset_card_of_nodup keptDistinct, length_map]
    exact long
  intro _
  rw [untracked]
  by_cases room : merger.heap.length < merger.capacity
  · exact .inl room
  refine .inr ?_
  split
  · trivial
  · next min rest taken =>
    have perm := takeGreatest_perm taken
    split
    · refine enough (nodup_ids_of_subperm ?_ distinct) ?_ min
      · exact (subperm_cons result).mpr (List.Subperm.cons_self.trans perm.subperm)
      · have sizes := perm.length_eq
        simp only [length_cons] at sizes ⊢
        omega
    · exact enough heapDistinct (Nat.not_lt.mp room) result

theorem losslessAlong_of_distinct (consistent : merger.Consistent)
    (results : List (SearchResult Metadata))
    (distinct : ((results ++ merger.heap).map (·.id)).Nodup)
    : LosslessAlong layout merger results := by
  induction results generalizing merger with
  | nil => trivial
  | cons result rest ih =>
    have here : (result :: merger.heap).Subperm (result :: rest ++ merger.heap) :=
      (subperm_cons result).mpr (sublist_append_right _ _).subperm
    have later : (rest ++ (merger.add layout result).heap).Subperm
        (result :: rest ++ merger.heap) :=
      ((subperm_append_left rest).mpr (add_heap_subperm layout merger result)).trans
        perm_middle.subperm
    exact ⟨lossless_of_distinct layout consistent (nodup_ids_of_subperm here distinct),
      ih (consistent.add layout result) (nodup_ids_of_subperm later distinct)⟩

variable (capacity : Nat)

theorem addResults_heap_subset
    (merger : ResultMerger Metadata) (results : List (SearchResult Metadata))
    : ∀ result ∈ (merger.addResults layout results).heap,
        result ∈ merger.heap ∨ result ∈ results := by
  induction results generalizing merger with
  | nil => exact fun result member => .inl member
  | cons next rest ih =>
    intro result member
    rcases ih (merger.add layout next) result member with inHeap | inRest
    · rcases mem_cons.mp ((add_heap_subperm layout merger next).subset inHeap) with
        rfl | old
      · exact .inr mem_cons_self
      · exact .inl old
    · exact .inr (mem_cons_of_mem _ inRest)

theorem finish_subset (merger : ResultMerger Metadata)
    : ∀ result ∈ merger.finish, result ∈ merger.heap := by
  intro result member
  have kept := (TopK.retainFirst_sublist _ _ _).subset (mem_of_mem_take member)
  exact (mem_filter.mp ((mem_insertionSort _).mp kept)).1

variable {results : List (SearchResult Metadata)}

theorem finish_map_entry
    (isFinite : ∀ result ∈ results, result.score.isFinite) (distinct : (results.map (·.id)).Nodup)
    : ((new capacity).addResults layout results).finish.map entry
      = topK capacity (results.map entry) := by
  have lossless := losslessAlong_of_distinct layout (consistent_new capacity) results (by
    rw [show (new capacity : ResultMerger Metadata).heap = [] from rfl, append_nil]
    exact distinct)
  have nothing : ∀ found ∈ entries (new capacity : ResultMerger Metadata).heap,
      found ∈ ([] : List (String × ℚ)) := fun _ member => member
  have right := (prefixes_iff_losslessAlong layout (consistent_new capacity) nothing
    (fun _ member => absurd member not_mem_nil) results).mpr lossless
    results prefix_rfl
  rw [finish_eq_topK, addResults_capacity]
  rw [nil_append, entries_of_isFinite isFinite] at right
  exact right

open scoped Classical in
theorem card_keysBefore (distinct : (results.map (·.id)).Nodup) (result : SearchResult Metadata)
    : (keysBefore (results.map entry) (entry result)).card
      = (before rank results.toFinset result).card := by
  have ids : keysBefore (results.map entry) (entry result)
      = (before rank results.toFinset result).image (·.id) := by
    ext id
    simp only [mem_keysBefore, mem_map, Finset.mem_image, mem_before, mem_toFinset]
    constructor
    · rintro ⟨_, ⟨other, member, rfl⟩, named, placed⟩
      exact ⟨other, ⟨member, placed⟩, named⟩
    · rintro ⟨other, ⟨member, placed⟩, named⟩
      exact ⟨_, ⟨other, member, rfl⟩, named, placed⟩
  rw [ids, Finset.card_image_of_injOn]
  intro left leftIn right rightIn same
  exact inj_on_of_nodup_map distinct (mem_toFinset.mp (mem_before.mp (Finset.mem_coe.mp leftIn)).1)
    (mem_toFinset.mp (mem_before.mp (Finset.mem_coe.mp rightIn)).1) same

open scoped Classical in
theorem mem_finish_iff
    (isFinite : ∀ result ∈ results, result.score.isFinite) (distinct : (results.map (·.id)).Nodup)
    {result : SearchResult Metadata}
    : result ∈ ((new capacity).addResults layout results).finish
      ↔ result ∈ top rank capacity results.toFinset := by
  have merged := finish_map_entry layout capacity isFinite distinct
  have unique : ∀ left ∈ results, ∀ right ∈ results, left.id = right.id → left = right :=
    fun _ leftIn _ rightIn same => inj_on_of_nodup_map distinct leftIn rightIn same
  have inside : ∀ other ∈ ((new capacity).addResults layout results).finish, other ∈ results := by
    intro other finished
    rcases addResults_heap_subset layout _ _ other (finish_subset _ other finished) with
      impossible | member
    · cases impossible
    · exact member
  rw [mem_top, mem_toFinset, ← card_keysBefore distinct]
  constructor
  · intro finished
    have chosen := merged ▸ mem_map_of_mem finished
    exact ⟨inside result finished, (mem_topK.mp chosen).2.2⟩
  · rintro ⟨member, few⟩
    have best : IsBest (results.map entry) (entry result) := by
      intro found isIn named
      obtain ⟨other, otherIn, rfl⟩ := mem_map.mp isIn
      rw [unique other otherIn result member named]
    have chosen := mem_topK.mpr ⟨mem_map_of_mem member, best, few⟩
    rw [← merged] at chosen
    obtain ⟨other, finished, same⟩ := mem_map.mp chosen
    rw [← unique other (inside other finished) result member (congrArg Prod.fst same)]
    exact finished

theorem finish_sorted
    (isFinite : ∀ result ∈ results, result.score.isFinite) (distinct : (results.map (·.id)).Nodup)
    : ((new capacity).addResults layout results).finish.Pairwise
        fun left right => rank left < rank right := by
  have sorted := topK_sorted capacity (results.map entry)
  rw [← finish_map_entry layout capacity isFinite distinct] at sorted
  rw [pairwise_map] at sorted
  exact sorted

/-- Results of different ids are merged to one answer, in whatever order the shards answer and
however the heap arranges them.
Witness: the answer is the first results by rank, in that order.
-/
theorem merged_in_any_order {Metadata : Type} (layout other : Layout (SearchResult Metadata))
    (capacity : Nat) {left right : List (SearchResult Metadata)} (arrived : left.Perm right)
    (isFinite : ∀ result ∈ left, result.score.isFinite) (distinct : (left.map (·.id)).Nodup)
    : ((new capacity).addResults layout left).finish
      = ((new capacity).addResults other right).finish := by
  classical
  have alsoFinite : ∀ result ∈ right, result.score.isFinite := fun result member =>
    isFinite result (arrived.mem_iff.mpr member)
  have alsoDistinct := (arrived.map (·.id)).nodup_iff.mp distinct
  refine eq_of_sorted (finish_sorted layout capacity isFinite distinct)
    (finish_sorted other capacity alsoFinite alsoDistinct) fun result => ?_
  rw [mem_finish_iff layout capacity isFinite distinct,
    mem_finish_iff other capacity alsoFinite alsoDistinct, toFinset_eq_of_perm _ _ arrived]

theorem merged_in_any_order_sample
    : ((new 1).addResults greatestFirst [sampleResult "a" 1, sampleResult "b" 2]).finish
      = ((new 1).addResults greatestFirst [sampleResult "b" 2, sampleResult "a" 1]).finish :=
  merged_in_any_order greatestFirst greatestFirst 1 (.swap ..) (by decide +kernel)
    (by decide +kernel)

end ResultMerger

section Answers

variable {field : Metadata → String → Option String} {controls : SearchControls}
variable {vectors : List (SearchResult Metadata)}

def passing (controls : SearchControls) (vectors : List (SearchResult Metadata))
    : List (SearchResult Metadata) :=
  (vectors.filter controls.passes).insertionSort
    fun left right => finishCmp left right ≠ .gt

theorem mem_passing {result}
    : result ∈ passing controls vectors ↔ result ∈ vectors ∧ controls.passes result := by
  rw [passing, mem_insertionSort, mem_filter]

variable (controls vectors) in
theorem passing_subperm : (passing controls vectors).Subperm vectors :=
  (perm_insertionSort _ _).subperm.trans filter_sublist.subperm

theorem passing_sorted (isFinite : ∀ result ∈ vectors, result.score.isFinite)
    (distinct : (vectors.map (·.id)).Nodup)
    : (passing controls vectors).Pairwise fun left right => rank left < rank right := by
  have placed : ((passing controls vectors).map entry).Pairwise
      fun left right => place left ≤ place right := by
    unfold passing
    rw [map_insertionSort _ (fun left right => place left ≤ place right)]
    · exact pairwise_insertionSort _ _
    · intro left leftIn right rightIn
      exact finishCmp_le_iff (isFinite left (mem_filter.mp leftIn).1)
        (isFinite right (mem_filter.mp rightIn).1)
  have ids := nodup_ids_of_subperm (passing_subperm controls vectors) distinct
  refine List.Pairwise.imp_of_mem ?_ ((pairwise_map.mp placed).and (Nodup.of_map _ ids))
  intro left right leftIn rightIn both
  exact lt_of_le_of_ne both.1 fun same => both.2 (rank_injOn ids leftIn rightIn same)

variable (field controls vectors) in
theorem exactAnswer_sublist (number : Nat)
    : (exactAnswer field controls number vectors).Sublist (passing controls vectors) :=
  (take_sublist _ _).trans (keepPerGroup_sublist _ _)

open scoped Classical in
theorem mem_exactAnswer (isFinite : ∀ result ∈ vectors, result.score.isFinite)
    (distinct : (vectors.map (·.id)).Nodup) {number : Nat} {result : SearchResult Metadata}
    : result ∈ exactAnswer field controls number vectors
      ↔ result ∈ top rank number (cut rank (groupValue field controls) controls.perGroup
          (passing controls vectors).toFinset) :=
  mem_take_keepPerGroup (passing_sorted isFinite distinct)

theorem groupLoop_eq (perGroup : Nat) (counts : List String)
    (out results : List (SearchResult Metadata)) (room : out.length < controls.topK)
    : groupLoop field controls perGroup counts out results
      = out ++ (keepPerGroup (groupValue field controls) (some perGroup) counts results).take
          (controls.topK - out.length) := by
  induction results generalizing counts out with
  | nil => simp [groupLoop, keepPerGroup]
  | cons result rest ih =>
    simp only [groupLoop, keepPerGroup, Option.mem_some_iff, forall_eq']
    by_cases kept : counts.count (groupValue field controls result) < perGroup
    · obtain ⟨left, more⟩ := Nat.exists_eq_add_of_lt room
      rw [if_pos kept, if_pos kept]
      simp only [length_append, length_singleton]
      split
      · have last : controls.topK - out.length = 1 := by omega
        simp [last]
      · rw [ih _ _ (by simp; omega)]
        have size : controls.topK - out.length = controls.topK - (out.length + 1) + 1 := by omega
        simp [size]
    · rw [if_neg kept, if_neg kept]
      simp only [Nat.not_le.mpr room, if_false]
      exact ih counts out room

theorem applyScoreAndGroup_eq (results : List (SearchResult Metadata))
    (page : controls.topK = 0 → results = [])
    : applyScoreAndGroup field controls results
      = (keepPerGroup (groupValue field controls) controls.perGroup []
          (results.filter controls.passes)).take controls.topK := by
  unfold applyScoreAndGroup
  rcases Nat.eq_zero_or_pos controls.topK with none | positive
  · rw [page none]
    cases controls.perGroup <;> simp [groupLoop, keepPerGroup]
  · cases controls.perGroup with
    | none => simp
    | some perGroup => simpa using groupLoop_eq perGroup [] [] _ (by simpa using positive)

end Answers

theorem SearchControls.topK_le_fetchK (controls : SearchControls)
    : controls.topK ≤ controls.fetchK := by
  unfold SearchControls.fetchK fanoutFetchK
  split
  · exact le_rfl
  · exact le_max_right _ _

theorem SearchControls.fetchK_eq_zero {controls : SearchControls} (none : controls.topK = 0)
    : controls.fetchK = 0 := by
  simp [SearchControls.fetchK, fanoutFetchK, none, saturatingMul64]

namespace Cluster

variable (cluster : Cluster Metadata) (field : Metadata → String → Option String)
variable (controls : SearchControls) (layout : Layout (SearchResult Metadata))

theorem rank_injOn_passing [DecidableEq (SearchResult Metadata)]
    : Set.InjOn rank
        ((passing controls cluster.shards.flatten).toFinset : Set (SearchResult Metadata)) := by
  intro left leftIn right rightIn same
  exact rank_injOn cluster.distinctIds
    ((passing_subperm controls _).subset (mem_toFinset.mp (Finset.mem_coe.mp leftIn)))
    ((passing_subperm controls _).subset (mem_toFinset.mp (Finset.mem_coe.mp rightIn))) same

theorem answers_subperm
    : (cluster.answers field controls).flatten.Subperm cluster.shards.flatten := by
  unfold answers
  induction cluster.shards with
  | nil => exact .refl _
  | cons vectors rest ih =>
    rw [map_cons, flatten_cons, flatten_cons]
    have first := (exactAnswer_sublist field controls vectors controls.fetchK).subperm.trans
      (passing_subperm controls vectors)
    exact ((subperm_append_right _).mpr first).trans ((subperm_append_left _).mpr ih)

theorem answers_isFinite
    : ∀ result ∈ (cluster.answers field controls).flatten, result.score.isFinite :=
  fun result member =>
    cluster.isFinite result ((cluster.answers_subperm field controls).subset member)

theorem answers_distinct : ((cluster.answers field controls).flatten.map (·.id)).Nodup :=
  nodup_ids_of_subperm (cluster.answers_subperm field controls) cluster.distinctIds

variable {result : SearchResult Metadata}

theorem passes_of_answered (answered : result ∈ (cluster.answers field controls).flatten)
    : result ∈ passing controls cluster.shards.flatten := by
  obtain ⟨answer, isAnswer, member⟩ := mem_flatten.mp answered
  obtain ⟨vectors, isShard, rfl⟩ := mem_map.mp isAnswer
  obtain ⟨isVector, passes⟩ :=
    mem_passing.mp ((exactAnswer_sublist field controls vectors _).subset member)
  exact mem_passing.mpr ⟨mem_flatten.mpr ⟨vectors, isShard, isVector⟩, passes⟩

theorem answered_of_exact
    (chosen : result ∈ exactAnswer field controls controls.topK cluster.shards.flatten)
    : result ∈ (cluster.answers field controls).flatten := by
  classical
  obtain ⟨isVector, passes⟩ :=
    mem_passing.mp ((exactAnswer_sublist field controls _ _).subset chosen)
  obtain ⟨vectors, isShard, inShard⟩ := mem_flatten.mp isVector
  have part : vectors.Sublist cluster.shards.flatten := sublist_flatten_of_mem isShard
  have shardDistinct : (vectors.map (·.id)).Nodup := (part.map _).nodup cluster.distinctIds
  have shardFinite : ∀ other ∈ vectors, other.score.isFinite :=
    fun other member => cluster.isFinite other (part.subset member)
  rw [mem_exactAnswer cluster.isFinite cluster.distinctIds] at chosen
  have subset : (passing controls vectors).toFinset
      ⊆ (passing controls cluster.shards.flatten).toFinset := by
    intro other member
    obtain ⟨here, otherPasses⟩ := mem_passing.mp (mem_toFinset.mp member)
    exact mem_toFinset.mpr (mem_passing.mpr ⟨part.subset here, otherPasses⟩)
  have inPart := mem_top_cut_of_subset (cluster.rank_injOn_passing controls) subset
    (mem_toFinset.mpr (mem_passing.mpr ⟨inShard, passes⟩)) chosen
  refine mem_flatten.mpr ⟨_, mem_map_of_mem isShard, ?_⟩
  obtain ⟨kept, few⟩ := mem_top.mp inPart
  exact (mem_exactAnswer shardFinite shardDistinct).mpr
    (mem_top.mpr ⟨kept, few.trans_le controls.topK_le_fetchK⟩)

theorem foldl_addResults (answers : List (List (SearchResult Metadata) × Option Bool))
    (merger : ResultMerger Metadata)
    : answers.foldl (fun merger answer => merger.addResults layout answer.1) merger
      = merger.addResults layout (answers.map Prod.fst).flatten := by
  induction answers generalizing merger with
  | nil => rfl
  | cons answer rest ih =>
    rw [foldl_cons, ih, map_cons, flatten_cons]
    exact foldl_append.symm

def window : List (SearchResult Metadata) :=
  ((new controls.fetchK).addResults layout (cluster.answers field controls).flatten).finish

theorem window_sorted
    : (cluster.window field controls layout).Pairwise fun left right => rank left < rank right :=
  finish_sorted layout controls.fetchK (cluster.answers_isFinite field controls)
    (cluster.answers_distinct field controls)

theorem search_flag : (cluster.search field controls layout).2 = some false := by
  have limited : ((cluster.answers field controls).map fun results =>
      (results, some false)).foldl
        (fun limited answer => combineLimited limited answer.2) (some false) = some false := by
    induction cluster.answers field controls with
    | nil => rfl
    | cons answer rest ih => exact ih
  unfold search CoordinatorService.search
  dsimp only
  rw [limited, ite_self]

theorem search_page
    : (cluster.search field controls layout).1
      = (keepPerGroup (groupValue field controls) controls.perGroup []
          (cluster.window field controls layout)).take controls.topK := by
  have answered := cluster.answers_isFinite field controls
  have distinct := cluster.answers_distinct field controls
  have merged : (cluster.search field controls layout).1
      = applyScoreAndGroup field controls (cluster.window field controls layout) := by
    unfold search CoordinatorService.search window
    rw [foldl_addResults, map_map]
    simp [Function.comp_def]
  have passes : ∀ result ∈ cluster.window field controls layout, controls.passes result := by
    classical
    intro result member
    have found := (mem_top.mp ((mem_finish_iff layout _ answered distinct).mp member)).1
    exact (mem_passing.mp (cluster.passes_of_answered field controls (mem_toFinset.mp found))).2
  rw [merged, applyScoreAndGroup_eq, filter_eq_self.mpr passes]
  intro none
  unfold window finish
  rw [addResults_capacity]
  simp [new, SearchControls.fetchK_eq_zero none]

open scoped Classical in
theorem mem_search_page
    : result ∈ (cluster.search field controls layout).1
      ↔ result ∈ exactAnswer field controls controls.topK cluster.shards.flatten
        ∧ (before rank (cluster.answers field controls).flatten.toFinset result).card
          < controls.fetchK := by
  have answered := cluster.answers_isFinite field controls
  have distinct := cluster.answers_distinct field controls
  have retained : (cluster.window field controls layout).toFinset
      = top rank controls.fetchK (cluster.answers field controls).flatten.toFinset := by
    ext other
    rw [mem_toFinset]
    exact mem_finish_iff layout _ answered distinct
  have sameChoice : top rank controls.topK (cut rank (groupValue field controls)
        controls.perGroup (cluster.answers field controls).flatten.toFinset)
      = top rank controls.topK (cut rank (groupValue field controls) controls.perGroup
        (passing controls cluster.shards.flatten).toFinset) := top_cut_eq
    (cluster.rank_injOn_passing controls)
    (fun other member => mem_toFinset.mpr
      (cluster.passes_of_answered field controls (mem_toFinset.mp member)))
    (fun other chosen => mem_toFinset.mpr (cluster.answered_of_exact field controls
      ((mem_exactAnswer cluster.isFinite cluster.distinctIds).mpr chosen)))
  rw [search_page, mem_take_keepPerGroup (cluster.window_sorted field controls layout), retained,
    mem_top_cut_top, sameChoice,
    ← mem_exactAnswer cluster.isFinite cluster.distinctIds, mem_top]
  refine and_congr_right fun chosen => and_iff_right ?_
  exact mem_toFinset.mpr (cluster.answered_of_exact field controls chosen)

open scoped Classical in
theorem card_before_eq_countP (isVector : result ∈ cluster.shards.flatten)
    : (before rank (cluster.answers field controls).flatten.toFinset result).card
      = (cluster.answers field controls).flatten.countP (·.score.gt result.score) := by
  have nodup := Nodup.of_map _ (cluster.answers_distinct field controls)
  have same : before rank (cluster.answers field controls).flatten.toFinset result
      = ((cluster.answers field controls).flatten.filter (·.score.gt result.score)).toFinset := by
    ext other
    rw [mem_before, mem_toFinset, mem_toFinset, mem_filter]
    refine and_congr_right fun answered => ?_
    have otherIn := (cluster.answers_subperm field controls).subset answered
    have resultFinite := cluster.isFinite result isVector
    have otherFinite := cluster.isFinite other otherIn
    rw [rank, rank, place_lt_iff, Score.gt, Score.partialCmp_of_isFinite otherFinite resultFinite]
    simp only [entry, Option.some.injEq, decide_eq_true_eq, compare_gt_iff_gt]
    refine or_iff_left fun tie => ?_
    have scores : other.score = result.score :=
      Score.eq_of_value otherFinite resultFinite tie.1
    have equal := inj_on_of_nodup_map cluster.distinctScores otherIn isVector scores
    exact lt_irrefl _ (equal ▸ tie.2)
  rw [same, toFinset_card_of_nodup (nodup.filter _), countP_eq_length_filter]

open scoped Classical in
theorem search_page_eq_iff
    : (cluster.search field controls layout).1
        = exactAnswer field controls controls.topK cluster.shards.flatten
      ↔ ∀ result ∈ exactAnswer field controls controls.topK cluster.shards.flatten,
          (before rank (cluster.answers field controls).flatten.toFinset result).card
            < controls.fetchK := by
  have pageSorted : (cluster.search field controls layout).1.Pairwise
      fun left right => rank left < rank right := by
    rw [search_page]
    exact (cluster.window_sorted field controls layout).sublist
      ((take_sublist _ _).trans (keepPerGroup_sublist _ _))
  have exactSorted := (passing_sorted cluster.isFinite cluster.distinctIds).sublist
    (exactAnswer_sublist field controls _ controls.topK)
  constructor
  · intro same result chosen
    exact ((cluster.mem_search_page field controls layout).mp (same ▸ chosen)).2
  · intro few
    refine eq_of_sorted pageSorted exactSorted fun result => ?_
    rw [mem_search_page]
    exact and_iff_left_of_imp (few result)

/-- Search returns the exact page exactly when few enough answers score above each of its results.
Witness: the page has the exact results that the window retains.
-/
theorem search_exact_iff
    : ((cluster.search field controls layout).1
          = exactAnswer field controls controls.topK cluster.shards.flatten
        ∨ ((cluster.search field controls layout).1.length < controls.topK
          ∧ (cluster.search field controls layout).2 = some true))
      ↔ ∀ result ∈ exactAnswer field controls controls.topK cluster.shards.flatten,
          (cluster.answers field controls).flatten.countP (·.score.gt result.score)
            < controls.fetchK := by
  classical
  rw [search_flag, or_iff_left fun limited => by simp at limited, search_page_eq_iff]
  refine forall₂_congr fun result chosen => ?_
  rw [cluster.card_before_eq_countP field controls]
  exact (passing_subperm controls _).subset ((exactAnswer_sublist field controls _ _).subset chosen)

/-- Without groups search returns the exact page. -/
theorem search_exact_of_ungrouped (ungrouped : controls.key = [])
    : (cluster.search field controls layout).1
      = exactAnswer field controls controls.topK cluster.shards.flatten := by
  classical
  refine (cluster.search_page_eq_iff field controls layout).mpr fun result chosen => ?_
  have fetched : controls.fetchK = controls.topK := by
    simp [SearchControls.fetchK, fanoutFetchK, ungrouped]
  have noLimit : controls.perGroup = none := if_pos ungrouped
  rw [mem_exactAnswer cluster.isFinite cluster.distinctIds] at chosen
  rw [fetched]
  refine lt_of_le_of_lt (Finset.card_le_card fun other member => ?_) (mem_top.mp chosen).2
  obtain ⟨answered, placed⟩ := mem_before.mp member
  have passes := cluster.passes_of_answered field controls (mem_toFinset.mp answered)
  exact mem_before.mpr ⟨mem_cut.mpr ⟨mem_toFinset.mpr passes, by simp [noLimit]⟩, placed⟩

end Cluster

def crowdedCluster : Cluster String where
  shards :=
    let crowd (index : Nat) : SearchResult String :=
      { id := index.repr, score := .finite (100 - index), metadata := some "x" }
    [crowd 0, { id := "other", score := .finite 1, metadata := some "y" }]
      :: (List.range 7).map fun index => [crowd (index + 1)]
  some_shard := by simp
  isFinite := by decide +kernel
  distinctIds := by decide +kernel
  distinctScores := by decide +kernel

/-- Eight results of one group fill the window for two: the page lacks the other, unflagged. -/
theorem crowded_window_loses_group
    : let controls : SearchControls :=
        { topK := 2, scoreThreshold := none, groupBy := "kind", groupSize := none }
      let found := crowdedCluster.search (fun kind _ => some kind) controls
        greatestFirst
      (found.1.map (·.id), found.2) = (["0"], some false)
      ∧ (exactAnswer (fun kind _ => some kind) controls 2 crowdedCluster.shards.flatten).map (·.id)
        = ["0", "other"] := by
  decide +kernel

theorem search_exact_of_ungrouped_sample
    : let controls : SearchControls :=
        { topK := 2, scoreThreshold := none, groupBy := "", groupSize := none }
      (crowdedCluster.search (fun kind _ => some kind) controls greatestFirst).1
        = exactAnswer (fun kind _ => some kind) controls 2 crowdedCluster.shards.flatten :=
  crowdedCluster.search_exact_of_ungrouped _ _ greatestFirst (by decide)

end AkiDB.Coordinator
