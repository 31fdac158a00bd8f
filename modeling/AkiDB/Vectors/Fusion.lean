import AkiDB.Library.KeyedMaps
import AkiDB.Library.TopK
import AkiDB.Vectors.Ranking

/-!
Reciprocal rank fusion without rounding: a better rank in one list never costs an id its place.
-/

namespace AkiDB.Vectors
open AkiDB.Common TopK GroupedCut KeyedMaps List

structure WeightedList where
  weight : ℚ
  positive : 0 < weight
  ids : List String

namespace WeightedList

def input (list : WeightedList) : RankedInput :=
  ⟨.finite list.weight, list.ids⟩

def contribution (k : ℚ) (list : WeightedList) (id : String) : ℚ :=
  if id ∈ list.ids then list.weight / (k + (list.ids.idxOf id + 1 : ℕ)) else 0

end WeightedList

def reciprocalScore (k : ℚ) (lists : List WeightedList) (id : String) : ℚ :=
  (lists.map (·.contribution k id)).sum

def unrounded : Floats := ⟨.exact, .exact, id⟩

def total (scores : List (String × Score)) (id : String) : ℚ :=
  ((scores.lookup id).map Score.value).getD 0

theorem lookup_addContribution (id other : String) (contribution : Score)
    (scores : List (String × Score))
    : (addContribution unrounded id contribution scores).lookup other
      = if id = other then some (.finite (total scores id + contribution.value))
        else scores.lookup other := by
  induction scores with
  | nil => simp [addContribution, lookup_row, total, unrounded, FloatArithmetic.exact,
      Score.zero, Score.value]
  | cons entry rest ih =>
    obtain ⟨key, score⟩ := entry
    unfold addContribution
    by_cases own : key = id
    · subst own
      simp only [if_true, lookup_row, total, Option.map_some, Option.getD_some]
      split_ifs <;> rfl
    · simp only [if_neg own, lookup_row, ih, total]
      split_ifs with first same <;> simp_all

/-- What one list adds, from a position on. -/
theorem lookup_contributeFrom (k weight : ℚ) (ids : List String) (position : Nat)
    (seen : List String) (scores : List (String × Score)) (id : String)
    : (contributeFrom unrounded (.finite k) (.finite weight) position seen scores ids).lookup id
      = if id ∈ ids ∧ id ∉ seen then some (.finite (total scores id
          + weight / (k + (position + ids.idxOf id + 1 : ℕ))))
        else scores.lookup id := by
  induction ids generalizing position seen scores with
  | nil => simp [contributeFrom]
  | cons first rest ih =>
    have moved (apart : first ≠ id) : position + 1 + rest.idxOf id + 1
        = position + (first :: rest).idxOf id + 1 := by
      rw [idxOf_cons_ne _ apart]
      omega
    unfold contributeFrom
    by_cases known : seen.contains first = true
    · rw [if_pos known, ih]
      by_cases same : first = id
      · subst same
        simp [contains_iff_mem.mp known]
      · simp only [moved same, mem_cons, Ne.symm same, false_or]
    · have fresh : first ∉ seen := fun member => known (contains_iff_mem.mpr member)
      have added := lookup_addContribution first id (.finite (weight / (k + (position + 1 : ℕ))))
        scores
      rw [if_neg known]
      refine (ih (position + 1) (first :: seen) _).trans ?_
      by_cases same : first = id
      · subst same
        have counts : first ∈ first :: rest ∧ first ∉ seen := ⟨mem_cons_self, fresh⟩
        rw [if_neg (fun both => both.2 mem_cons_self), if_pos counts, idxOf_cons_self]
        exact added.trans (if_pos rfl)
      · have kept := added.trans (if_neg same)
        have sameTotal : total (addContribution unrounded first
            (.finite (weight / (k + (position + 1 : ℕ)))) scores) id = total scores id := by
          rw [total, kept, total]
        simp only [← moved same, mem_cons, Ne.symm same, false_or]
        exact if_congr Iff.rfl (by rw [← sameTotal]; rfl) kept

theorem lookup_foldl (k : ℚ) (lists : List WeightedList) (scores : List (String × Score))
    (id : String)
    : ((lists.map (·.input)).foldl (contributeList unrounded (.finite k)) scores).lookup id
      = if ∃ list ∈ lists, id ∈ list.ids
        then some (.finite (total scores id + reciprocalScore k lists id))
        else scores.lookup id := by
  induction lists generalizing scores with
  | nil => simp
  | cons list rest ih =>
    have counts : normalizeWeight (.finite list.weight) = some (.finite list.weight) := by
      simp [normalizeWeight, Score.isFinite, Score.gt, Score.partialCmp, Score.zero,
        compare_gt_iff_gt, list.positive]
    have first := lookup_contributeFrom k list.weight list.ids 0 [] scores id
    have split : reciprocalScore k (list :: rest) id
        = list.contribution k id + reciprocalScore k rest id := by
      rw [reciprocalScore, map_cons, sum_cons, reciprocalScore]
    rw [map_cons, foldl_cons, ih, contributeList, WeightedList.input, counts, split]
    dsimp only
    rw [total, first]
    by_cases listed : id ∈ list.ids
    · have adds : list.contribution k id = list.weight / (k + (list.ids.idxOf id + 1 : ℕ)) :=
        if_pos listed
      by_cases later : ∃ list ∈ rest, id ∈ list.ids
      · simp [listed, later, adds, Score.value, add_assoc]
      · have nothing : reciprocalScore k rest id = 0 := by
          refine sum_eq_zero fun value member => ?_
          obtain ⟨other, inRest, rfl⟩ := mem_map.mp member
          exact if_neg fun found => later ⟨other, inRest, found⟩
        simp [listed, later, adds, nothing]
    · simp [listed, WeightedList.contribution, total]

/-! The fused order -/

def fused (k : ℚ) (lists : List WeightedList) : List ScoredId :=
  Rrf.ranking unrounded (.finite k) id (lists.map (·.input))

def reciprocalPlace (k : ℚ) (lists : List WeightedList) (id : String) : Lex (ℚᵒᵈ × String) :=
  place (id, reciprocalScore k lists id)

variable {k : ℚ} {lists : List WeightedList}

variable {others : List WeightedList}

theorem reciprocalPlace_le {id}
    : reciprocalPlace k lists id ≤ reciprocalPlace k others id
      ↔ reciprocalScore k others id ≤ reciprocalScore k lists id :=
  place_le_of_key rfl

theorem scoresOf_lists
    : ScoresOf (fun _ => True)
      ((lists.map (·.input)).foldl (contributeList unrounded (.finite k)) []) :=
  ScoresOf.foldl unrounded (fun _ _ _ _ => trivial) ⟨nodup_nil, fun _ _ => trivial⟩

theorem nodup_fused : ((fused k lists).map (·.id)).Nodup :=
  (ids_ranking unrounded _ _ _).nodup_iff.mpr scoresOf_lists.distinct

theorem mem_fused {item}
    : item ∈ fused k lists
      ↔ (∃ list ∈ lists, item.id ∈ list.ids)
        ∧ item.score = .finite (reciprocalScore k lists item.id) := by
  have found := lookup_foldl k lists [] item.id
  have entry : item ∈ fused k lists
      ↔ (item.id, item.score)
        ∈ (lists.map (·.input)).foldl (contributeList unrounded (.finite k)) [] := by
    refine (mem_insertionSort _).trans (mem_map.trans ⟨?_, fun member => ⟨_, member, rfl⟩⟩)
    rintro ⟨entry, member, rfl⟩
    exact member
  rw [entry]
  constructor
  · intro member
    rw [lookup_of_mem scoresOf_lists.distinct member] at found
    split_ifs at found with listed
    · refine ⟨listed, ?_⟩
      simpa [total] using found
    · cases found
  · rintro ⟨listed, score⟩
    rw [if_pos listed] at found
    obtain ⟨front, back, split, -⟩ := lookup_eq_some_iff.mp found
    rw [split, score]
    simp [total]

theorem precedes_iff {left right} {leftValue rightValue : ℚ}
    (leftScore : left.score = .finite leftValue) (rightScore : right.score = .finite rightValue)
    : Bm25Index.precedes left right
      ↔ place (left.id, leftValue) ≤ place (right.id, rightValue) := by
  rw [Bm25Index.precedes, leftScore, rightScore, place_le_iff]
  refine then_ne_gt.trans ?_
  rw [compare_le_iff_le, eq_comm]

theorem sorted_fused
    : ((fused k lists).map (·.id)).Pairwise fun left right =>
      reciprocalPlace k lists left < reciprocalPlace k lists right := by
  refine pairwise_map.mpr (sorted_insertionSort ?_ ?_)
  · intro left leftMember right rightMember
    have leftScore := (mem_fused.mp ((mem_insertionSort _).mpr leftMember)).2
    have rightScore := (mem_fused.mp ((mem_insertionSort _).mpr rightMember)).2
    exact precedes_iff leftScore rightScore
  · refine Nodup.of_map (fun place => (ofLex place).2) ?_
    rw [map_map, map_map]
    exact scoresOf_lists.distinct

theorem id_mem_fused {id}
    : id ∈ (fused k lists).map (·.id) ↔ ∃ list ∈ lists, id ∈ list.ids := by
  constructor
  · intro member
    obtain ⟨item, isFused, rfl⟩ := mem_map.mp member
    exact (mem_fused.mp isFused).1
  · intro found
    exact mem_map.mpr ⟨⟨id, .finite (reciprocalScore k lists id)⟩, mem_fused.mpr ⟨found, rfl⟩, rfl⟩

theorem fused_eq_of_perm (same : lists.Perm others)
    : fused k lists = fused k others := by
  have score (id : String) : reciprocalScore k lists id = reciprocalScore k others id :=
    (same.map _).sum_eq
  have place : reciprocalPlace k lists = reciprocalPlace k others := by
    funext id
    rw [reciprocalPlace, score, reciprocalPlace]
  have sorted := pairwise_map.mp (@sorted_fused k lists)
  have alsoSorted := pairwise_map.mp (@sorted_fused k others)
  rw [← place] at alsoSorted
  refine eq_of_sorted sorted alsoSorted fun item => ?_
  rw [mem_fused, mem_fused, score]
  simp only [same.mem_iff]

/-! A better rank -/

namespace WeightedList

def among (list : WeightedList) (before after : List WeightedList) (ids : List String)
    : List WeightedList :=
  before ++ { list with ids } :: after

variable {list : WeightedList} {before after : List WeightedList} {ids better : List String}
variable {id : String}

theorem reciprocalScore_mono (positive : 0 < k) (same : id ∈ ids ↔ id ∈ better)
    (rank : better.idxOf id ≤ ids.idxOf id)
    : reciprocalScore k (list.among before after ids) id
      ≤ reciprocalScore k (list.among before after better) id := by
  have here : contribution k { list with ids } id
      ≤ contribution k { list with ids := better } id := by
    unfold contribution
    by_cases listed : id ∈ ids
    · have weight := list.positive.le
      have ranks : ((better.idxOf id + 1 : ℕ) : ℚ) ≤ (ids.idxOf id + 1 : ℕ) := by
        exact_mod_cast Nat.succ_le_succ rank
      rw [if_pos listed, if_pos (same.mp listed)]
      gcongr
    · rw [if_neg listed, if_neg (fun found => listed (same.mpr found))]
  simpa [reciprocalScore, among] using here

theorem mem_fused_among
    : id ∈ (fused k (list.among before after ids)).map (·.id)
      ↔ (∃ other ∈ before, id ∈ other.ids) ∨ id ∈ ids ∨ ∃ other ∈ after, id ∈ other.ids := by
  simp only [id_mem_fused, among, mem_append, mem_cons, or_and_right, exists_or, exists_eq_left]

theorem idxOf_forward (front middle back : List String) (moved other : String)
    : (front ++ moved :: middle ++ back).idxOf moved
        ≤ (front ++ middle ++ moved :: back).idxOf moved
      ∧ (moved ≠ other → (front ++ middle ++ moved :: back).idxOf other
        ≤ (front ++ moved :: middle ++ back).idxOf other) := by
  simp only [append_assoc, idxOf_append, cons_append]
  constructor
  · rw [idxOf_cons_self]
    split_ifs <;> omega
  · intro apart
    simp only [idxOf_cons_ne _ apart, idxOf_append]
    split_ifs <;> omega

variable {front middle back : List String}

theorem mem_forward {moved}
    : id ∈ front ++ middle ++ moved :: back ↔ id ∈ front ++ moved :: middle ++ back := by
  grind

/-- Moving an id forward in one list keeps it above the ids it was above. -/
theorem above_forward (positive : 0 < k) {moved other} (above : [moved, other].Sublist
      ((fused k (list.among before after (front ++ middle ++ moved :: back))).map (·.id)))
    : [moved, other].Sublist
      ((fused k (list.among before after (front ++ moved :: middle ++ back))).map (·.id)) := by
  obtain ⟨hasMoved, hasOther, placed⟩ := (pair_sublist_iff sorted_fused).mp above
  rw [mem_fused_among, mem_forward] at hasMoved hasOther
  have apart : moved ≠ other := fun same => (same ▸ placed).false
  obtain ⟨gains, loses⟩ := idxOf_forward front middle back moved other
  refine (pair_sublist_iff sorted_fused).mpr
    ⟨mem_fused_among.mpr hasMoved, mem_fused_among.mpr hasOther, ?_⟩
  refine lt_of_le_of_lt ?_ (lt_of_lt_of_le placed ?_)
  · exact reciprocalPlace_le.mpr (reciprocalScore_mono positive mem_forward gains)
  · exact reciprocalPlace_le.mpr (reciprocalScore_mono positive mem_forward.symm (loses apart))

end WeightedList

/-- Fusion ranks ids by their reciprocal ranks, and a better rank never costs an id its place. -/
theorem fusion_by_reciprocal_ranks (k : {value : ℚ // 0 < value}) (lists : List WeightedList)
    : (∀ topK, Rrf.fuse unrounded (.finite k) id (lists.map (·.input)) topK
        = (fused k lists).take topK)
      ∧ (∀ item, item ∈ fused k lists
        ↔ (∃ list ∈ lists, item.id ∈ list.ids)
          ∧ item.score = .finite (reciprocalScore k lists item.id))
      ∧ ((fused k lists).map (·.id)).Pairwise (fun left right =>
        place (left, reciprocalScore k lists left) < place (right, reciprocalScore k lists right))
      ∧ ((fused k lists).map (·.id)).Nodup
      ∧ (∀ others, lists.Perm others → fused k lists = fused k others)
      ∧ ∀ before after (list : WeightedList) front middle back moved other,
        lists = list.among before after (front ++ middle ++ moved :: back) →
        [moved, other].Sublist ((fused k lists).map (·.id)) →
        [moved, other].Sublist
          ((fused k (list.among before after (front ++ moved :: middle ++ back))).map (·.id)) := by
  refine ⟨fun topK => ?_, fun _ => mem_fused, sorted_fused, nodup_fused,
    fun _ => fused_eq_of_perm, ?_⟩
  · unfold Rrf.fuse
    split
    · subst topK
      rfl
    · rfl
  · rintro before after list front middle back moved other rfl above
    exact WeightedList.above_forward k.property above

end AkiDB.Vectors
