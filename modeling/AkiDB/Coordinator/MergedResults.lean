import AkiDB.Coordinator.Merger

/-!
When merging returns the best results: as long as every result that the heap discards is covered.
-/

namespace AkiDB.Coordinator
open AkiDB.Common ArbitraryHeap TopK Unsigned List

variable {Metadata : Type}

def entry (result : SearchResult Metadata) : String × ℚ :=
  (result.id, result.score.value)

def entries (results : List (SearchResult Metadata)) : List (String × ℚ) :=
  (results.filter (·.score.isFinite)).map entry

@[simp]
theorem entries_nil : entries ([] : List (SearchResult Metadata)) = [] := rfl

theorem mem_entries {results : List (SearchResult Metadata)} {found : String × ℚ}
    : found ∈ entries results
      ↔ ∃ result ∈ results, result.score.isFinite ∧ entry result = found := by
  simp only [entries, mem_map, mem_filter]
  constructor
  · intro member
    obtain ⟨result, ⟨isIn, isFinite⟩, same⟩ := member
    exact ⟨result, isIn, isFinite, same⟩
  · intro member
    obtain ⟨result, isIn, isFinite, same⟩ := member
    exact ⟨result, ⟨isIn, isFinite⟩, same⟩

variable {left right : SearchResult Metadata}

theorem ResultMerger.finishCmp_iff (leftFinite : left.score.isFinite)
    (rightFinite : right.score.isFinite)
    : (finishCmp left right = .lt ↔ place (entry left) < place (entry right))
      ∧ (finishCmp left right = .gt ↔ place (entry right) < place (entry left)) := by
  simp only [finishCmp, Score.partialCmp_of_isFinite rightFinite leftFinite,
    Option.getD_some, place_lt_iff, entry]
  rcases lt_trichotomy right.score.value left.score.value with lower | same | higher
  · rw [compare_lt_iff_lt.mpr lower]
    refine ⟨iff_of_true rfl (.inl lower), iff_of_false nofun ?_⟩
    intro impossible
    rcases impossible with higher | same
    · exact lt_asymm lower higher
    · exact lower.ne same.1
  · rw [compare_eq_iff_eq.mpr same, if_pos rfl, same]
    simp only [lt_self_iff_false, true_and, false_or]
    exact ⟨compare_lt_iff_lt, compare_gt_iff_gt⟩
  · rw [compare_gt_iff_gt.mpr higher]
    refine ⟨iff_of_false nofun ?_, iff_of_true rfl (.inl higher)⟩
    intro impossible
    rcases impossible with lower | same
    · exact lt_asymm lower higher
    · exact higher.ne same.1

theorem ResultMerger.finishCmp_le_iff (leftFinite : left.score.isFinite)
    (rightFinite : right.score.isFinite)
    : finishCmp left right ≠ .gt ↔ place (entry left) ≤ place (entry right) := by
  rw [← not_lt]
  exact (finishCmp_iff leftFinite rightFinite).2.not

theorem ScoredResult.cmp_lt_iff {self other : SearchResult Metadata}
    (selfFinite : self.score.isFinite) (otherFinite : other.score.isFinite)
    : ScoredResult.cmp self other = .lt ↔ place (entry self) < place (entry other) := by
  have same : ScoredResult.cmp self other = ResultMerger.finishCmp self other := by
    simp only [ScoredResult.cmp, Score.isNan_of_isFinite selfFinite,
      Score.isNan_of_isFinite otherFinite]
    rfl
  rw [same]
  exact (ResultMerger.finishCmp_iff selfFinite otherFinite).1

/-- Finishing chooses the best entries of the heap: the first of an id is its best. -/
theorem ResultMerger.finish_eq_topK (merger : ResultMerger Metadata)
    : merger.finish.map entry = topK merger.capacity (entries merger.heap) := by
  have isFinite : ∀ result ∈ merger.heap.filter (·.score.isFinite), result.score.isFinite :=
    fun result member => (mem_filter.mp member).2
  have sorted : (((merger.heap.filter (·.score.isFinite)).insertionSort fun left right =>
      finishCmp left right ≠ .gt).map entry).Pairwise
        fun left right => place left ≤ place right := by
    rw [map_insertionSort _ (fun left right => place left ≤ place right)]
    · exact pairwise_insertionSort _ _
    · intro left leftIn right rightIn
      exact finishCmp_le_iff (isFinite left leftIn) (isFinite right rightIn)
  have chosen := take_retainFirst merger.capacity sorted
  refine chosen.trans (topK_congr _ ?_)
  intro found
  simp only [entries, mem_map, mem_insertionSort]

/-! What every merger keeps -/

/-- The heap holds finite scores only, and a result for every tracked score. -/
structure ResultMerger.Consistent (merger : ResultMerger Metadata) : Prop where
  isFinite : ∀ result ∈ merger.heap, result.score.isFinite
  tracked : ∀ id score, merger.bestScores[id]? = some score →
    ∃ result ∈ merger.heap, result.id = id ∧ result.score = score

namespace ResultMerger

variable {results : List (SearchResult Metadata)}

/-- A tracked score is that of one of the results. -/
theorem trackScores_mem {id score} (found : (trackScores results)[id]? = some score)
    : ∃ result ∈ results, result.id = id ∧ result.score = score := by
  have general : ∀ (scores : Std.ExtTreeMap String Score compare),
      (results.foldl (fun scores result => scores.insert result.id result.score) scores)[id]?
        = some score →
      scores[id]? = some score
        ∨ ∃ result ∈ results, result.id = id ∧ result.score = score := by
    clear found
    induction results with
    | nil => exact fun scores found => .inl found
    | cons result rest ih =>
      intro scores found
      rcases ih _ found with inserted | ⟨other, member, named⟩
      · rw [Std.ExtTreeMap.getElem?_insert] at inserted
        split at inserted
        · next same =>
          cases inserted
          exact .inr ⟨result, mem_cons_self, Std.LawfulEqOrd.compare_eq_iff_eq.mp same, rfl⟩
        · exact .inl inserted
      · exact .inr ⟨other, mem_cons_of_mem _ member, named⟩
  rcases general ∅ found with impossible | tracked
  · simp at impossible
  · exact tracked

variable {merger : ResultMerger Metadata} {result : SearchResult Metadata} {capacity : Nat}

variable {rest : List (SearchResult Metadata)}

theorem Consistent.push {layout : Layout (SearchResult Metadata)}
    {scores : Std.ExtTreeMap String Score compare} (isFinite : ∀ other ∈ rest, other.score.isFinite)
    (tracked : ∀ id score, scores[id]? = some score →
      ∃ other ∈ rest, other.id = id ∧ other.score = score) (resultFinite : result.score.isFinite)
    : Consistent { merger with
        heap := layout.push rest result
        bestScores := scores.insert result.id result.score } := by
  have perm := layout.push_perm rest result
  constructor
  · intro other member
    rcases mem_cons.mp (perm.mem_iff.mp member) with rfl | inRest
    · exact resultFinite
    · exact isFinite other inRest
  · intro id score found
    simp only [Std.ExtTreeMap.getElem?_insert] at found
    split at found
    · next same =>
      cases found
      exact ⟨result, perm.mem_iff.mpr mem_cons_self, Std.LawfulEqOrd.compare_eq_iff_eq.mp same, rfl⟩
    · obtain ⟨other, inRest, named⟩ := tracked id score found
      exact ⟨other, perm.mem_iff.mpr (mem_cons_of_mem _ inRest), named⟩

theorem compactionOrder_perm (heap : List (SearchResult Metadata))
    : (compactionOrder heap).Perm heap :=
  perm_insertionSort _ _

theorem Consistent.compact (consistent : merger.Consistent)
    (layout : Layout (SearchResult Metadata))
    : (merger.compact layout).Consistent := by
  have perm := layout.arrange_perm ((compactionOrder merger.heap).take merger.capacity)
  constructor
  · intro result member
    have kept := mem_of_mem_take (perm.mem_iff.mp member)
    exact consistent.isFinite result ((compactionOrder_perm _).mem_iff.mp kept)
  · intro id score found
    obtain ⟨result, kept, named⟩ := trackScores_mem found
    exact ⟨result, perm.mem_iff.mpr kept, named⟩

theorem Consistent.evict (consistent : merger.Consistent) {evicted}
    (perm : (evicted :: rest).Perm merger.heap)
    : (∀ other ∈ rest, other.score.isFinite)
      ∧ ∀ id score, (merger.bestScores.erase evicted.id)[id]? = some score →
          ∃ other ∈ rest, other.id = id ∧ other.score = score := by
  constructor
  · intro other inRest
    exact consistent.isFinite other (perm.mem_iff.mp (mem_cons_of_mem _ inRest))
  · intro id score found
    rw [Std.ExtTreeMap.getElem?_erase] at found
    split at found
    · cases found
    · next different =>
      obtain ⟨other, member, named, scored⟩ := consistent.tracked id score found
      rcases mem_cons.mp (perm.mem_iff.mpr member) with rfl | inRest
      · exact absurd (Std.LawfulEqOrd.compare_eq_iff_eq.mpr named) different
      · exact ⟨other, inRest, named, scored⟩

theorem Consistent.add (consistent : merger.Consistent) (layout : Layout (SearchResult Metadata))
    (result : SearchResult Metadata)
    : (merger.add layout result).Consistent := by
  unfold ResultMerger.add
  split
  · exact consistent
  · next isFinite =>
    have resultFinite := not_not.mp isFinite
    have grown : Consistent { merger with
        heap := layout.push merger.heap result
        bestScores := merger.bestScores.insert result.id result.score } :=
      .push consistent.isFinite consistent.tracked resultFinite
    split
    · split
      · exact consistent
      · simp only [addImproved]
        split
        · exact grown.compact layout
        · exact grown
    · unfold addNew
      split
      · exact grown
      · split
        · exact consistent
        · split
          · split
            · exact consistent
            · next evicted rest popped =>
              obtain ⟨restFinite, tracked⟩ := consistent.evict (Layout.pop_perm popped)
              exact .push restFinite tracked resultFinite
          · exact consistent

/-! What a step discards -/

/-- In place of a discarded result that comes last, the kept ones have its id or enough ids. -/
def KeepsEnough (capacity : Nat) (kept : List (SearchResult Metadata))
    (discarded : SearchResult Metadata) : Prop :=
  discarded.id ∈ kept.map (·.id) ∨ capacity ≤ (kept.map (·.id)).toFinset.card

/-- Every result beyond the capacity is covered by those within. -/
def CompactsSafely (capacity : Nat) (ordered : List (SearchResult Metadata)) : Prop :=
  ∀ discarded ∈ ordered.drop capacity,
    Covered capacity ((ordered.take capacity).map entry) (entry discarded)

/-- What a step discards is made up for by what it keeps. -/
def Lossless (layout : Layout (SearchResult Metadata)) (merger : ResultMerger Metadata)
    (result : SearchResult Metadata) : Prop :=
  result.score.isFinite →
    match merger.bestScores[result.id]? with
    | some existingScore =>
      existingScore.ge result.score
      ∨ (layout.push merger.heap result).length ≤ merger.compactionThreshold
      ∨ CompactsSafely merger.capacity (compactionOrder (layout.push merger.heap result))
    | none =>
      merger.heap.length < merger.capacity
      ∨ match takeGreatest ScoredResult.cmp merger.heap with
        | none => True
        | some (min, rest) =>
          if shouldInsert result min then
            KeepsEnough merger.capacity (result :: rest) min
          else
            KeepsEnough merger.capacity merger.heap result

instance (capacity : Nat) (kept : List (SearchResult Metadata))
    (discarded : SearchResult Metadata) : Decidable (KeepsEnough capacity kept discarded) :=
  inferInstanceAs (Decidable (_ ∨ _))

instance (capacity : Nat) (ordered : List (SearchResult Metadata))
    : Decidable (CompactsSafely capacity ordered) :=
  inferInstanceAs (Decidable (∀ discarded ∈ ordered.drop capacity, _))

instance (layout : Layout (SearchResult Metadata)) (merger : ResultMerger Metadata)
    (result : SearchResult Metadata) : Decidable (merger.Lossless layout result) := by
  unfold Lossless
  split
  · infer_instance
  · split
    · infer_instance
    · split <;> infer_instance

theorem shouldInsert_iff {min} (resultFinite : result.score.isFinite)
    (minFinite : min.score.isFinite)
    : shouldInsert result min ↔ place (entry result) < place (entry min) := by
  simp only [shouldInsert, Score.isNan_of_isFinite minFinite, Score.gt, Score.eq,
    Score.partialCmp_of_isFinite resultFinite minFinite, Option.some.injEq, Bool.or_eq_true,
    Bool.and_eq_true, decide_eq_true_eq, compare_gt_iff_gt, compare_eq_iff_eq, place_lt_iff,
    entry, Bool.false_eq_true, false_or]

theorem entries_of_isFinite (isFinite : ∀ result ∈ results, result.score.isFinite)
    : entries results = results.map entry := by
  unfold entries
  rw [filter_eq_self.mpr isFinite]

variable {kept : List (SearchResult Metadata)} {discarded : SearchResult Metadata}

theorem keepsEnough_iff (isFinite : ∀ result ∈ kept, result.score.isFinite)
    (last : ∀ result ∈ kept, place (entry result) ≤ place (entry discarded))
    : KeepsEnough capacity kept discarded ↔ Covered capacity (entries kept) (entry discarded) := by
  have ids : (kept.map entry).map Prod.fst = kept.map (·.id) := by
    rw [map_map]
    rfl
  rw [entries_of_isFinite isFinite, covered_iff_of_last, ids]
  · rfl
  · intro found member
    obtain ⟨result, isKept, same⟩ := mem_map.mp member
    rw [← same]
    exact last result isKept

variable {all : List (SearchResult Metadata)}

theorem mem_entries_of_subset {some} (subset : ∀ result ∈ some, result ∈ all) {found}
    (member : found ∈ entries some)
    : found ∈ entries all := by
  obtain ⟨result, isIn, isFinite, same⟩ := mem_entries.mp member
  exact mem_entries.mpr ⟨result, subset result isIn, isFinite, same⟩

theorem covers_iff_of_discard (isIn : discarded ∈ all) (isFinite : discarded.score.isFinite)
    (others : ∀ result ∈ all, result = discarded ∨ result ∈ kept)
    : (∀ found ∈ entries all, Covered capacity (entries kept) found)
      ↔ Covered capacity (entries kept) (entry discarded) := by
  constructor
  · intro covers
    exact covers _ (mem_entries.mpr ⟨discarded, isIn, isFinite, rfl⟩)
  · intro covered found member
    obtain ⟨result, inAll, resultFinite, same⟩ := mem_entries.mp member
    rcases others result inAll with rfl | isKept
    · rw [← same]
      exact covered
    · exact .of_mem (mem_entries.mpr ⟨result, isKept, resultFinite, same⟩)

theorem compactsSafely_iff (consistent : merger.Consistent)
    (layout : Layout (SearchResult Metadata))
    : CompactsSafely merger.capacity (compactionOrder merger.heap)
      ↔ ∀ found ∈ entries merger.heap,
          Covered merger.capacity (entries (merger.compact layout).heap) found := by
  have isFinite : ∀ result ∈ compactionOrder merger.heap, result.score.isFinite :=
    fun result member => consistent.isFinite result ((compactionOrder_perm _).mem_iff.mp member)
  have arranged : ∀ found, found ∈ entries (merger.compact layout).heap
      ↔ found ∈ ((compactionOrder merger.heap).take merger.capacity).map entry := by
    intro found
    have perm := layout.arrange_perm ((compactionOrder merger.heap).take merger.capacity)
    rw [entries_of_isFinite (consistent.compact layout).isFinite]
    exact (perm.map entry).mem_iff
  constructor
  · intro safe found member
    obtain ⟨result, isIn, _, same⟩ := mem_entries.mp member
    have ordered := (compactionOrder_perm merger.heap).mem_iff.mpr isIn
    rw [← take_append_drop merger.capacity (compactionOrder merger.heap)] at ordered
    refine Covered.mono (fun other isKept => (arranged other).mpr isKept) ?_
    rw [← same]
    rcases mem_append.mp ordered with isKept | dropped
    · exact .of_mem (mem_map_of_mem isKept)
    · exact safe result dropped
  · intro covers discarded dropped
    have ordered := mem_of_mem_drop dropped
    have isIn := (compactionOrder_perm merger.heap).mem_iff.mp ordered
    have covered := covers (entry discarded)
      (mem_entries.mpr ⟨discarded, isIn, isFinite discarded ordered, rfl⟩)
    exact covered.mono fun other isKept => (arranged other).mp isKept

variable (layout : Layout (SearchResult Metadata))

theorem covers_of_push {heap} (result : SearchResult Metadata)
    : ∀ found ∈ entries (result :: heap),
        Covered capacity (entries (layout.push heap result)) found :=
  fun _ member => .of_mem (mem_entries_of_subset
    (fun _ isIn => (layout.push_perm heap result).mem_iff.mpr isIn) member)

theorem addImproved_covers_iff (consistent : merger.Consistent)
    (layout : Layout (SearchResult Metadata)) (isFinite : result.score.isFinite)
    : ((layout.push merger.heap result).length ≤ merger.compactionThreshold
        ∨ CompactsSafely merger.capacity (compactionOrder (layout.push merger.heap result)))
      ↔ ∀ found ∈ entries (result :: merger.heap),
          Covered merger.capacity (entries (merger.addImproved layout result).heap) found := by
  have grown : Consistent { merger with
      heap := layout.push merger.heap result
      bestScores := merger.bestScores.insert result.id result.score } :=
    .push consistent.isFinite consistent.tracked isFinite
  simp only [addImproved]
  split
  · next long =>
    rw [or_iff_right (Nat.not_le.mpr long)]
    refine (compactsSafely_iff grown layout).trans ?_
    have sameEntries : ∀ found, found ∈ entries (layout.push merger.heap result)
        ↔ found ∈ entries (result :: merger.heap) := by
      intro found
      have perm := layout.push_perm merger.heap result
      exact ⟨mem_entries_of_subset fun _ isIn => perm.mem_iff.mp isIn,
        mem_entries_of_subset fun _ isIn => perm.mem_iff.mpr isIn⟩
    simp only [sameEntries]
  · next short =>
    exact iff_of_true (.inl (Nat.not_lt.mp short)) (covers_of_push layout result)

theorem addNew_covers_iff (consistent : merger.Consistent)
    (layout : Layout (SearchResult Metadata)) (isFinite : result.score.isFinite)
    : (merger.heap.length < merger.capacity
        ∨ match takeGreatest ScoredResult.cmp merger.heap with
          | none => True
          | some (min, rest) =>
            if shouldInsert result min then
              KeepsEnough merger.capacity (result :: rest) min
            else
              KeepsEnough merger.capacity merger.heap result)
      ↔ ∀ found ∈ entries (result :: merger.heap),
          Covered merger.capacity (entries (merger.addNew layout result).heap) found := by
  unfold addNew
  by_cases room : merger.heap.length < merger.capacity
  · rw [if_pos room]
    exact iff_of_true (.inl room) (covers_of_push layout result)
  · rw [if_neg room, or_iff_right room]
    cases taken : takeGreatest ScoredResult.cmp merger.heap with
    | none =>
      -- an empty heap is full only without capacity, where nothing needs to be kept
      have empty := takeGreatest_eq_none.mp taken
      have nothing : merger.capacity = 0 := by
        rw [empty] at room
        simpa using room
      simp only [peek, taken, Option.map_none]
      refine iff_of_true trivial fun found _ => .inr ?_
      omega
    | some pair =>
      obtain ⟨min, rest⟩ := pair
      have perm := takeGreatest_perm taken
      have minIn : min ∈ merger.heap := perm.mem_iff.mp mem_cons_self
      have minFinite := consistent.isFinite min minIn
      have restFinite : ∀ other ∈ rest, other.score.isFinite := fun other inRest =>
        consistent.isFinite other (perm.mem_iff.mp (mem_cons_of_mem _ inRest))
      have minLast : ∀ other ∈ rest, place (entry other) ≤ place (entry min) := by
        refine takeGreatest_greatest ?_ taken
        intro left leftIn right rightIn
        exact ScoredResult.cmp_lt_iff (consistent.isFinite left leftIn)
          (consistent.isFinite right rightIn)
      simp only [peek, Layout.pop, taken, Option.map_some]
      by_cases better : shouldInsert result min
      · rw [if_pos better, if_pos better]
        have before := (shouldInsert_iff isFinite minFinite).mp better
        have pushed := layout.push_perm (layout.arrange rest) result
        have keptIff : ∀ other, other ∈ layout.push (layout.arrange rest) result
            ↔ other ∈ result :: rest := by
          intro other
          rw [pushed.mem_iff, mem_cons, mem_cons, (layout.arrange_perm rest).mem_iff]
        rw [covers_iff_of_discard (mem_cons_of_mem _ minIn) minFinite, keepsEnough_iff]
        · constructor
          · exact Covered.mono fun _ => mem_entries_of_subset
              fun other isKept => (keptIff other).mpr isKept
          · exact Covered.mono fun _ => mem_entries_of_subset
              fun other isKept => (keptIff other).mp isKept
        · intro other isKept
          rcases mem_cons.mp isKept with rfl | inRest
          · exact isFinite
          · exact restFinite other inRest
        · intro other isKept
          rcases mem_cons.mp isKept with rfl | inRest
          · exact le_of_lt before
          · exact minLast other inRest
        · intro other isIn
          rcases mem_cons.mp isIn with rfl | inHeap
          · exact .inr ((keptIff other).mpr mem_cons_self)
          · rcases mem_cons.mp (perm.mem_iff.mpr inHeap) with rfl | inRest
            · exact .inl rfl
            · exact .inr ((keptIff other).mpr (mem_cons_of_mem _ inRest))
      · rw [if_neg better, if_neg better]
        have after : place (entry min) ≤ place (entry result) :=
          le_of_not_gt fun before => better ((shouldInsert_iff isFinite minFinite).mpr before)
        rw [covers_iff_of_discard mem_cons_self isFinite, keepsEnough_iff]
        · exact consistent.isFinite
        · intro other inHeap
          rcases mem_cons.mp (perm.mem_iff.mpr inHeap) with rfl | inRest
          · exact after
          · exact (minLast other inRest).trans after
        · intro other isIn
          exact mem_cons.mp isIn

/-- A step is lossless exactly when the heap after it covers the heap before it and the new
result. -/
theorem lossless_iff (consistent : merger.Consistent) (layout : Layout (SearchResult Metadata))
    (result : SearchResult Metadata)
    : merger.Lossless layout result
      ↔ ∀ found ∈ entries (result :: merger.heap),
          Covered merger.capacity (entries (merger.add layout result).heap) found := by
  unfold Lossless ResultMerger.add
  by_cases resultFinite : result.score.isFinite
  case neg =>
    rw [if_pos resultFinite]
    refine iff_of_true (fun isFinite => absurd isFinite resultFinite) ?_
    intro found member
    obtain ⟨other, isIn, isFinite, same⟩ := mem_entries.mp member
    rcases mem_cons.mp isIn with rfl | inHeap
    · exact absurd isFinite resultFinite
    · exact .of_mem (mem_entries.mpr ⟨other, inHeap, isFinite, same⟩)
  case pos =>
    rw [if_neg (not_not.mpr resultFinite), forall_prop_of_true resultFinite]
    cases tracked : merger.bestScores[result.id]? with
    | none => exact addNew_covers_iff consistent layout resultFinite
    | some existingScore =>
      by_cases better : existingScore.ge result.score
      · -- the tracked score belongs to a kept result of the id
        obtain ⟨known, inHeap, named, scored⟩ := consistent.tracked _ _ tracked
        have knownFinite := consistent.isFinite known inHeap
        refine iff_of_true (.inl better) ?_
        simp only [if_pos better]
        rw [← scored, Score.ge, Score.partialCmp_of_isFinite knownFinite resultFinite] at better
        simp only [Option.some.injEq, compare_gt_iff_gt, compare_eq_iff_eq,
          decide_eq_true_eq] at better
        have atLeast : result.score.value ≤ known.score.value := by
          rcases better with above | same
          · exact le_of_lt above
          · exact le_of_eq same.symm
        rw [covers_iff_of_discard mem_cons_self resultFinite]
        · exact .inl ⟨entry known, mem_entries.mpr ⟨known, inHeap, knownFinite, rfl⟩, named,
            atLeast⟩
        · intro other isIn
          exact mem_cons.mp isIn
      · simp only [better, Bool.false_eq_true, false_or, if_false]
        exact addImproved_covers_iff consistent layout resultFinite

/-! Sequences of results -/

theorem add_capacity (merger : ResultMerger Metadata) (result : SearchResult Metadata)
    : (merger.add layout result).capacity = merger.capacity := by
  unfold ResultMerger.add addImproved addNew
  split
  · rfl
  · split
    · split
      · rfl
      · dsimp only
        split <;> rfl
    · split
      · rfl
      · split
        · rfl
        · split
          · split <;> rfl
          · rfl

theorem add_heap_subperm (merger : ResultMerger Metadata) (result : SearchResult Metadata)
    : (merger.add layout result).heap.Subperm (result :: merger.heap) := by
  have same : merger.heap.Subperm (result :: merger.heap) := .cons_self
  have pushed := (layout.push_perm merger.heap result).subperm
  unfold ResultMerger.add addImproved addNew
  split
  · exact same
  · split
    · split
      · exact same
      · dsimp only
        split
        · have kept := (layout.arrange_perm ((compactionOrder (layout.push merger.heap result)).take
            merger.capacity)).subperm
          exact (kept.trans (take_sublist _ _).subperm).trans
            ((compactionOrder_perm _).subperm.trans pushed)
        · exact pushed
    · split
      · exact pushed
      · split
        · exact same
        · split
          · split
            · exact same
            · next evicted rest popped =>
              have rested : rest.Subperm merger.heap :=
                List.Subperm.cons_self.trans (Layout.pop_perm popped).subperm
              exact (layout.push_perm rest result).subperm.trans ((subperm_cons result).mpr rested)
          · exact same

/-- Every result of a sequence is added without loss. -/
def LosslessAlong (layout : Layout (SearchResult Metadata))
    : ResultMerger Metadata → List (SearchResult Metadata) → Prop
  | _, [] => True
  | merger, result :: rest =>
    merger.Lossless layout result ∧ LosslessAlong layout (merger.add layout result) rest

instance (layout : Layout (SearchResult Metadata)) (merger : ResultMerger Metadata)
    (results : List (SearchResult Metadata))
    : Decidable (LosslessAlong layout merger results) := by
  induction results generalizing merger with
  | nil => exact .isTrue trivial
  | cons result rest ih => exact @instDecidableAnd _ _ _ (ih _)

/-- The best entries stay those of the heap exactly when no step loses anything.
Witness: a lossless step covers all that the heap did.
-/
theorem prefixes_iff_losslessAlong (consistent : merger.Consistent) {seen}
    (part : ∀ found ∈ entries merger.heap, found ∈ seen)
    (covered : ∀ found ∈ seen, Covered merger.capacity (entries merger.heap) found)
    (results : List (SearchResult Metadata))
    : (∀ head, head <+: results →
        topK merger.capacity (entries (merger.addResults layout head).heap)
          = topK merger.capacity (seen ++ entries head))
      ↔ LosslessAlong layout merger results := by
  induction results generalizing merger seen with
  | nil =>
    refine iff_of_true ?_ trivial
    intro head isPrefix
    rw [prefix_nil.mp isPrefix, entries_nil, append_nil]
    exact (topK_eq_iff part).mpr covered
  | cons result rest ih =>
    have heapIn : ∀ found ∈ entries (result :: merger.heap), found ∈ seen ++ entries [result] := by
      intro found member
      obtain ⟨other, isIn, isFinite, same⟩ := mem_entries.mp member
      rcases mem_cons.mp isIn with rfl | inHeap
      · exact mem_append_right _ (mem_entries.mpr ⟨other, mem_singleton_self _, isFinite, same⟩)
      · exact mem_append_left _ (part found (mem_entries.mpr ⟨other, inHeap, isFinite, same⟩))
    have isPart : ∀ found ∈ entries (merger.add layout result).heap,
        found ∈ seen ++ entries [result] := fun found member =>
      heapIn found (mem_entries_of_subset (add_heap_subperm layout merger result).subset member)
    -- what the step covers of the heap and the new result, it covers of everything seen
    have coversAll : merger.Lossless layout result
        ↔ ∀ found ∈ seen ++ entries [result],
            Covered merger.capacity (entries (merger.add layout result).heap) found := by
      rw [lossless_iff consistent layout result]
      constructor
      · intro covers found member
        rcases mem_append.mp member with old | isNew
        · exact (covered found old).trans fun other inHeap => covers other
            (mem_entries_of_subset (fun _ => mem_cons_of_mem _) inHeap)
        · refine covers found (mem_entries_of_subset ?_ isNew)
          intro other isIn
          rw [mem_singleton.mp isIn]
          exact mem_cons_self
      · intro covers found member
        exact covers found (heapIn found member)
    have nextIff := fun covers => ih (consistent.add layout result) isPart
      (by rw [add_capacity]; exact covers)
    simp only [add_capacity] at nextIff
    have appended : ∀ head, seen ++ entries (result :: head)
        = (seen ++ entries [result]) ++ entries head := by
      intro head
      rw [append_assoc, ← singleton_append, entries, filter_append, map_append]
      rfl
    constructor
    · intro right
      have first := right [result] (by simp)
      have covers := (topK_eq_iff isPart).mp first
      refine ⟨coversAll.mpr covers, (nextIff covers).mp ?_⟩
      intro head isPrefix
      have next := right (result :: head) (cons_prefix_cons.mpr ⟨rfl, isPrefix⟩)
      rw [appended] at next
      exact next
    · intro lossless head isPrefix
      have covers := coversAll.mp lossless.1
      cases head with
      | nil =>
        rw [entries_nil, append_nil]
        exact (topK_eq_iff part).mpr covered
      | cons other more =>
        obtain ⟨same, isRest⟩ := cons_prefix_cons.mp isPrefix
        rw [same, appended]
        exact (nextIff covers).mpr lossless.2 more isRest

theorem addResults_capacity (merger : ResultMerger Metadata)
    (results : List (SearchResult Metadata))
    : (merger.addResults layout results).capacity = merger.capacity := by
  induction results generalizing merger with
  | nil => rfl
  | cons result rest ih => exact (ih _).trans (add_capacity layout merger result)

theorem consistent_new (capacity : Nat) : (new capacity : ResultMerger Metadata).Consistent := by
  constructor
  · intro result member
    cases member
  · intro id score found
    simp [new] at found

/-- Finishing returns the best entries after each result exactly when no step loses one.
Witness: finishing chooses the best entries of the heap.
-/
theorem finish_prefixes_iff (layout : Layout (SearchResult Metadata)) (capacity : Nat)
    (results : List (SearchResult Metadata))
    : (∀ head, head <+: results → ((new capacity).addResults layout head).finish.map entry
          = topK capacity (entries head))
      ↔ LosslessAlong layout (new capacity) results := by
  have nothing : ∀ found ∈ entries (new capacity : ResultMerger Metadata).heap,
      found ∈ ([] : List (String × ℚ)) := fun _ member => member
  rw [← prefixes_iff_losslessAlong layout (consistent_new capacity) nothing nofun]
  refine forall₂_congr fun head _ => ?_
  rw [finish_eq_topK, addResults_capacity, nil_append]
  rfl

/-- A layout that a binary heap may have: the greatest item first. -/
def greatestFirst : Layout (SearchResult Metadata) where
  arrange := fun items =>
    items.insertionSort fun left right => ScoredResult.cmp left right ≠ .lt
  arrange_perm := fun _ => perm_insertionSort _ _

def sampleResult (id : String) (value : ℚ) : SearchResult Unit :=
  { id, score := .finite value, metadata := none }

example : LosslessAlong greatestFirst (new 2)
    [sampleResult "a" (1/2), sampleResult "b" (9/10), sampleResult "c" (7/10)] := by
  decide +kernel

/-- A stale copy of an improved id takes the slot of another id, which is rejected. -/
theorem stale_copy_loses_result
    : ((new 2).addResults greatestFirst
          [sampleResult "a" (1/2), sampleResult "a" (9/10), sampleResult "b" (2/5)]).finish.map
          entry
        = [("a", 9/10)]
      ∧ topK 2 (entries [sampleResult "a" (1/2), sampleResult "a" (9/10), sampleResult "b" (2/5)])
        = [("a", 9/10), ("b", 2/5)] := by
  decide +kernel

end ResultMerger

end AkiDB.Coordinator
