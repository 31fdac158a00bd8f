import AkiDB.Vectors.Lexical
import AkiDB.Vectors.Metadata

/-! Ranking after retrieval: rank fusion, reranking by the terms of the query, and diversity. -/

namespace AkiDB.Vectors
open AkiDB.Common AtomicBatch List

def sortRanked (ranked : List ScoredId) : List ScoredId :=
  ranked.insertionSort Bm25Index.precedes

def finiteScore (score : Score) : Score :=
  if score.isFinite then score else .zero

theorem ids_sortRanked (ranked : List ScoredId)
    : ((sortRanked ranked).map (·.id)).Perm (ranked.map (·.id)) :=
  (ranked.perm_insertionSort _).map _

section Ranking

variable (floats : Floats)

structure RankedInput where
  weight : Score
  ids : List String

def defaultRrfK : Score := .finite 60

def normalizeWeight (weight : Score) : Option Score :=
  if weight.isFinite && weight.gt .zero then some weight else none

/-- Add to the score of an id; a new id comes last. -/
def addContribution (id : String) (contribution : Score)
    : List (String × Score) → List (String × Score)
  | [] => [(id, floats.double.add .zero contribution)]
  | (other, score) :: rest =>
    if other = id then (other, floats.double.add score contribution) :: rest
    else (other, score) :: addContribution id contribution rest

/-- The contributions of one list from a position on; an id counts where it stands first. -/
def contributeFrom (k weight : Score) (position : Nat) (seen : List String)
    (scores : List (String × Score)) : List String → List (String × Score)
  | [] => scores
  | id :: rest =>
    if seen.contains id then contributeFrom k weight (position + 1) seen scores rest
    else
      let contribution := floats.double.div weight
        (floats.double.add k (floats.double.ofNat (position + 1)))
      contributeFrom k weight (position + 1) (id :: seen)
        (if contribution.isFinite then addContribution floats id contribution scores
          else scores) rest

def contributeList (k : Score) (scores : List (String × Score)) (list : RankedInput)
    : List (String × Score) :=
  match normalizeWeight list.weight with
  | none => scores
  | some weight => contributeFrom floats k weight 0 [] scores list.ids

def Rrf.ranking (k : Score) (report : Score → Score) (lists : List RankedInput)
    : List ScoredId :=
  sortRanked ((lists.foldl (contributeList floats k) []).map fun entry =>
    ⟨entry.1, report entry.2⟩)

def Rrf.fuse (k : Score) (report : Score → Score) (lists : List RankedInput) (topK : Nat)
    : List ScoredId :=
  if topK = 0 then [] else (Rrf.ranking floats k report lists).take topK

def HybridFuser.fuse (denseWeight lexicalWeight : Score) (dense lexical : List ScoredId)
    (topK : Nat) : List ScoredId :=
  Rrf.fuse floats defaultRrfK floats.finiteF32
    [⟨denseWeight, dense.map (·.id)⟩, ⟨lexicalWeight, lexical.map (·.id)⟩] topK

theorem keys_addContribution (id : String) (contribution : Score) (scores : List (String × Score))
    : (addContribution floats id contribution scores).map Prod.fst
      = if id ∈ scores.map Prod.fst then scores.map Prod.fst
        else scores.map Prod.fst ++ [id] := by
  induction scores with
  | nil => simp [addContribution]
  | cons entry rest ih =>
    unfold addContribution
    by_cases same : entry.1 = id
    · simp [same]
    · have other : id ≠ entry.1 := Ne.symm same
      rw [if_neg same, map_cons, ih]
      by_cases known : id ∈ rest.map Prod.fst
      · simp only [known, if_true, map_cons, mem_cons, or_true]
      · simp only [known, if_false, map_cons, mem_cons, other, or_self, cons_append]

/-- Accumulated scores: every id once, all from given ids. -/
structure ScoresOf (allowed : String → Prop) (scores : List (String × Score)) : Prop where
  distinct : (scores.map Prod.fst).Nodup
  allowed : ∀ id ∈ scores.map Prod.fst, allowed id

variable {allowed : String → Prop} {scores : List (String × Score)}

theorem ScoresOf.addContribution (sound : ScoresOf allowed scores) {id} (permitted : allowed id)
    (contribution : Score)
    : ScoresOf allowed (addContribution floats id contribution scores) := by
  have keys := keys_addContribution floats id contribution scores
  by_cases known : id ∈ scores.map Prod.fst
  · rw [if_pos known] at keys
    exact ⟨keys ▸ sound.distinct, keys ▸ sound.allowed⟩
  · rw [if_neg known, ← concat_eq_append] at keys
    refine ⟨keys ▸ Nodup.concat known sound.distinct, keys ▸ ?_⟩
    intro other member
    rw [concat_eq_append] at member
    rcases mem_append.mp member with old | new
    · exact sound.allowed other old
    · exact (mem_singleton.mp new) ▸ permitted

variable {k : Score}

theorem ScoresOf.contributeFrom {weight ids} (permitted : ∀ id ∈ ids, allowed id) {position : Nat}
    {seen} (sound : ScoresOf allowed scores)
    : ScoresOf allowed (contributeFrom floats k weight position seen scores ids) := by
  induction ids generalizing position seen scores with
  | nil => exact sound
  | cons id rest ih =>
    obtain ⟨here, later⟩ := forall_mem_cons.mp permitted
    unfold Vectors.contributeFrom
    split
    · exact ih later sound
    · refine ih later ?_
      split
      · exact sound.addContribution floats here _
      · exact sound

theorem ScoresOf.contributeList {list} (permitted : ∀ id ∈ list.ids, allowed id)
    (sound : ScoresOf allowed scores)
    : ScoresOf allowed (contributeList floats k scores list) := by
  unfold Vectors.contributeList
  split
  · exact sound
  · exact sound.contributeFrom floats permitted

theorem ScoresOf.foldl {lists : List RankedInput}
    (permitted : ∀ list ∈ lists, ∀ id ∈ list.ids, allowed id) (sound : ScoresOf allowed scores)
    : ScoresOf allowed (lists.foldl (Vectors.contributeList floats k) scores) :=
  List.foldlRecOn lists _ sound fun _ found list member =>
    found.contributeList floats (permitted list member)

theorem ids_ranking (k : Score) (report : Score → Score) (lists : List RankedInput)
    : ((Rrf.ranking floats k report lists).map (·.id)).Perm
      ((lists.foldl (contributeList floats k) []).map Prod.fst) := by
  refine (ids_sortRanked _).trans (.of_eq ?_)
  rw [map_map]
  rfl

/-- Fusion returns ids of its lists, each once. -/
theorem fuse_sound {denseWeight lexicalWeight : Score} {dense lexical : List ScoredId}
    {topK : Nat}
    : ((HybridFuser.fuse floats denseWeight lexicalWeight dense lexical topK).map (·.id)).Nodup
      ∧ ∀ item ∈ HybridFuser.fuse floats denseWeight lexicalWeight dense lexical topK,
        item.id ∈ dense.map (·.id) ∨ item.id ∈ lexical.map (·.id) := by
  unfold HybridFuser.fuse Rrf.fuse
  generalize isLists : [(⟨denseWeight, dense.map (·.id)⟩ : RankedInput),
    ⟨lexicalWeight, lexical.map (·.id)⟩] = lists
  have sound : ScoresOf (fun id => id ∈ dense.map (·.id) ∨ id ∈ lexical.map (·.id))
      (lists.foldl (contributeList floats defaultRrfK) []) := by
    refine ScoresOf.foldl floats ?_ ⟨nodup_nil, by simp⟩
    subst isLists
    exact forall_mem_cons.mpr ⟨fun _ => .inl, forall_mem_singleton.mpr fun _ => .inr⟩
  have ids := ids_ranking floats defaultRrfK floats.finiteF32 lists
  split
  · simp
  · constructor
    · exact (ids.nodup_iff.mpr sound.distinct).sublist ((take_sublist ..).map _)
    · intro item member
      have listed := mem_map_of_mem (f := (·.id)) (take_subset _ _ member)
      exact sound.allowed _ (ids.mem_iff.mp listed)

structure RerankItem where
  id : String
  text : String
  score : Score

variable (unicode : UnicodeText)

def overlap (queryTerms : List String) (text : String) : Score :=
  if queryTerms = [] then .zero
  else
    let documentTerms := tokenize unicode text
    let hits := (queryTerms.filter documentTerms.contains).length
    floats.single.div (floats.single.ofNat hits) (floats.single.ofNat queryTerms.length)

/-- By new score, then by the old one, then by id. -/
def rerankedBefore (left right : ScoredId × Score) : Prop :=
  (((right.1.score.partialCmp left.1.score).getD .eq).then
    (((right.2.partialCmp left.2).getD .eq).then (compare left.1.id right.1.id))) ≠ .gt

instance (left right : ScoredId × Score) : Decidable (rerankedBefore left right) :=
  inferInstanceAs (Decidable (_ ≠ _))

def LexicalOverlapReranker.rerank (query : String)
    (items : List RerankItem) : List ScoredId :=
  let queryTerms := sortedDistinct (tokenize unicode query)
  ((items.map fun item =>
    ((⟨item.id, overlap floats unicode queryTerms item.text⟩ : ScoredId),
      finiteScore item.score)).insertionSort rerankedBefore).map Prod.fst

theorem ids_rerank (query : String) (items : List RerankItem)
    : ((LexicalOverlapReranker.rerank floats unicode query items).map (·.id)).Perm
        (items.map (·.id)) := by
  unfold LexicalOverlapReranker.rerank
  rw [map_map]
  refine ((perm_insertionSort _ _).map _).trans ?_
  rw [map_map]
  exact .refl _

structure MmrItem where
  id : String
  relevance : Score
  embedding : List Score

/-- The cosine of two vectors; zero where it is not defined. -/
def cosineSimilarity (left right : List Score) : Score :=
  let single := floats.single
  let pairs := left.zip right
  if left.length ≠ right.length then .zero
  else if pairs.any fun pair => !pair.1.isFinite || !pair.2.isFinite then .zero
  else
    let dot := single.sum (pairs.map fun pair => single.mul pair.1 pair.2)
    let leftNorm := single.sum (pairs.map fun pair => single.mul pair.1 pair.1)
    let rightNorm := single.sum (pairs.map fun pair => single.mul pair.2 pair.2)
    if leftNorm.eq .zero || rightNorm.eq .zero then .zero
    else finiteScore (single.div dot (single.mul (single.sqrt leftNorm) (single.sqrt rightNorm)))

def compareRelevance (left right : MmrItem) : Ordering :=
  (compare left.relevance.isFinite right.relevance.isFinite).then
    (((finiteScore left.relevance).partialCmp (finiteScore right.relevance)).getD .eq)

/-- One more item: of two items of one id the more relevant one stays, in the first place. -/
def addUnique (unique : List MmrItem) (item : MmrItem) : List MmrItem :=
  if unique.any (·.id = item.id) then
    unique.map fun existing =>
      if existing.id = item.id ∧ compareRelevance item existing = .gt then item else existing
  else unique ++ [item]

variable (items : List MmrItem)

def deduplicateMmrItems : List MmrItem :=
  items.foldl addUnique []

def mostRelevant : Nat :=
  (items.zipIdx.foldl (fun best candidate => match best with
    | none => some candidate
    | some current =>
      if (compareRelevance current.1 candidate.1).then
          (compare candidate.1.id current.1.id) = .gt then some current
      else some candidate) none).elim 0 Prod.snd

variable (lambda : Score)

def mmrScore (selected : List MmrItem) (candidate : MmrItem) : Score :=
  let single := floats.single
  let similarity := (selected.map fun item =>
    cosineSimilarity floats candidate.embedding item.embedding).foldl Score.max
    (.infinite true)
  single.sub (single.mul lambda (finiteScore candidate.relevance))
    (single.mul (single.sub (.finite 1) lambda) similarity)

def bestRemaining (score : MmrItem → Score) (remaining : List MmrItem) : Nat × Score :=
  remaining.zipIdx.foldl (fun best candidate =>
    let value := score candidate.1
    if value.gt best.2 ∨ (value.eq best.2
        ∧ candidate.1.id < (remaining.getD best.1 candidate.1).id) then (candidate.2, value)
    else best) (0, .infinite true)

def selectRest (lambda : Score)
    : Nat → List MmrItem → List MmrItem → List ScoredId
  | 0, _, _ => []
  | count + 1, selected, remaining =>
    let best := bestRemaining (mmrScore floats lambda selected) remaining
    match remaining[best.1]? with
    | none => []
    | some chosen => ⟨chosen.id, best.2⟩
        :: selectRest lambda count (selected ++ [chosen]) (remaining.eraseIdx best.1)

/-- Reselect up to `topK` items, trading relevance against novelty. -/
def mmr (topK : Nat) : List ScoredId :=
  if items = [] ∨ topK = 0 then []
  else
    let lambda := if lambda.isFinite then
        if lambda.gt (.finite 1) then .finite 1 else if (Score.zero).gt lambda then .zero
        else lambda
      else .finite (1 / 2)
    let remaining := deduplicateMmrItems items
    let place := mostRelevant remaining
    match remaining[place]? with
    | none => []
    | some first => ⟨first.id, finiteScore first.relevance⟩
        :: selectRest floats lambda (topK - 1) [first] (remaining.eraseIdx place)

theorem ids_addUnique (unique : List MmrItem) (item : MmrItem)
    : (addUnique unique item).map (·.id)
      = if item.id ∈ unique.map (·.id) then unique.map (·.id)
        else unique.map (·.id) ++ [item.id] := by
  have known : unique.any (·.id = item.id) = true ↔ item.id ∈ unique.map (·.id) := by
    simp [any_eq_true]
  unfold addUnique
  by_cases present : item.id ∈ unique.map (·.id)
  · rw [if_pos (known.mpr present), if_pos present, map_map]
    refine map_congr_left fun existing _ => ?_
    dsimp only [Function.comp]
    split
    · next same => exact same.1.symm
    · rfl
  · rw [if_neg (mt known.mp present), if_neg present, map_append]
    rfl

theorem deduplicate_sound : ((deduplicateMmrItems items).map (·.id)).Nodup
      ∧ ∀ id ∈ (deduplicateMmrItems items).map (·.id), id ∈ items.map (·.id) := by
  refine List.foldlRecOn (motive := fun unique : List MmrItem => (unique.map (·.id)).Nodup
      ∧ ∀ id ∈ unique.map (·.id), id ∈ items.map (·.id))
    items addUnique (b := []) ⟨nodup_nil, by simp⟩ ?_
  rintro unique ⟨distinct, among⟩ item member
  rw [ids_addUnique]
  split
  · exact ⟨distinct, among⟩
  · next new =>
      rw [← concat_eq_append]
      refine ⟨Nodup.concat new distinct, fun id listed => ?_⟩
      rw [concat_eq_append] at listed
      rcases mem_append.mp listed with old | single
      · exact among id old
      · exact mem_singleton.mp single ▸ mem_map_of_mem member

theorem ids_eraseIdx {items : List MmrItem} {place : Nat} {chosen : MmrItem}
    (found : items[place]? = some chosen)
    : (chosen.id :: (items.eraseIdx place).map (·.id)).Perm (items.map (·.id)) := by
  obtain ⟨bound, rfl⟩ := List.getElem?_eq_some_iff.mp found
  exact (getElem_cons_eraseIdx_perm bound).map (·.id)

theorem selectRest_sound (count : Nat) (selected : List MmrItem)
    {remaining : List MmrItem} (distinct : (remaining.map (·.id)).Nodup)
    : ((selectRest floats lambda count selected remaining).map (·.id)).Nodup
      ∧ ∀ id ∈ (selectRest floats lambda count selected remaining).map (·.id),
        id ∈ remaining.map (·.id) := by
  induction count generalizing selected remaining with
  | zero => exact ⟨nodup_nil, by simp [selectRest]⟩
  | succ count ih =>
    unfold selectRest
    dsimp only
    split
    · exact ⟨nodup_nil, by simp⟩
    · next chosen found =>
        have ids := ids_eraseIdx found
        obtain ⟨fresh, rest⟩ := nodup_cons.mp (ids.nodup_iff.mpr distinct)
        obtain ⟨later, among⟩ := ih (selected ++ [chosen]) rest
        rw [map_cons]
        refine ⟨nodup_cons.mpr ⟨fun again => fresh (among _ again), later⟩, ?_⟩
        intro id member
        rcases mem_cons.mp member with rfl | listed
        · exact ids.mem_iff.mp mem_cons_self
        · exact ids.mem_iff.mp (mem_cons_of_mem _ (among id listed))

/-- Reselection returns ids of its items, each once. -/
theorem mmr_sound (topK : Nat)
    : ((mmr floats items lambda topK).map (·.id)).Nodup
      ∧ ∀ item ∈ mmr floats items lambda topK, item.id ∈ items.map (·.id) := by
  obtain ⟨distinct, among⟩ := deduplicate_sound items
  unfold mmr
  dsimp only
  split
  · exact ⟨nodup_nil, by simp⟩
  · split
    · exact ⟨nodup_nil, by simp⟩
    · next first found =>
        have ids := ids_eraseIdx found
        obtain ⟨fresh, rest⟩ := nodup_cons.mp (ids.nodup_iff.mpr distinct)
        obtain ⟨later, chosen⟩ := selectRest_sound floats (if lambda.isFinite then
            if lambda.gt (.finite 1) then .finite 1
            else if (Score.zero).gt lambda then .zero else lambda
          else .finite (1 / 2)) (topK - 1) [first] rest
        refine ⟨nodup_cons.mpr ⟨fun again => fresh (chosen _ again), later⟩, ?_⟩
        intro item member
        rcases mem_cons.mp member with rfl | listed
        · exact among _ (ids.mem_iff.mp mem_cons_self)
        · exact among _ (ids.mem_iff.mp (mem_cons_of_mem _ (chosen _ (mem_map_of_mem listed))))

end Ranking

end AkiDB.Vectors
