import AkiDB.Common.SearchResult
import AkiDB.Library.ArbitraryHeap
import AkiDB.Library.TopK
import AkiDB.Library.Unsigned
import Std.Data.ExtTreeMap.Lemmas

/-!
The merger of shard results: a heap of the best so far, and the best known score of each id in it.
-/

namespace AkiDB.Coordinator
open AkiDB.Common ArbitraryHeap Unsigned

variable {Metadata : Type}

/-- The order of the heap: its greatest item is the result to evict first. -/
def ScoredResult.cmp (self other : SearchResult Metadata) : Ordering :=
  match self.score.isNan, other.score.isNan with
  | true, true => .eq
  | true, false => .lt
  | false, true => .gt
  | false, false =>
    -- neither score is NaN here, so the comparison is defined
    let scoreCmp := (other.score.partialCmp self.score).getD .eq
    if scoreCmp = .eq then compare self.id other.id else scoreCmp

structure ResultMerger (Metadata : Type) where
  /-- The items of the binary heap, in whatever order it keeps them. -/
  heap : List (SearchResult Metadata)
  capacity : Nat
  bestScores : Std.ExtTreeMap String Score compare

namespace ResultMerger

def new (capacity : Nat) : ResultMerger Metadata :=
  { heap := [], capacity, bestScores := ∅ }

def compactionThreshold (merger : ResultMerger Metadata) : Nat :=
  saturatingMul64 merger.capacity 3 / 2

/-- Compaction sorts by score alone, with NaN at the end. -/
def compactionCmp (left right : SearchResult Metadata) : Ordering :=
  match left.score.isNan, right.score.isNan with
  | true, true => .eq
  | true, false => .gt
  | false, true => .lt
  | false, false => (right.score.partialCmp left.score).getD .eq

def compactionOrder (heap : List (SearchResult Metadata)) : List (SearchResult Metadata) :=
  heap.insertionSort fun left right => compactionCmp left right ≠ .gt

def trackScores (results : List (SearchResult Metadata))
    : Std.ExtTreeMap String Score compare :=
  results.foldl (fun scores result => scores.insert result.id result.score) ∅

variable (layout : Layout (SearchResult Metadata))

def compact (merger : ResultMerger Metadata)
    : ResultMerger Metadata :=
  let kept := (compactionOrder merger.heap).take merger.capacity
  { merger with heap := layout.arrange kept, bestScores := trackScores kept }

def shouldInsert (result min : SearchResult Metadata) : Bool :=
  min.score.isNan
    || result.score.gt min.score
    || (result.score.eq min.score && decide (result.id < min.id))

def addImproved (merger : ResultMerger Metadata)
    (result : SearchResult Metadata) : ResultMerger Metadata :=
  let grown := { merger with
    heap := layout.push merger.heap result
    bestScores := merger.bestScores.insert result.id result.score }
  if grown.heap.length > merger.compactionThreshold then grown.compact layout else grown

def addNew (merger : ResultMerger Metadata)
    (result : SearchResult Metadata) : ResultMerger Metadata :=
  if merger.heap.length < merger.capacity then
    { merger with
      heap := layout.push merger.heap result
      bestScores := merger.bestScores.insert result.id result.score }
  else
    match peek ScoredResult.cmp merger.heap with
    | none => merger
    | some min =>
      if shouldInsert result min then
        match layout.pop ScoredResult.cmp merger.heap with
        | none => merger
        | some (evicted, rest) =>
          { merger with
            heap := layout.push rest result
            bestScores :=
              (merger.bestScores.erase evicted.id).insert result.id result.score }
      else
        merger

def add (merger : ResultMerger Metadata)
    (result : SearchResult Metadata) : ResultMerger Metadata :=
  if ¬result.score.isFinite then merger
  else
    match merger.bestScores[result.id]? with
    | some existingScore =>
      if existingScore.ge result.score then merger else merger.addImproved layout result
    | none => merger.addNew layout result

def addResults (merger : ResultMerger Metadata)
    (results : List (SearchResult Metadata)) : ResultMerger Metadata :=
  results.foldl (add layout) merger

/-- The final order: score descending, then id ascending. -/
def finishCmp (left right : SearchResult Metadata) : Ordering :=
  let scoreCmp := (right.score.partialCmp left.score).getD .eq
  if scoreCmp = .eq then compare left.id right.id else scoreCmp

def finish (merger : ResultMerger Metadata) : List (SearchResult Metadata) :=
  let results := merger.heap.filter (·.score.isFinite)
  let sorted := results.insertionSort fun left right => finishCmp left right ≠ .gt
  (TopK.retainFirst (·.id) [] sorted).take merger.capacity

end ResultMerger

end AkiDB.Coordinator
