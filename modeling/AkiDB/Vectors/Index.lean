import AkiDB.Common.Arithmetic
import AkiDB.Common.Error
import AkiDB.Library.AtomicBatch
import Mathlib.Data.Finset.Card
import Mathlib.Data.List.Sort

/-! The HNSW vector index over a nearest-neighbour library that is a parameter. -/

namespace AkiDB.Vectors
open AkiDB.Common AtomicBatch

inductive VectorPrecision where
  | f32
  | f16
  | i8
  deriving DecidableEq

inductive DistanceMetric where
  | cosine
  | l2
  | innerProduct
  deriving DecidableEq

structure HnswConfig where
  dimensions : Nat
  efSearch : Nat
  precision : VectorPrecision
  metric : DistanceMetric
  /-- What the library keeps of a vector at this precision. -/
  quantize : List Score → List Score

structure HnswIndex where
  /-- The vectors the library holds, by internal id. -/
  contents : KeyValueMap Nat (List Score)
  idMapping : KeyValueMap String Nat
  reverseMapping : KeyValueMap Nat String
  tombstones : Finset Nat
  nextId : Nat
  /-- Original vectors, kept for 8-bit precision only. -/
  exactVectors : KeyValueMap Nat (List Score)

/-- Failures of the library while one vector is written. -/
structure UsearchFaults where
  removeFails : Bool := false
  addFails : Option String := none

def allocateInternalId (nextId : Nat) : Except AkiDbError Nat :=
  if nextId + 1 < 2 ^ 63 then .ok nextId
  else .error (.invalidParameter "internal vector id space exhausted")

def validateFiniteVectorValues (vector : List Score) (operation : String)
    : Except AkiDbError Unit :=
  if vector.any (!·.isFinite) then
    .error (.invalidParameter s!"{operation} vector contains NaN or Infinity values")
  else .ok ()

namespace HnswIndex

def empty : HnswIndex where
  contents := ∅
  idMapping := ∅
  reverseMapping := ∅
  tombstones := ∅
  nextId := 0
  exactVectors := ∅

variable (index : HnswIndex)

variable (config : HnswConfig)

def rememberExact (internalId : Nat)
    (vector : List Score) : HnswIndex :=
  if config.precision = .i8 then
    { index with exactVectors := index.exactVectors.insert internalId vector }
  else index

def store (id : String) (internalId : Nat)
    (vector : List Score) : HnswIndex :=
  { index.rememberExact config internalId vector with
    contents := index.contents.insert internalId (config.quantize vector)
    reverseMapping := index.reverseMapping.insert internalId id }

/-- The state in which an upsert adds its vector: the old one is removed, the tombstone cleared. -/
def prepareUpsert (faults : UsearchFaults) (existingId : Nat)
    : HnswIndex :=
  { index with
    contents := if faults.removeFails then index.contents
      else index.contents.erase existingId
    tombstones := index.tombstones.erase existingId }

/-- Insert a vector. A known external id keeps its internal id, whether tombstoned or not. -/
def insert (config : HnswConfig) (faults : UsearchFaults) (index : HnswIndex) (id : String)
    (vector : List Score) : Except AkiDbError Nat × HnswIndex :=
  if vector.length ≠ config.dimensions then
    (.error (.dimensionMismatch config.dimensions vector.length), index)
  else match validateFiniteVectorValues vector "Insert" with
    | .error error => (.error error, index)
    | .ok () => match index.idMapping[id]? with
      | some existingId =>
        let prepared := index.prepareUpsert faults existingId
        match faults.addFails with
        | some error =>
          (.error (.invalidParameter s!"HNSW upsert failed: {error}"), prepared)
        | none => (.ok existingId, prepared.store config id existingId vector)
      | none => match allocateInternalId index.nextId with
        | .error error => (.error error, index)
        | .ok internalId =>
          let allocated := { index with nextId := index.nextId + 1 }
          match faults.addFails with
          | some error =>
            (.error (.invalidParameter s!"HNSW insert failed: {error}"), allocated)
          | none =>
            (.ok internalId, { allocated.store config id internalId vector with
              idMapping := index.idMapping.insert id internalId })

def delete (internalId : Nat) (fault : Option AkiDbError)
    : Except AkiDbError Unit × HnswIndex :=
  match fault with
  | some error => (.error error, index)
  | none => (.ok (), { index with tombstones := Insert.insert internalId index.tombstones })

def isDeleted (internalId : Nat) : Bool :=
  internalId ∈ index.tombstones

def internalIdOf (id : String) : Option Nat :=
  index.idMapping[id]?

def getVector (index : HnswIndex) (internalId : Nat)
    : Option (List Score) :=
  if index.isDeleted internalId then none
  else if config.precision = .i8 then index.exactVectors[internalId]?
  else index.contents[internalId]?

variable (removeFails : Nat → Bool)

/-- The internal ids a rebuild removes; removals that fail stay tombstoned and mapped. -/
def removedBy (internalId : Nat) : Bool :=
  index.reverseMapping[internalId]?.isSome && index.isDeleted internalId && !removeFails internalId

def triggerRebuild : HnswIndex :=
  let removed := index.removedBy removeFails
  let reverse := index.reverseMapping.filter fun internalId _ => !removed internalId
  { index with
    contents := index.contents.filter fun internalId _ => !removed internalId
    reverseMapping := reverse
    idMapping := index.idMapping.filter fun _ internalId => reverse[internalId]?.isSome
    tombstones := index.tombstones.filter fun internalId => !removed internalId
    exactVectors := index.exactVectors.filter fun internalId _ => !removed internalId }

def compactTombstones : Nat × HnswIndex :=
  let rebuilt := index.triggerRebuild removeFails
  (index.tombstones.card - rebuilt.tombstones.card, rebuilt)

structure IndexStats where
  totalVectors : Nat
  activeVectors : Nat
  tombstonedVectors : Nat

def stats : IndexStats where
  totalVectors := index.contents.size
  activeVectors := index.contents.size - index.tombstones.card
  tombstonedVectors := index.tombstones.card

end HnswIndex

def filterCandidateMultiplier : Nat := 2

def minFilterCandidates : Nat := 32

def i8RerankCandidates : Nat := 64

def candidateCount (topK indexSize tombstoned : Nat) (filtered : Bool) : Nat :=
  if indexSize = 0 then 0
  else
    let base := if filtered then max (topK * filterCandidateMultiplier) minFilterCandidates
      else topK + (topK + 1) / 2
    let active := indexSize - min tombstoned indexSize
    if active = 0 then 0
    else min ((base * indexSize + (active - 1)) / active) indexSize

def nextCandidateCount (current limit : Nat) : Nat :=
  min (max (current * 2) (current + 1)) limit

structure SearchParams where
  topK : Nat
  nprobe : Option Nat
  filter : Option (String → Bool)
  filterCandidateLimit : Nat

/-- Parameters of a search without filter; `topK` is not zero. -/
def SearchParams.new (topK : Nat) : SearchParams where
  topK := topK
  nprobe := none
  filter := none
  filterCandidateLimit := 16384

structure ScoredId where
  id : String
  score : Score
  deriving DecidableEq

structure SearchWindow where
  results : List ScoredId
  candidateLimited : Bool

/-- A nearest-neighbour query: the internal ids found with their distances. -/
abbrev Usearch : Type :=
  List Score → Nat → Nat → Except String (List (Nat × Score))

/-- What every query answers: each key once, keys that are held, no more than asked for. -/
structure Usearch.Sound (usearch : Usearch) (contents : KeyValueMap Nat (List Score))
    : Prop where
  nodup : ∀ {query breadth count found}, usearch query breadth count = .ok found
    → (found.map Prod.fst).Nodup
  held : ∀ {query breadth count found}, usearch query breadth count = .ok found
    → ∀ hit ∈ found, hit.1 ∈ contents
  bounded : ∀ {query breadth count found}, usearch query breadth count = .ok found
    → found.length ≤ count

namespace HnswIndex

section Search

variable (floats : Floats) (config : HnswConfig)

def exactScore (query vector : List Score) : Score :=
  let single := floats.single
  let pairs := query.zip vector
  match config.metric with
  | .cosine =>
    let dot := single.sum (pairs.map fun pair => single.mul pair.1 pair.2)
    let queryNorm := single.sum (pairs.map fun pair => single.mul pair.1 pair.1)
    let vectorNorm := single.sum (pairs.map fun pair => single.mul pair.2 pair.2)
    let denominator := single.mul (single.sqrt queryNorm) (single.sqrt vectorNorm)
    if denominator.eq .zero then .zero else single.div dot denominator
  | .l2 =>
    let sum := single.sum (pairs.map fun pair =>
      single.mul (single.sub pair.1 pair.2) (single.sub pair.1 pair.2))
    single.div (.finite 1) (single.add (.finite 1) sum)
  | .innerProduct => single.sum (pairs.map fun pair => single.mul pair.1 pair.2)

def distanceToScore (distance : Score) : Score :=
  match config.metric with
  | .cosine | .innerProduct => floats.single.sub (.finite 1) distance
  | .l2 => floats.single.div (.finite 1) (floats.single.add (.finite 1) distance)

/-- The hits of one window: live, mapped candidates that pass the filter. -/
def acceptHits (index : HnswIndex) (params : SearchParams) (found : List (Nat × Score))
    : List (Nat × ScoredId) :=
  found.filterMap fun candidate =>
    if index.isDeleted candidate.1 then none
    else match index.reverseMapping[candidate.1]? with
      | none => none
      | some id =>
        if params.filter.all (· id) then
          some (candidate.1, ⟨id, distanceToScore floats config candidate.2⟩)
        else none

/-- The hits of one window: the first ones, or, for 8-bit vectors, the best by exact score. -/
def windowResults (index : HnswIndex) (query : List Score) (params : SearchParams)
    (found : List (Nat × Score)) : List ScoredId :=
  let hits := index.acceptHits floats config params found
  if config.precision = .i8 then
    let rescored := hits.map fun hit => match index.exactVectors[hit.1]? with
      | some vector => { hit.2 with score := exactScore floats config query vector }
      | none => hit.2
    (rescored.insertionSort fun left right => right.score.totalLe left.score).take params.topK
  else (hits.take params.topK).map Prod.snd

/-- Widen the window until enough hits are accepted or the limit is reached. -/
def searchCandidateWindow (usearch : Usearch) (index : HnswIndex) (query : List Score)
    (params : SearchParams) (breadth candidateLimit : Nat)
    : Nat → Nat → Except AkiDbError SearchWindow
  | fuel, searchCount =>
    match usearch query breadth searchCount with
    | .error error => .error (.invalidParameter s!"HNSW search failed: {error}")
    | .ok found =>
      let results := index.windowResults floats config query params found
      let stop : SearchWindow :=
        { results := results
          candidateLimited := params.filter.isSome && results.length < params.topK
            && searchCount ≥ params.filterCandidateLimit }
      if results.length ≥ params.topK ∨ searchCount ≥ candidateLimit then .ok stop
      else match fuel with
        | 0 => .ok stop
        | fuel + 1 => searchCandidateWindow usearch index query params breadth
            candidateLimit fuel (nextCandidateCount searchCount candidateLimit)

def firstSearchCount (index : HnswIndex) (params : SearchParams) : Nat :=
  let searchCount := candidateCount params.topK index.contents.size index.tombstones.card
    params.filter.isSome
  if config.precision = .i8 then
    max searchCount (max (min i8RerankCandidates index.contents.size) params.topK)
  else searchCount

/-- The largest window of a search. -/
def candidateLimit (index : HnswIndex) (params : SearchParams) : Nat :=
  if params.filter.isSome ∨ 0 < index.tombstones.card then
    min (max params.filterCandidateLimit params.topK) index.contents.size
  else index.firstSearchCount config params

def searchWindow (usearch : Usearch) (index : HnswIndex) (query : List Score)
    (params : SearchParams) : Except AkiDbError SearchWindow :=
  if query.length ≠ config.dimensions then
    .error (.dimensionMismatch config.dimensions query.length)
  else match validateFiniteVectorValues query "Search" with
    | .error error => .error error
    | .ok () =>
      if candidateCount params.topK index.contents.size index.tombstones.card
          params.filter.isSome = 0 then
        .ok { results := [], candidateLimited := false }
      else
        let limit := index.candidateLimit config params
        let breadth := params.nprobe.getD config.efSearch
        index.searchCandidateWindow floats config usearch query params breadth limit limit
          (min (index.firstSearchCount config params) limit)

end Search

end HnswIndex

end AkiDB.Vectors
