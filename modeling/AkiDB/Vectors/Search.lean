import AkiDB.Vectors.IndexStates
import AkiDB.Vectors.Service

/-! Reading from the vector service: `get`, `search` and `search_batch`. -/

namespace AkiDB.Vectors
open AkiDB.Common AtomicBatch Checked List

structure SearchRequest where
  collection : String
  query : List Score
  topK : Nat
  nprobe : Option Nat
  filter : List UInt8
  tagFilter : Option TagFilter
  scoreThreshold : Option Score
  groupBy : String
  groupSize : Option Nat

structure SearchBatchRequest where
  collection : String
  queries : List (List Score)
  topK : Nat
  nprobe : Option Nat

/-- One result with the stored metadata, empty when there is none. -/
structure SearchHit where
  id : String
  score : Score
  metadata : List UInt8
  deriving DecidableEq

structure SearchResponse where
  results : List SearchHit
  candidateLimited : Bool
  deriving DecidableEq

def validateSearchControls (topK : Nat) (nprobe : Option Nat) : Except Status Unit := do
  rejectIf (topK = 0) ⟨.invalidArgument, "top_k must be greater than 0"⟩
  rejectIf (10000 < topK) ⟨.invalidArgument, "top_k exceeds maximum of 10000"⟩
  rejectIf (nprobe = some 0) ⟨.invalidArgument, "nprobe must be greater than 0"⟩

def validateQueryVector (query : List Score) : Except Status Unit := do
  rejectIf (query = []) ⟨.invalidArgument, "Query vector cannot be empty"⟩
  rejectIf (query.any fun value => !value.isFinite)
    ⟨.invalidArgument, "Query vector contains NaN or Infinity values"⟩

def compileSearchFilter (config : ServiceConfig) (filterBytes : List UInt8)
    (tagFilter : Option TagFilter) (ctx : AuthContext)
    : Except Status (Option MetadataFilter) := do
  let user ← (MetadataFilter.build config.codec filterBytes tagFilter).mapError
    (⟨.invalidArgument, ·⟩)
  pure (applyWorkspaceScope user ctx config.acl)

namespace ServiceConfig

variable (config : ServiceConfig)

def filteredSearchK (topK : Nat) (hasFilter : Bool) : Nat :=
  if !hasFilter then topK
  else
    let factor := max config.filterSettings.postfilterOverfetchFactor 1
    match config.filterSettings.mode with
    | .pre => topK
    | .post | .adaptive => max topK (min (topK * factor) (max topK 500))

/-- The group of a result: a string as it is, any other value by its JSON text. -/
def metadataGroupKey (metadata : List UInt8) (key : String) : List UInt8 :=
  if metadata = [] then []
  else match (config.codec.parse metadata).toOption with
    | none => []
    | some value => match value.get key with
      | some (.string text) => Utf8Text.bytes text
      | some other => config.codec.print other
      | none => []

end ServiceConfig

/-- Keep at most a number of results of each group, and at most `topK` in all. -/
def takeGrouped (groupOf : SearchHit → List UInt8) (perGroup : Nat)
    : Nat → List (List UInt8) → List SearchHit → List SearchHit
  | _, _, [] => []
  | topK, seen, hit :: rest =>
    if seen.count (groupOf hit) < perGroup then
      hit :: if topK ≤ 1 then []
        else takeGrouped groupOf perGroup (topK - 1) (groupOf hit :: seen) rest
    else takeGrouped groupOf perGroup topK seen rest

def aboveThreshold (results : List SearchHit) (scoreThreshold : Option Score)
    : List SearchHit :=
  match scoreThreshold with
  | some minimum => if minimum.isFinite then
      results.filter fun hit => hit.score.isFinite && hit.score.ge minimum
    else results
  | none => results

def applyScoreAndGroup (config : ServiceConfig) (results : List SearchHit) (topK : Nat)
    (scoreThreshold : Option Score) (groupBy : String) (groupSize : Option Nat)
    : List SearchHit :=
  let filtered := aboveThreshold results scoreThreshold
  let key := String.ofList (Utf8Text.trimmed groupBy)
  if key = "" then filtered.take topK
  else takeGrouped (fun hit => config.metadataGroupKey hit.metadata key)
    (max (groupSize.getD 1) 1) topK [] filtered

theorem takeGrouped_sublist (groupOf : SearchHit → List UInt8) (perGroup topK : Nat)
    (seen : List (List UInt8)) (results : List SearchHit)
    : (takeGrouped groupOf perGroup topK seen results).Sublist results := by
  induction results generalizing topK seen with
  | nil => exact .slnil
  | cons hit rest ih =>
    unfold takeGrouped
    split
    · refine .cons_cons _ ?_
      split
      · exact nil_sublist _
      · exact ih ..
    · exact .cons _ (ih ..)

theorem aboveThreshold_sublist (results : List SearchHit) (scoreThreshold : Option Score)
    : (aboveThreshold results scoreThreshold).Sublist results := by
  unfold aboveThreshold
  split
  · split
    · exact filter_sublist
    · exact .refl _
  · exact .refl _

theorem applyScoreAndGroup_sublist (config : ServiceConfig) (results : List SearchHit)
    (topK : Nat) (scoreThreshold : Option Score) (groupBy : String) (groupSize : Option Nat)
    : (applyScoreAndGroup config results topK scoreThreshold groupBy groupSize).Sublist
        results := by
  have filtered := aboveThreshold_sublist results scoreThreshold
  unfold applyScoreAndGroup
  dsimp only
  split
  · exact (take_sublist ..).trans filtered
  · exact (takeGrouped_sublist ..).trans filtered

namespace VectorService

variable (config : ServiceConfig)

variable (service : VectorService)

/-- The stored metadata of an undeleted vector, empty when there is none. -/
def loadMetadata (id : String) : List UInt8 :=
  ((service.idMapping.getVector id).map (·.metadata)).getD []

def loadMetadataValue (id : String) : Option Json :=
  match service.idMapping.getVector id with
  | some entry => if entry.metadata = [] then some .null
      else (config.codec.parse entry.metadata).toOption
  | none => none

def metadataMatchesFilter (id : String) (filter : MetadataFilter)
    : Bool :=
  (service.loadMetadataValue config id).any (filter.matches config.codec ·)

def attachMetadataPredicate (params : SearchParams)
    (metadataFilter : Option MetadataFilter) : SearchParams :=
  match metadataFilter with
  | none => params
  | some filter => { params with
      filter := some fun id => service.metadataMatchesFilter config id filter
      filterCandidateLimit := max config.filterSettings.maxPostfilterCandidates params.topK }

def searchHit (result : ScoredId) : SearchHit where
  id := result.id
  score := result.score
  metadata := service.loadMetadata result.id

/-- The parameters of a dense search for some number of candidates. -/
def denseParams (count : Nat) (nprobe : Option Nat)
    (metadataFilter : Option MetadataFilter) : SearchParams :=
  service.attachMetadataPredicate config { SearchParams.new count with nprobe := nprobe }
    metadataFilter

variable (usearch : Usearch)

variable (ctx : AuthContext)

def searchInner (request : SearchRequest)
    (service : VectorService) : Except Status SearchResponse := do
  config.validateRequestCollection request.collection
  validateSearchControls request.topK request.nprobe
  validateQueryVector request.query
  let metadataFilter ← compileSearchFilter config request.filter request.tagFilter ctx
  let searchK := config.filteredSearchK request.topK metadataFilter.isSome
  let fetchK := if Utf8Text.trimmed request.groupBy = [] then searchK
    else max (searchK * 4) searchK
  let window ← (service.index.searchWindow config.floats config.hnsw usearch request.query
    (service.denseParams config fetchK request.nprobe metadataFilter)).mapError toStatus
  let results := applyScoreAndGroup config (window.results.map service.searchHit) request.topK
    request.scoreThreshold request.groupBy request.groupSize
  pure
    { results := results
      candidateLimited := window.candidateLimited && results.length < request.topK }

theorem mem_searchInner {usearch : Usearch} {ctx : AuthContext} {request : SearchRequest}
    {service : VectorService} {response : SearchResponse} {hit : SearchHit}
    (searched : service.searchInner config usearch ctx request = .ok response)
    (member : hit ∈ response.results)
    : ∃ params breadth count found, usearch request.query breadth count = .ok found
      ∧ ∃ result ∈ service.index.windowResults config.floats config.hnsw request.query params
          found, hit = service.searchHit result := by
  simp only [searchInner, bind_eq_ok, pure_eq_ok] at searched
  obtain ⟨_, _, _, _, _, _, filter, _, window, asked, rfl⟩ := searched
  obtain ⟨result, listed, rfl⟩ := mem_map.mp ((applyScoreAndGroup_sublist ..).subset member)
  rcases HnswIndex.results_of_searchWindow (mapError_eq_ok.mp asked) with
    none | ⟨breadth, count, found, queried, same⟩
  · rw [none] at listed
    cases listed
  · exact ⟨_, breadth, count, found, queried, result, same ▸ listed, rfl⟩

def searchBatchQuery (params : SearchParams) (topK : Nat)
    (service : VectorService) (query : List Score) : Except Status SearchResponse := do
  validateQueryVector query
  let window ← (service.index.searchWindow config.floats config.hnsw usearch query
    params).mapError toStatus
  pure
    { results := window.results.map service.searchHit
      candidateLimited := window.candidateLimited && window.results.length < topK }

def searchBatchInner (request : SearchBatchRequest)
    (service : VectorService) : Except Status (List SearchResponse) := do
  config.validateRequestCollection request.collection
  validateSearchControls request.topK request.nprobe
  let metadataFilter ← compileSearchFilter config [] none ctx
  let params := service.denseParams config request.topK request.nprobe metadataFilter
  request.queries.mapM (service.searchBatchQuery config usearch params request.topK)

end VectorService

end AkiDB.Vectors
