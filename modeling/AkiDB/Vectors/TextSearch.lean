import AkiDB.Vectors.ContextPacks
import AkiDB.Vectors.Expansion
import AkiDB.Vectors.SqlMetadata

/-! Text search from retrieval to the context pack, or a structured query of the metadata mirror. -/

namespace AkiDB.Vectors
open AkiDB.Common AtomicBatch Checked

structure TextSearchRequest where
  collection : String
  text : String
  topK : Nat
  nprobe : Option Nat := none
  hybrid : Bool := false
  denseWeight : Option Score := none
  lexicalWeight : Option Score := none
  pack : Bool := false
  packTokenBudget : Option Nat := none
  rerank : Bool := false
  diversity : Bool := false
  mmrLambda : Option Score := none
  filter : List UInt8 := []
  tagFilter : Option TagFilter := none
  retrievalMode : String := ""
  scoreThreshold : Option Score := none
  groupBy : String := ""
  groupSize : Option Nat := none
  graphMaxDepth : Option Nat := none
  graphPerSeedFanout : Option Nat := none
  graphMaxExpandedNodes : Option Nat := none
  includeDiagnostics : Bool := false

structure RetrievalDiagnostics where
  requestedMode : String
  resolvedMode : String
  plannerReasons : List String
  denseCandidates : Nat
  lexicalCandidates : Nat
  filteredCandidates : Nat
  filterApplied : Bool
  rerankApplied : Bool
  diversityApplied : Bool
  graphDepth : Nat
  graphPerSeedFanout : Nat
  graphMaxExpandedNodes : Nat
  graphExpandedNodes : Nat
  graphTruncated : Bool
  graphHopDecay : Score
  graphExpansions : List GraphExpansionEvidence

structure TextSearchResponse where
  results : List SearchHit
  isPartial : Bool
  coverage : Score
  contextPack : Option ContextPackV1
  diagnostics : Option RetrievalDiagnostics
  candidateLimited : Bool

/-- What a text search reads besides the service. -/
structure SearchBackends where
  usearch : Usearch
  embeddingProvider : Option (String → Except String (List Score))
  powi : Score → Nat → Score
  graphFault : String → Option GraphError
  sql : SqlBackend

def validatePositiveFiniteOption (name : String) (value : Option Score)
    : Except Status Unit :=
  rejectIf (value.any fun value => !(value.isFinite && value.gt .zero))
    ⟨.invalidArgument, s!"{name} must be finite and greater than 0"⟩

def validateLimitOption (name : String) (maximum : Nat) (value : Option Nat)
    : Except Status Unit :=
  rejectIf (value.any fun value => value = 0 || maximum < value)
    ⟨.invalidArgument, s!"{name} must be between 1 and {maximum}"⟩

def validateTextSearchOptions (request : TextSearchRequest) : Except Status Unit := do
  validatePositiveFiniteOption "dense_weight" request.denseWeight
  validatePositiveFiniteOption "lexical_weight" request.lexicalWeight
  rejectIf (request.pack ∧ request.packTokenBudget = some 0) ⟨.invalidArgument,
    "pack_token_budget must be greater than 0 when pack is enabled"⟩
  rejectIf (request.pack ∧ request.packTokenBudget.any (100000 < ·)) ⟨.invalidArgument,
    "pack_token_budget exceeds maximum of 100000"⟩
  rejectIf (request.mmrLambda.any fun lambda =>
      !(lambda.isFinite && lambda.ge .zero && (Score.finite 1).ge lambda))
    ⟨.invalidArgument, "mmr_lambda must be finite and between 0 and 1"⟩
  validateLimitOption "graph_max_depth" 3 request.graphMaxDepth
  validateLimitOption "graph_per_seed_fanout" 256 request.graphPerSeedFanout
  validateLimitOption "graph_max_expanded_nodes" 1024 request.graphMaxExpandedNodes

def validateEmbeddingVector (vector : List Score) : Except Status Unit := do
  rejectIf (vector = []) ⟨.internal,
    "Embedding provider returned invalid query vector: vector cannot be empty"⟩
  rejectIf (vector.any fun value => !value.isFinite) ⟨.internal,
    "Embedding provider returned invalid query vector: contains NaN or Infinity"⟩

def requestedTextRetrievalMode (request : TextSearchRequest)
    : Except Status (Option RetrievalMode) :=
  let mode := String.ofList ((Utf8Text.trimmed request.retrievalMode).map Char.toLower)
  if mode = "" then .ok (if request.hybrid then none else some .vector)
  else if mode = "auto" then .ok none
  else if mode = "vector" ∨ mode = "dense" then .ok (some .vector)
  else if ["bm25", "lexical", "full_text", "full-text"].contains mode then .ok (some .bm25)
  else if mode = "hybrid" then .ok (some .hybrid)
  else if mode = "graph" then .ok (some .graph)
  else if mode = "graph_hybrid" ∨ mode = "graph-hybrid" then .ok (some .graphHybrid)
  else if ["sql", "structured_sql", "structured-sql"].contains mode then
    .ok (some .structuredSql)
  else .error ⟨.invalidArgument, s!"invalid retrieval_mode '{request.retrievalMode}'; "
    ++ "expected auto, vector, bm25, hybrid, graph, graph_hybrid, sql, structured_sql, "
    ++ "or structured-sql"⟩

structure TextSearchPlan where
  metadataFilter : Option MetadataFilter
  requestedMode : Option RetrievalMode
  trace : PlannerTrace

def planTextSearch (config : ServiceConfig) (ctx : AuthContext)
    (request : TextSearchRequest) : Except Status TextSearchPlan := do
  rejectIf (Utf8Text.trimmed request.text = []) ⟨.invalidArgument, "Text cannot be empty"⟩
  config.validateRequestCollection request.collection
  validateSearchControls request.topK request.nprobe
  validateTextSearchOptions request
  let metadataFilter ← compileSearchFilter config request.filter request.tagFilter ctx
  let requestedMode ← requestedTextRetrievalMode request
  pure
    { metadataFilter := metadataFilter
      requestedMode := requestedMode
      trace := planQuery config.unicode
        ⟨request.text, requestedMode, metadataFilter.isSome, request.pack⟩ }

namespace TextSearchPlan

variable (plan : TextSearchPlan)

def useDense : Bool :=
  plan.trace.vectorWeight.gt .zero

def useLexical : Bool :=
  plan.trace.lexicalWeight.gt .zero

/-- The size of the candidate pool: later stages that reorder need room. -/
def searchK (config : ServiceConfig) (request : TextSearchRequest) : Nat :=
  let needsPool := (plan.useDense && plan.useLexical) || request.rerank || request.diversity
  config.filteredSearchK
    (if needsPool then max request.topK (min (request.topK * 4) (max request.topK 200))
      else request.topK)
    plan.metadataFilter.isSome

def graphDepth (request : TextSearchRequest) : Nat :=
  request.graphMaxDepth.getD (max plan.trace.graphDepth 1)

end TextSearchPlan

namespace TextSearchRequest

def graphFanout (request : TextSearchRequest) : Nat :=
  request.graphPerSeedFanout.getD 16

def graphNodeBudget (request : TextSearchRequest) : Nat :=
  request.graphMaxExpandedNodes.getD 64

end TextSearchRequest

namespace VectorService

section Stages

variable (config : ServiceConfig) (backends : SearchBackends) (plan : TextSearchPlan)
  (request : TextSearchRequest) (service : VectorService)

/-- Dense candidates with finite scores, and whether the scan was capped. -/
def denseStage : Except Status SearchWindow :=
  if !plan.useDense then .ok ⟨[], false⟩
  else do
    let provider ← okOr backends.embeddingProvider ⟨.unavailable,
      "TextSearch vector retrieval requires an embedding provider to be configured"⟩
    let queryVector ← (provider request.text).mapError fun error =>
      ⟨.internal, s!"Embedding generation failed: {error}"⟩
    validateEmbeddingVector queryVector
    let window ← (service.index.searchWindow config.floats config.hnsw backends.usearch
      queryVector (service.denseParams config (plan.searchK config request) request.nprobe
        plan.metadataFilter)).mapError toStatus
    pure ⟨window.results.filter (·.score.isFinite), window.candidateLimited⟩

def lexicalStage : List ScoredId :=
  if !plan.useLexical then []
  else
    let searchK := plan.searchK config request
    service.lexical.search config.floats config.unicode request.text
      (if plan.metadataFilter.isSome then max service.lexical.len searchK else searchK)

/-- Dense and lexical candidates; a dense hit without a positive score needs a lexical one. -/
def baseRanking (dense lexical : List ScoredId) : List ScoredId :=
  if plan.useDense && plan.useLexical && !lexical.isEmpty then
    HybridFuser.fuse config.floats (request.denseWeight.getD plan.trace.vectorWeight)
      (request.lexicalWeight.getD plan.trace.lexicalWeight)
      (dense.filter fun hit => hit.score.gt .zero || lexical.any (·.id = hit.id)) lexical
      (plan.searchK config request)
  else if plan.useLexical && !lexical.isEmpty then lexical
  else dense

def passesFilter (id : String) : Bool :=
  plan.metadataFilter.all fun filter => service.metadataMatchesFilter config id filter

def expansionSettings : ExpansionSettings where
  floats := config.floats
  codec := config.codec
  powi := backends.powi
  fault := backends.graphFault
  depth := plan.graphDepth request
  perSeedFanout := request.graphFanout
  maxExpandedNodes := request.graphNodeBudget
  passes := service.passesFilter config plan
  includeDiagnostics := request.includeDiagnostics

variable (ctx : AuthContext)

def graphStage (ranked : List ScoredId) : Expansion :=
  match service.graphIndex with
  | some graph =>
    if plan.trace.graphEnabled then
      (service.expansionSettings config backends plan request).expandRanking graph
        request.text ctx.workspaceId ranked
    else ⟨ranked, [], [], false⟩
  | none => ⟨ranked, [], [], false⟩

def rerankStage (ranked : List ScoredId) : List ScoredId :=
  if request.rerank then
    LexicalOverlapReranker.rerank config.floats config.unicode request.text
      (ranked.map fun item => ⟨item.id, (service.documents[item.id]?).getD "", item.score⟩)
  else ranked

def mmrItems (ranked : List ScoredId) : List MmrItem :=
  ranked.filterMap fun item => (service.idMapping.getVector item.id).map fun entry =>
    ⟨item.id, item.score, entry.vector⟩

def diversityStage (ranked : List ScoredId) : List ScoredId :=
  let items := service.mmrItems ranked
  if request.diversity ∧ items ≠ [] then
    mmr config.floats items (request.mmrLambda.getD (.finite (1 / 2))) ranked.length
  else ranked

def poolCap : Nat :=
  max (max (request.topK * 8) request.topK)
    (if plan.trace.graphEnabled then request.topK + request.graphNodeBudget
      else request.topK)

def scoreAndGroup (results : List SearchHit) (topK : Nat) : List SearchHit :=
  applyScoreAndGroup config results topK request.scoreThreshold request.groupBy request.groupSize

def rankedHits (expansion : Expansion) : List SearchHit :=
  ((service.diversityStage config request (service.rerankStage config request
    expansion.ranked)).take (poolCap plan request)).map service.searchHit

/-- The results that may enter the pack: those of the response and expanded ones. -/
def packCandidates (expansion : Expansion) (results : List SearchHit) : List SearchHit :=
  scoreAndGroup config request ((service.rankedHits config plan request expansion).filter fun hit =>
      results.any (·.id = hit.id) || expansion.expandedIds.contains hit.id)
    (poolCap plan request)

def diagnosticsOf (window : SearchWindow) (lexical ranked filtered : List ScoredId)
    (expansion : Expansion) (results packed : List SearchHit) : RetrievalDiagnostics where
  requestedMode := (plan.requestedMode.map RetrievalMode.name).getD "auto"
  resolvedMode := plan.trace.mode.name
  plannerReasons := plan.trace.reasons
  denseCandidates := window.results.length
  lexicalCandidates := lexical.length
  filteredCandidates := ranked.length - filtered.length
  filterApplied := plan.metadataFilter.isSome
  rerankApplied := request.rerank
  diversityApplied := request.diversity
  graphDepth := if plan.trace.graphEnabled then plan.graphDepth request else 0
  graphPerSeedFanout := if plan.trace.graphEnabled then request.graphFanout else 0
  graphMaxExpandedNodes := if plan.trace.graphEnabled then request.graphNodeBudget else 0
  graphExpandedNodes := expansion.expandedIds.length
  graphTruncated := expansion.truncated
  graphHopDecay := if plan.trace.graphEnabled then Vectors.graphHopDecay config.floats
    else .zero
  graphExpansions := expansion.evidence.filter fun evidence =>
    (results ++ packed).any (·.id = evidence.resultId)

/-- The retrieval modes other than the structured one. -/
def rankedTextSearch : Except Status TextSearchResponse := do
  let dense ← service.denseStage config backends plan request
  let lexical := service.lexicalStage config plan request
  let ranked := baseRanking config plan request dense.results lexical
  let filtered := ranked.filter fun item => service.passesFilter config plan item.id
  let expansion := service.graphStage config backends plan request ctx filtered
  let results := scoreAndGroup config request
    (service.rankedHits config plan request expansion) request.topK
  let candidateLimited := dense.candidateLimited && results.length < request.topK
  let packed := if request.pack then
    service.packCandidates config plan request expansion results else []
  pure
    { results := results
      isPartial := false
      coverage := .finite 1
      contextPack := if request.pack then some (service.buildContextPack config packed
        (some expansion.expandedIds) (request.packTokenBudget.getD 1024) candidateLimited)
        else none
      diagnostics := if request.includeDiagnostics then some (diagnosticsOf config plan request
        dense lexical ranked filtered expansion results packed) else none
      candidateLimited := candidateLimited }

def hasTagFilter : Bool :=
  match request.tagFilter with
  | none | some .empty => false
  | some _ => true

def sqlDiagnostics : RetrievalDiagnostics where
  requestedMode := RetrievalMode.structuredSql.name
  resolvedMode := RetrievalMode.structuredSql.name
  plannerReasons := ["structured SQL retrieval requested"]
  denseCandidates := 0
  lexicalCandidates := 0
  filteredCandidates := 0
  filterApplied := plan.metadataFilter.isSome
  rerankApplied := false
  diversityApplied := false
  graphDepth := 0
  graphPerSeedFanout := 0
  graphMaxExpandedNodes := 0
  graphExpandedNodes := 0
  graphTruncated := false
  graphHopDecay := .zero
  graphExpansions := []

def sqlNeedsPostFilter : Except Status Bool := do
  let legacy ← legacyFilterNeedsPostFilter config.codec request.filter
  pure (hasTagFilter request || legacy
    || (config.acl.enforceWorkspace && ctx.workspaceId = "default"))

def sqlLimit (needsPostFilter : Bool) : Nat :=
  if needsPostFilter then
    max 1000 (min (request.topK * max config.filterSettings.postfilterOverfetchFactor 1) 100000)
  else request.topK

/-- The query of a request; a workspace other than the default one is part of it. -/
def sqlQuery (limit : Nat) : Except Status MetadataQuery := do
  let query ← sqlQueryFromLegacyFilter config.codec config.collection request.filter limit
  pure (if config.acl.enforceWorkspace ∧ ctx.workspaceId ≠ "default" then
    { query with predicates := query.predicates
        ++ [.eq workspaceKey (.string ctx.workspaceId)] }
    else query)

/-- Rows of the mirror that pass the filter, with one score, without threshold or groups. -/
def sqlMetadataTextSearch : Except Status TextSearchResponse := do
  let rows ← okOr service.metadataSqlIndex ⟨.unavailable,
    "Structured SQL retrieval requires the optional SQL metadata adapter"⟩
  let needsPostFilter ← sqlNeedsPostFilter config request ctx
  let limit := sqlLimit config request needsPostFilter
  let query ← sqlQuery config request ctx limit
  let ids ← (queryIds config.codec backends.sql query rows).mapError fun error =>
    ⟨.internal, s!"SQL metadata retrieval failed: {error}"⟩
  let candidateCapReached := needsPostFilter && ids.length = limit
  let results := (((ids.filter fun id => service.passesFilter config plan id).map fun id =>
    (⟨id, .finite 1, service.loadMetadata id⟩ : SearchHit))).take request.topK
  let candidateLimited := candidateCapReached && results.length < request.topK
  pure
    { results := results
      isPartial := candidateCapReached
      coverage := if candidateCapReached then .zero else .finite 1
      contextPack := if request.pack then some (service.buildContextPack config results none
        (request.packTokenBudget.getD 1024) candidateLimited) else none
      diagnostics := if request.includeDiagnostics then some (sqlDiagnostics plan) else none
      candidateLimited := candidateLimited }

end Stages

def textSearchInner (config : ServiceConfig) (backends : SearchBackends) (ctx : AuthContext)
    (request : TextSearchRequest) (service : VectorService)
    : Except Status TextSearchResponse := do
  let plan ← planTextSearch config ctx request
  if plan.trace.mode = .structuredSql then
    service.sqlMetadataTextSearch config backends plan request ctx
  else service.rankedTextSearch config backends plan request ctx

end VectorService

end AkiDB.Vectors
