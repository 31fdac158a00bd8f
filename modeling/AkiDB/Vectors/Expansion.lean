import AkiDB.Vectors.Planner
import AkiDB.Vectors.Projection
import AkiDB.Vectors.Ranking

/-!
The graph stage of a text search: chunks near the seeds join the ranking with a decaying score.
-/

namespace AkiDB.Vectors
open AkiDB.Common AtomicBatch

def fileReferenceSuffixes : List String :=
  [".rs", ".py", ".ts", ".tsx", ".js", ".jsx", ".md", ".json", ".toml", ".yaml", ".yml",
    ".proto", ".sql", ".go", ".java", ".c", ".cc", ".cpp", ".h", ".hpp"]

/-- The punctuation around a token: quotes, comma, semicolon, question mark, brackets and such. -/
def isQueryPunctuation (char : Char) : Bool :=
  [0x22, 0x27, 0x60, 0x2C, 0x3B, 0x3F, 0x21, 0x28, 0x29, 0x5B, 0x5D, 0x7B, 0x7D, 0x3C,
    0x3E].contains char.toNat

def cleanGraphQueryToken (token : List Char) : List Char :=
  ((trimMatches isQueryPunctuation token).reverse.dropWhile [':', '.'].contains).reverse

def isAsciiDigits (text : List Char) : Bool :=
  !text.isEmpty && text.all Char.isDigit

/-- The text up to the end of the last occurrence of a nonempty text, and the rest. -/
def splitAfterLast (needle : List Char) : List Char → Option (List Char × List Char)
  | [] => none
  | char :: rest => match splitAfterLast needle rest with
    | some (before, after) => some (char :: before, after)
    | none => (stripLeading needle (char :: rest)).map (needle, ·)

def splitOnceText (needle : List Char) : List Char → Option (List Char × List Char)
  | [] => none
  | char :: rest => match stripLeading needle (char :: rest) with
    | some after => some ([], after)
    | none => (splitOnceText needle rest).map fun parts => (char :: parts.1, parts.2)

/-- A line reference such as `#L10` or `#L10-L20`. -/
def isGithubLineFragment (rest : List Char) : Bool :=
  match stripLeading "#L".toList rest with
  | none => false
  | some line => match splitOnceText "-L".toList line with
    | some (first, last) => isAsciiDigits first && isAsciiDigits last
    | none => isAsciiDigits line

/-- The file that a token names with a suffix, without a line reference after it. -/
def fileWithSuffix (token : List Char) (suffix : String) : Option (List Char) :=
  match splitAfterLast suffix.toList token with
  | none => none
  | some (file, rest) =>
    if rest = [] then some file
    else if rest.head? = some ':' ∧ (rest.tail.splitOn ':').all isAsciiDigits then some file
    else if isGithubLineFragment rest then some file else none

def looksLikeFileReference (token : List Char) : Bool :=
  token.contains '/' || fileReferenceSuffixes.any fun suffix =>
    (fileWithSuffix token suffix).isSome

def normalizeFileReference (token : List Char) : List Char :=
  (fileReferenceSuffixes.findSome? (fileWithSuffix token)).getD token

def looksLikeSymbolReference (token : List Char) : Bool :=
  containsText token "::" || endsWithText token "()"

def dropCalls : List Char → List Char
  | ')' :: '(' :: rest => dropCalls rest
  | text => text

/-- The seeds of one token: a file, a symbol, both or none. -/
def tokenSeeds (workspaceId : String) (raw : List Char) : List String :=
  let token := cleanGraphQueryToken raw
  if token = [] then []
  else
    (if looksLikeFileReference token then
      [graphNodeId workspaceId .file (String.ofList (normalizeFileReference token))] else [])
    ++ if looksLikeSymbolReference token then
      [graphNodeId workspaceId .function (String.ofList (dropCalls token.reverse).reverse)]
      else []

def graphSeedNodesFromQuery (query workspaceId : String) : List String :=
  ((splitWhitespace query.toList).flatMap (tokenSeeds workspaceId)).foldl
    (fun seeds seed => if seeds.contains seed then seeds else seeds ++ [seed]) []

def maxGraphSeeds : Nat := 16

structure GraphEdgeEvidence where
  edgeId : String
  predicate : String
  sourceUri : String
  sourceVersion : String
  evidenceChunkIds : List String
  confidence : Score

structure GraphExpansionEvidence where
  resultId : String
  seedId : String
  hop : Nat
  scoreContribution : Score
  path : List GraphEdgeEvidence

structure ExpansionSettings where
  floats : Floats
  codec : JsonCodec
  powi : Score → Nat → Score
  /-- A store that cannot be read from a node. -/
  fault : String → Option GraphError
  depth : Nat
  perSeedFanout : Nat
  maxExpandedNodes : Nat
  passes : String → Bool
  includeDiagnostics : Bool

def graphEdgeEvidence (floats : Floats) (codec : JsonCodec) (edge : GraphEdge)
    : GraphEdgeEvidence :=
  let text name := ((edge.properties.lookup name).bind Json.asStr).getD ""
  { edgeId := edge.id
    predicate := text "predicate"
    sourceUri := text "source_uri"
    sourceVersion := text "source_version"
    evidenceChunkIds := (((edge.properties.lookup "evidence_chunk_ids").bind
      Json.asArray).getD []).filterMap Json.asStr
    confidence := ((((edge.properties.lookup "confidence").bind (Json.asNumber codec)).filter
      Score.isFinite).map floats.narrow).getD .zero }

structure Expansion where
  ranked : List ScoredId
  expandedIds : List String
  evidence : List GraphExpansionEvidence
  truncated : Bool

def graphHopDecay (floats : Floats) : Score :=
  floats.single.ofRat (85 / 100)

def raiseScore (id : String) (score : Score) : List ScoredId → List ScoredId
  | [] => [⟨id, score⟩]
  | item :: rest =>
    if item.id = id then { item with score := item.score.max score } :: rest
    else item :: raiseScore id score rest

namespace ExpansionSettings

variable (settings : ExpansionSettings)

/-- One chunk near a seed. It counts as expanded even if the filter leaves it out. -/
def expandChunk (seedId : String) (seedScore : Score) (expansion : Expansion)
    (chunk : GraphIndex.RelatedChunkTrace) : Expansion :=
  let id := chunk.vectorId
  if expansion.expandedIds.contains id then expansion
  else
    let counted := { expansion with expandedIds := expansion.expandedIds ++ [id] }
    let score := settings.floats.single.mul seedScore
      (settings.powi (graphHopDecay settings.floats) chunk.hop)
    if !settings.passes id then counted
    else { counted with
      evidence := if settings.includeDiagnostics then
          counted.evidence ++ [⟨id, seedId, chunk.hop, score,
            chunk.pathEdges.map (graphEdgeEvidence settings.floats settings.codec)⟩]
        else counted.evidence
      ranked := raiseScore id score counted.ranked }

/-- The chunks near one seed. Once the budget is spent every later seed finds it spent as well. -/
def expandSeed (graph : GraphIndex) (expansion : Expansion)
    (seed : String × String × Score) : Expansion :=
  let (seedNode, seedId, seedScore) := seed
  let remaining := settings.maxExpandedNodes - expansion.expandedIds.length
  if remaining = 0 then { expansion with truncated := true }
  else match settings.fault seedNode with
    | some _ => expansion
    | none =>
      match graph.relatedChunksWithTrace
          ⟨seedNode, [], settings.depth, settings.perSeedFanout, remaining⟩ with
      | .error _ => expansion
      | .ok chunks => chunks.foldl (settings.expandChunk seedId seedScore) expansion

/-- The score of a seed that the query names: it beats the best result at the first hop. -/
def querySeedScore (ranked : List ScoredId) : Score :=
  let single := settings.floats.single
  match (ranked.map (·.score)).filter Score.isFinite with
  | [] => .finite 1
  | score :: rest => single.add (single.div (rest.foldl Score.max score)
      (graphHopDecay settings.floats)) (single.ofRat (1 / 10000))

def expandRanking (graph : GraphIndex) (query workspaceId : String) (ranked : List ScoredId)
    : Expansion :=
  let querySeeds := ((graphSeedNodesFromQuery query workspaceId).take maxGraphSeeds).map
    fun seed => (seed, seed, settings.querySeedScore ranked)
  let resultSeeds := (ranked.take maxGraphSeeds).map fun item =>
    (chunkNodeId workspaceId item.id, item.id, item.score)
  let expansion := (querySeeds ++ resultSeeds).foldl (settings.expandSeed graph)
    ⟨ranked, [], [], false⟩
  { expansion with
    ranked := sortRanked expansion.ranked
    truncated := expansion.truncated
      || decide (settings.maxExpandedNodes ≤ expansion.expandedIds.length) }

end ExpansionSettings

end AkiDB.Vectors
