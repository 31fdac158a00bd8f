import AkiDB.Vectors.Packing
import AkiDB.Vectors.Search

/-! Context packs of search results: passages from the document store, citations from metadata. -/

namespace AkiDB.Vectors
open AkiDB.Common AtomicBatch

structure RetrievalCitationV1 where
  chunkId : String
  documentId : String
  documentVersion : String
  sourceUri : String
  sourceVersion : String
  contentHash : String
  startOffset : Option Nat
  endOffset : Option Nat
  generationId : String
  citationStatus : String
  deriving DecidableEq

structure ContextPackItemV1 where
  chunkId : String
  text : String
  score : Score
  reason : String
  citation : RetrievalCitationV1
  deriving DecidableEq

structure ContextPackV1 where
  items : List ContextPackItemV1
  tokenBudget : Nat
  usedTokens : Nat
  truncated : Bool
  text : String
  candidateLimited : Bool
  deriving DecidableEq

def firstText (metadata : Json) (keys : List String) : Option String :=
  keys.findSome? fun key => (metadata.get key).bind Json.asStr

def metadataOffset (metadata : Json) (key : String) : Option Nat :=
  (metadata.get key).bind fun value => match value with
    | .number (.posInt value) => some value
    | .string value => parseUsize value.toList
    | _ => none

namespace VectorService

variable (config : ServiceConfig) (service : VectorService)

def citationForVector (id : String) : Citation :=
  match service.loadMetadataValue config id with
  | none => .new id
  | some metadata =>
    let sourced := Citation.new (((firstText metadata
      ["source_uri", "document_key", "file"]).filter (· ≠ "")).getD id)
    let versioned := match (firstText metadata
        ["source_version", "document_version", "doc_version", "content_hash"]).filter
        (· ≠ "") with
      | some version => sourced.withVersion version
      | none => sourced
    match metadataOffset metadata "start_offset", metadataOffset metadata "end_offset" with
    | some first, some last => versioned.withSpan first last
    | _, _ => versioned

def retrievalCitationForVector (id : String) : RetrievalCitationV1 :=
  let metadata := (service.loadMetadataValue config id).getD .null
  let text keys := (firstText metadata keys).getD ""
  let documentVersion := text ["document_version", "doc_version", "source_version"]
  let contentHash := text ["content_hash", "chunk_hash"]
  let sourceUri := text ["source_uri", "document_key", "file"]
  { chunkId := id
    documentId := text ["document_id", "doc_id"]
    documentVersion := documentVersion
    sourceUri := sourceUri
    sourceVersion :=
      if text ["source_version"] ≠ "" then text ["source_version"]
      else if documentVersion ≠ "" then documentVersion else contentHash
    contentHash := contentHash
    startOffset := ["start_offset", "offset"].findSome? (metadataOffset metadata)
    endOffset := metadataOffset metadata "end_offset"
    generationId := text ["generation_id"]
    citationStatus := if sourceUri = "" then "missing_source" else "complete" }

def matchedChunk (hit : SearchHit) : MatchedChunk where
  id := hit.id
  parentId := parentIdFromMetadata config.codec hit.metadata
  text := (service.documents[hit.id]?).getD ""
  score := hit.score

variable (results : List SearchHit)

/-- The passages of the results. A parent's text is read without a look at its metadata. -/
def packPassages : List Passage :=
  ((expandToParents (results.map (service.matchedChunk config))
    fun parent => service.documents[parent]?).filter (·.text ≠ "")).map fun passage =>
      { passage with citation := service.citationForVector config passage.id }

def packReason (graphExpandedIds : Option (List String))
    (id : String) : String :=
  if graphExpandedIds.any (·.contains id) then "graph_expansion"
  else if results.any (·.id = id) then "direct_match"
  else "parent_expansion"

def buildContextPack (graphExpandedIds : Option (List String))
    (budget : Nat) (candidateLimited : Bool) : ContextPackV1 :=
  let passages := service.packPassages config results
  let packed := pack passages (.new budget)
  { items := packed.included.filterMap fun id =>
      (passages.find? (·.id = id)).map fun passage =>
        { chunkId := id
          text := passage.text
          score := passage.score
          reason := packReason results graphExpandedIds id
          citation := service.retrievalCitationForVector config id }
    tokenBudget := budget
    usedTokens := packed.usedTokens
    truncated := !packed.dropped.isEmpty
    text := packed.text
    candidateLimited := candidateLimited }

end VectorService

end AkiDB.Vectors
