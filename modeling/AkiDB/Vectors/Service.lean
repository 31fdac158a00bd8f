import AkiDB.Vectors.IdMapping
import AkiDB.Vectors.Lexical
import AkiDB.Vectors.Projection

/-!
The write side of the vector service: a request is a sequence of steps, each of which can fail.
-/

namespace AkiDB.Vectors
open AkiDB.Common AtomicBatch Checked

inductive StatusCode where
  | invalidArgument
  | notFound
  | alreadyExists
  | failedPrecondition
  | resourceExhausted
  | unavailable
  | deadlineExceeded
  | aborted
  | internal
  deriving DecidableEq

structure Status where
  code : StatusCode
  message : String
  deriving DecidableEq

def toStatus (error : AkiDbError) : Status where
  code := match error with
    | .vectorNotFound _ => .notFound
    | .vectorAlreadyExists _ => .alreadyExists
    | .dimensionMismatch _ _ => .invalidArgument
    | .invalidParameter _ => .invalidArgument
    | .idReuseForbidden _ => .failedPrecondition
    | .gpuOutOfMemory => .resourceExhausted
    | .rebuildInProgress => .unavailable
    | .timeout _ => .deadlineExceeded
    | _ => .internal
  message := error.display

inductive FilterMode where
  | pre
  | post
  | adaptive
  deriving DecidableEq

structure FilterSettings where
  mode : FilterMode
  postfilterOverfetchFactor : Nat
  maxPostfilterCandidates : Nat

structure ServiceConfig where
  collection : String
  registeredCollections : List String
  acl : AclConfig
  filterSettings : FilterSettings
  embeddingModelId : Option String
  hnsw : HnswConfig
  codec : JsonCodec
  floats : Floats
  unicode : UnicodeText

structure SqlMetadataRecord where
  internalId : Nat
  metadata : Json
  updatedAtMs : Nat

structure VectorService where
  index : HnswIndex
  idMapping : IdMapping
  lexical : Bm25Index
  documents : KeyValueMap String String
  graphIndex : Option GraphIndex
  metadataSqlIndex : Option (KeyValueMap String SqlMetadataRecord)

/-- A service before its first request, with or without the optional indexes. -/
def VectorService.blank (graph sql : Bool) : VectorService where
  index := .empty
  idMapping := .empty
  lexical := .empty
  documents := ∅
  graphIndex := if graph then some .empty else none
  metadataSqlIndex := if sql then some ∅ else none

/-- What happens to the steps of one write: the clock and the steps that fail. -/
structure WriteFaults where
  nowMs : Nat := 0
  /-- A read of the durable mapping before the first write. -/
  reading : Option AkiDbError := none
  usearch : UsearchFaults := {}
  /-- The batch of the durable mapping. -/
  durable : Option AkiDbError := none
  /-- The compensating deletion in the index. -/
  rollback : Option AkiDbError := none
  /-- The deletion of the vector in the index, or of the one that was replaced. -/
  deletion : Option AkiDbError := none
  graph : Option GraphError := none
  sql : Bool := false

def metadataValueFromBytes (codec : JsonCodec) (metadata : List UInt8) : Json :=
  if metadata = [] then .null else ((codec.parse metadata).toOption).getD .null

def validateMetadataJson (codec : JsonCodec) (metadata : List UInt8) : Except String Unit :=
  if metadata = [] then .ok ()
  else ((codec.parse metadata).map fun _ => ()).mapError fun error =>
    s!"Metadata must be valid JSON: {error}"

def validateVectorId (id : String) : Except String Unit := do
  rejectIf (id = "") "Vector ID cannot be empty"
  rejectIf (1024 < id.utf8ByteSize) "Vector ID exceeds maximum length of 1024"

def validateVectorPayload (id : String) (vector : List Score) : Except String Unit := do
  validateVectorId id
  rejectIf (vector.any fun value => !value.isFinite) "Vector contains NaN or Infinity values"
  rejectIf (vector = []) "Vector cannot be empty"

namespace ServiceConfig

variable (config : ServiceConfig)

def validateRequestCollection (collection : String) : Except Status Unit := do
  rejectIf (collection = "") ⟨.invalidArgument, "collection cannot be empty"⟩
  if collection = config.collection then pure ()
  else if config.registeredCollections.contains collection then
    .error ⟨.failedPrecondition, s!"collection '{collection}' is registered but not the "
      ++ s!"active shard collection '{config.collection}'"⟩
  else
    .error ⟨.invalidArgument, s!"collection '{collection}' does not match shard collection "
      ++ s!"'{config.collection}'"⟩

def metadataInAuthWorkspace (metadata : List UInt8) (ctx : AuthContext) : Bool :=
  !config.acl.enforceWorkspace
    || metadataInWorkspace (metadataValueFromBytes config.codec metadata) ctx.workspaceId

end ServiceConfig

namespace VectorService

def ensureExistingVectorAccess (config : ServiceConfig) (service : VectorService)
    (vectorId : String) (ctx : AuthContext) : Except Status (Option (List UInt8)) := do
  let metadata := (service.idMapping.getVectorIncludingDeleted vectorId).map (·.metadata)
  rejectIf (metadata.any fun metadata => !config.metadataInAuthWorkspace metadata ctx)
    ⟨.notFound, s!"Vector not found: {vectorId}"⟩
  pure metadata

def ensureInsertDoesNotCrossWorkspace (config : ServiceConfig) (service : VectorService)
    (vectorId : String) (ctx : AuthContext) : Except Status (Option (List UInt8)) := do
  let metadata := (service.idMapping.getVectorIncludingDeleted vectorId).map (·.metadata)
  rejectIf (metadata.any fun metadata => !config.metadataInAuthWorkspace metadata ctx)
    ⟨.alreadyExists, s!"Vector id already exists: {vectorId}"⟩
  pure metadata

end VectorService

/-- What a write carries from its checks to its last step. An update has no text. -/
structure PendingWrite where
  id : String
  vector : List Score
  metadata : List UInt8
  text : Option String
  oldMetadata : Option (List UInt8)
  oldInternalId : Option Nat

structure InsertRequest where
  collection : String
  id : String
  vector : List Score
  metadata : List UInt8
  text : String

structure UpdateRequest where
  collection : String
  id : String
  vector : List Score
  metadata : List UInt8

structure DeleteRequest where
  collection : String
  id : String

structure BatchItem where
  id : String
  embedding : List Score
  metadata : List UInt8
  text : String

/-- A read that fails ends the request before it wrote anything. -/
def readable (faults : WriteFaults) : Except Status Unit :=
  match faults.reading with
  | some error => .error (toStatus error)
  | none => .ok ()

namespace VectorService

variable (config : ServiceConfig)

variable (ctx : AuthContext)

def stampInsert (id : String) (vector : List Score)
    (metadata : List UInt8) : Except Status (List UInt8) := do
  (validateVectorPayload id vector).mapError (⟨.invalidArgument, ·⟩)
  (validateMetadataJson config.codec metadata).mapError (⟨.invalidArgument, ·⟩)
  (stampWriteMetadata config.codec metadata ctx config.acl config.embeddingModelId).mapError
    (⟨.invalidArgument, ·⟩)

variable (faults : WriteFaults)

def admitInsert (service : VectorService)
    (id : String) (vector : List Score) (stamped : List UInt8) (text : String)
    : Except Status PendingWrite := do
  readable faults
  let oldMetadata ← service.ensureInsertDoesNotCrossWorkspace config id ctx
  rejectIf (service.idMapping.isDeleted id) ⟨.failedPrecondition,
    s!"ID reuse is forbidden for soft-deleted vector: {id}"⟩
  pure
    { id := id
      vector := vector
      metadata := stamped
      text := some text
      oldMetadata := oldMetadata
      oldInternalId := service.idMapping.getInternalId id }

/-- The checks of an update under the lock of its id; a deleted id is not turned away. -/
def admitUpdate (service : VectorService)
    (id : String) (vector : List Score) (stamped : List UInt8)
    : Except Status PendingWrite := do
  readable faults
  let _ ← service.ensureExistingVectorAccess config id ctx
  pure
    { id := id
      vector := vector
      metadata := stamped
      text := none
      oldMetadata := (service.idMapping.getVector id).map (·.metadata)
      oldInternalId := service.idMapping.getInternalId id }

def insertIndex (write : PendingWrite) (service : VectorService)
    : Except AkiDbError Nat × VectorService :=
  let inserted := service.index.insert config.hnsw faults.usearch write.id write.vector
  (inserted.1, { service with index := inserted.2 })

def persist (write : PendingWrite) (internalId : Nat)
    (service : VectorService) : Except AkiDbError VectorService :=
  (service.idMapping.upsertWithVectorAndText faults.durable write.id internalId write.vector
    write.metadata write.text).map fun mapping => { service with idMapping := mapping }

/-- Tombstone an internal id; a failure is logged only. -/
def deleteQuietly (fault : Option AkiDbError) (internalId : Nat) (service : VectorService)
    : VectorService :=
  { service with index := (service.index.delete internalId fault).2 }

def removeReplaced (write : PendingWrite) (internalId : Nat)
    (service : VectorService) : VectorService :=
  match write.oldInternalId with
  | some oldId =>
    if oldId ≠ internalId then service.deleteQuietly faults.deletion oldId else service
  | none => service

def syncLexical (id text : String) (service : VectorService) : VectorService :=
  { service with lexical := if text = "" then service.lexical.remove id
      else service.lexical.insert config.unicode id text }

def syncDocuments (id text : String) (service : VectorService) : VectorService :=
  { service with documents := if text = "" then service.documents.erase id
      else service.documents.insert id text }

def syncSourceText (id text : String) (service : VectorService) : VectorService :=
  (service.syncLexical config id text).syncDocuments id text

def projectGraph (write : PendingWrite) (service : VectorService)
    : Except Status VectorService :=
  ((indexGraphChunk config.codec service.graphIndex faults.graph write.id write.metadata
    write.oldMetadata).map fun graph => { service with graphIndex := graph }).mapError
    fun error => ⟨.internal, s!"graph projection failed: {error.display}"⟩

/-- Mirror the metadata; a failure is logged only. -/
def indexSqlMetadata (write : PendingWrite) (internalId : Nat)
    (service : VectorService) : VectorService :=
  let record : SqlMetadataRecord :=
    ⟨internalId, metadataValueFromBytes config.codec write.metadata, faults.nowMs⟩
  if faults.sql then service
  else { service with
    metadataSqlIndex := service.metadataSqlIndex.map (·.insert write.id record) }

/-- The steps of a write after its durable batch. An update has no text and fills the mirror
first. -/
def finishWrite (write : PendingWrite) (internalId : Nat)
    (service : VectorService) : Except Status Nat × VectorService :=
  let service := service.removeReplaced faults write internalId
  match write.text with
  | some text =>
    let service := service.syncSourceText config write.id text
    match service.projectGraph config faults write with
    | .error status => (.error status, service)
    | .ok service => (.ok internalId, service.indexSqlMetadata config faults write internalId)
  | none =>
    let service := service.indexSqlMetadata config faults write internalId
    match service.projectGraph config faults write with
    | .error status => (.error status, service)
    | .ok service => (.ok internalId, service)

/-- The steps of an admitted write; a failed batch is compensated by a deletion in the index. -/
def writeVector (write : PendingWrite) (service : VectorService)
    : Except Status Nat × VectorService :=
  match service.insertIndex config faults write with
  | (.error error, service) => (.error (toStatus error), service)
  | (.ok internalId, service) =>
    match service.persist faults write internalId with
    | .error error =>
      (.error (toStatus error), service.deleteQuietly faults.rollback internalId)
    | .ok service => service.finishWrite config faults write internalId

def admitInsertRequest (request : InsertRequest)
    (service : VectorService) : Except Status PendingWrite := do
  config.validateRequestCollection request.collection
  let stamped ← stampInsert config ctx request.id request.vector request.metadata
  service.admitInsert config ctx faults request.id request.vector stamped request.text

/-- Insert a vector; the response carries its internal id. -/
def insertInner (request : InsertRequest)
    (service : VectorService) : Except Status Nat × VectorService :=
  match service.admitInsertRequest config ctx faults request with
  | .error status => (.error status, service)
  | .ok write => service.writeVector config faults write

inductive UpdateStatus where
  | updated
  | created
  deriving DecidableEq

def admitUpdateRequest (request : UpdateRequest)
    (service : VectorService) : Except Status PendingWrite := do
  config.validateRequestCollection request.collection
  let stamped ← stampInsert config ctx request.id request.vector request.metadata
  service.admitUpdate config ctx faults request.id request.vector stamped

def updateInner (request : UpdateRequest)
    (service : VectorService) : Except Status UpdateStatus × VectorService :=
  match service.admitUpdateRequest config ctx faults request with
  | .error status => (.error status, service)
  | .ok write =>
    let written := service.writeVector config faults write
    (written.1.map fun _ => if write.oldInternalId.isSome then .updated else .created, written.2)

def admitBatchItem (item : BatchItem)
    (service : VectorService) : Except Status PendingWrite := do
  let stamped ← stampInsert config ctx item.id item.embedding item.metadata
  service.admitInsert config ctx faults item.id item.embedding stamped item.text

def insertBatchItem (item : BatchItem)
    (service : VectorService) : Except Status Nat × VectorService :=
  match service.admitBatchItem config ctx faults item with
  | .error status => (.error status, service)
  | .ok write => service.writeVector config faults write

inductive DeleteStatus where
  | deleted
  | alreadyDeleted
  | notFound
  deriving DecidableEq

def admitDelete (service : VectorService)
    (id : String) : Except Status (Option (List UInt8)) := do
  readable faults
  service.ensureExistingVectorAccess config id ctx

def unprojectGraph (id : String) (metadata : Option (List UInt8))
    (service : VectorService) : Except Status VectorService :=
  match metadata with
  | none => .ok service
  | some metadata =>
    ((deleteGraphChunk config.codec service.graphIndex faults.graph id metadata).map
      fun graph => { service with graphIndex := graph }).mapError
      fun error => ⟨.internal, s!"graph deletion failed: {error.display}"⟩

def markDeleted (faults : WriteFaults) (id : String) (service : VectorService)
    : Except AkiDbError (Option Nat × VectorService) :=
  (service.idMapping.markDeleted faults.durable id).map fun marked =>
    (marked.1, { service with idMapping := marked.2 })

def deleteIndex (internalId : Nat) (service : VectorService)
    : Except AkiDbError VectorService :=
  match service.index.delete internalId faults.deletion with
  | (.error error, _) => .error error
  | (.ok (), index) => .ok { service with index := index }

def dropLexical (id : String) (service : VectorService) : VectorService :=
  { service with lexical := service.lexical.remove id }

def dropDocuments (id : String) (service : VectorService) : VectorService :=
  { service with documents := service.documents.erase id }

def deleteSqlMetadata (id : String) (service : VectorService)
    : VectorService :=
  if faults.sql then service
  else { service with metadataSqlIndex := service.metadataSqlIndex.map (·.erase id) }

/-- The steps of an admitted deletion. -/
def deleteVector (id : String) (metadata : Option (List UInt8))
    (service : VectorService) : Except Status DeleteStatus × VectorService :=
  match service.unprojectGraph config faults id metadata with
  | .error status => (.error status, service)
  | .ok service => match service.markDeleted faults id with
    | .error error => (.error (toStatus error), service)
    | .ok (some internalId, service) => match service.deleteIndex faults internalId with
      | .error error => (.error (toStatus error), service)
      | .ok service => (.ok .deleted,
          ((service.dropLexical id).dropDocuments id).deleteSqlMetadata faults id)
    | .ok (none, service) =>
      (.ok (if service.idMapping.exists id then .alreadyDeleted else .notFound), service)

def admitDeleteRequest (request : DeleteRequest)
    (service : VectorService) : Except Status (Option (List UInt8)) := do
  config.validateRequestCollection request.collection
  (validateVectorId request.id).mapError (⟨.invalidArgument, ·⟩)
  service.admitDelete config ctx faults request.id

def deleteInner (request : DeleteRequest)
    (service : VectorService) : Except Status DeleteStatus × VectorService :=
  match service.admitDeleteRequest config ctx faults request with
  | .error status => (.error status, service)
  | .ok metadata => service.deleteVector config faults request.id metadata

end VectorService

def JsonCodec.ofTable (values : List Json) : JsonCodec where
  parse bytes := match bytes with
    | [place] => okOr values[place.toNat]? "unknown value"
    | _ => .error "unknown value"
  print value := [UInt8.ofNat (values.findIdx (·.equal value))]
  asF64 number := match number with
    | .posInt value => .finite value
    | .negInt value => .finite value
    | .float value => value

/-- A configuration that can be evaluated: one dimension, and the metadata of a table. -/
def ServiceConfig.small (enforceWorkspace : Bool) (metadata : List Json) : ServiceConfig where
  collection := "c"
  registeredCollections := []
  acl := ⟨enforceWorkspace⟩
  filterSettings := ⟨.adaptive, 4, 16384⟩
  embeddingModelId := none
  hnsw :=
    { dimensions := 1
      efSearch := 1
      precision := .f32
      metric := .innerProduct
      quantize := id }
  codec := .ofTable metadata
  floats := ⟨.exact, .exact, id⟩
  unicode :=
    { isAlphanumeric := Char.isAlphanum
      isUppercase := Char.isUpper
      isLowercase := Char.isLower
      isNumeric := Char.isDigit
      toLowercase := id }

end AkiDB.Vectors
