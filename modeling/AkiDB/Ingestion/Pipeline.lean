import AkiDB.Ingestion.CircuitBreaker
import AkiDB.Ingestion.Delivery
import AkiDB.Ingestion.Idempotency
import AkiDB.Library.Effects

/-! The ingestion of upload messages. The mark against duplicates is set before the work. -/

namespace AkiDB.Ingestion
open Effects

structure VectorInsert where
  id : String
  embedding : List UInt32
  text : String
deriving DecidableEq

structure InsertBatchResponse where
  success : Bool
  insertedCount : Nat
  failedIds : List String

structure BatchInsertResult where
  total : Nat
  successful : Nat
  failed : Nat

def checkFailedIds (inputIds : List String) : List String → List String → Except IngestionError Nat
  | seen, [] => .ok seen.length
  | seen, id :: rest =>
    if ¬inputIds.contains id then
      .error (.storage ("Invalid insert response: failed id '" ++ id ++ "' was not in the request"))
    else if seen.contains id then
      .error (.storage ("Invalid insert response: duplicate failed id '" ++ id ++ "'"))
    else checkFailedIds inputIds (id :: seen) rest

def buildBatchInsertResult (vectors : List VectorInsert) (response : InsertBatchResponse)
    : Except IngestionError BatchInsertResult := do
  let total := vectors.length
  let successful := response.insertedCount
  if total < successful then
    throw (.storage ("Invalid insert response: inserted_count " ++ toString successful
      ++ " exceeds request total " ++ toString total))
  let failed ← checkFailedIds (vectors.map (·.id)) [] response.failedIds
  if successful + failed ≠ total then
    throw (.storage ("Invalid insert response: inserted_count " ++ toString successful
      ++ " + failed_count " ++ toString failed ++ " != request total " ++ toString total))
  if response.success ≠ (failed == 0) then
    throw (.storage ("Invalid insert response: success flag " ++ toString response.success
      ++ " is inconsistent with failed_count " ++ toString failed))
  return { total, successful, failed }

def insertBatch (vectors : List VectorInsert) (answer : Except IngestionError InsertBatchResponse)
    : Except IngestionError BatchInsertResult :=
  if vectors.isEmpty then .ok ⟨0, 0, 0⟩ else answer.bind (buildBatchInsertResult vectors)

def ensureCompleteInsert (result : BatchInsertResult) : Except IngestionError Unit :=
  if 0 < result.failed then
    .error (.storage ("Partial AkiDB insert: " ++ toString result.successful ++ " succeeded, "
      ++ toString result.failed ++ " failed out of " ++ toString result.total))
  else .ok ()

def ensureEmbeddingAlignment (chunkCount embeddingCount : Nat) : Except IngestionError Unit :=
  if chunkCount ≠ embeddingCount then
    .error (.embedding ("Embedding count mismatch: " ++ toString chunkCount
      ++ " chunks produced " ++ toString embeddingCount ++ " embeddings"))
  else .ok ()

variable (contentHash : String)

def buildVectors (chunks : List String) (embeddings : List (List UInt32))
    : List VectorInsert :=
  (chunks.zip embeddings).mapIdx fun index (chunk, embedding) =>
    { id := contentHash ++ ":" ++ toString index, embedding, text := chunk }

inductive DocumentState where
  | queued | parsing | chunking | embedding | inserting | completed | failed
deriving DecidableEq

structure DocumentRecord where
  source : String
  state : DocumentState
  chunkCount : Nat
  error : Option String
deriving DecidableEq

/-- The parts of the pipeline that its own code does not fix. -/
structure PipelineConfig where
  parsers : Parsers
  chunk : String → List String
  hashContent : List UInt8 → String
  breaker : CircuitBreakerConfig
  maxEntries : Nat

/-- A batch that AkiDB took in full, with the event and the content that it was made for and the
answer of the Python parser to them. -/
structure InsertedBatch where
  event : UploadEvent
  data : List UInt8
  answer : Except IngestionError ParsedDocument
  vectors : List VectorInsert

structure PipelineState where
  idempotency : IdempotencyChecker
  documents : String → Option DocumentRecord
  breaker : CircuitBreaker
  inserted : List InsertedBatch

/-- The points at which the process can end, each before the step that it names. -/
inductive Stage where
  | fetch | mark | record | parsing | parse | chunking | chunkCount | embedding | embed
  | inserting | insert | completed | recordFailed | unmark
deriving DecidableEq

/-- One event: what each outside call answers, which statements fail, where the process ends. -/
structure Attempt where
  event : UploadEvent
  fetched : Except IngestionError (List UInt8)
  now : Nat
  marking : MarkFaults
  recording : Option IngestionError
  updating : DocumentState → Option IngestionError
  counting : Option IngestionError
  askedAt : Nat
  answeredAt : Nat
  answer : Except IngestionError ParsedDocument
  embedded : Except IngestionError (List (List UInt32))
  response : Except IngestionError InsertBatchResponse
  unmarking : Bool
  crash : Option Stage

/-- Why processing stops. -/
inductive Stop where
  | failed (error : IngestionError)
  | crashed

abbrev PipelineM := Effect PipelineState Stop

def liftResult {α : Type} : Except IngestionError α → PipelineM α
  | .ok value => pure value
  | .error error => throw (.failed error)

/-- Go on to a stage, unless the process ends there. -/
def Attempt.reach (attempt : Attempt) (stage : Stage) : PipelineM Unit :=
  Effects.attempt (if attempt.crash = some stage then some .crashed else none) id

def PipelineState.withDocument (record : DocumentRecord)
    (state : PipelineState) : PipelineState :=
  { state with documents := Function.update state.documents contentHash (some record) }

def updateDocument (fault : Option IngestionError)
    (change : DocumentRecord → DocumentRecord) : PipelineM Unit := do
  let state ← get
  match fault, state.documents contentHash with
  | some error, _ => throw (.failed error)
  | none, none =>
    throw (.failed (.state ("Document '" ++ contentHash ++ "' does not exist in state tracker")))
  | none, some record => modify (PipelineState.withDocument contentHash (change record))

def updateState (attempt : Attempt) (contentHash : String) (next : DocumentState)
    : PipelineM Unit :=
  updateDocument contentHash (attempt.updating next) fun record => { record with state := next }

variable (config : PipelineConfig)

def parse (attempt : Attempt) (data : List UInt8)
    : PipelineM ParsedDocument := do
  let state ← get
  let (result, breaker) := parseDocument config.parsers state.breaker
    ⟨attempt.event, data, attempt.askedAt, attempt.answeredAt, attempt.answer⟩
  modify fun state => { state with breaker }
  liftResult result.parsed

/-- Send the vectors. A batch that is taken in full is remembered. -/
def insertVectors (attempt : Attempt) (data : List UInt8) (vectors : List VectorInsert)
    : PipelineM Unit := do
  let result ← liftResult (insertBatch vectors attempt.response)
  liftResult (ensureCompleteInsert result)
  modify fun state => { state with
    inserted := state.inserted ++ [⟨attempt.event, data, attempt.answer, vectors⟩] }

def prepareVectors (attempt : Attempt) (contentHash : String)
    (data : List UInt8) : PipelineM (List VectorInsert) := do
  attempt.reach .parsing
  updateState attempt contentHash .parsing
  attempt.reach .parse
  let parsed ← parse config attempt data
  attempt.reach .chunking
  updateState attempt contentHash .chunking
  let chunks := config.chunk parsed.text
  attempt.reach .chunkCount
  updateDocument contentHash attempt.counting fun record =>
    { record with chunkCount := chunks.length }
  attempt.reach .embedding
  updateState attempt contentHash .embedding
  attempt.reach .embed
  let embeddings ← liftResult attempt.embedded
  liftResult (ensureEmbeddingAlignment chunks.length embeddings.length)
  return buildVectors contentHash chunks embeddings

def processDocumentInternal (attempt : Attempt)
    (contentHash : String) (data : List UInt8) : PipelineM Unit := do
  let vectors ← prepareVectors config attempt contentHash data
  attempt.reach .inserting
  updateState attempt contentHash .inserting
  attempt.reach .insert
  insertVectors attempt data vectors
  attempt.reach .completed
  updateState attempt contentHash .completed

/-- A failed document: its row tells, and its mark is taken back; failures are passed over. -/
def rollBack (attempt : Attempt) (contentHash : String) (error : IngestionError)
    : PipelineM Unit := do
  attempt.reach .recordFailed
  modify fun state => match attempt.updating .failed, state.documents contentHash with
    | none, some record => state.withDocument contentHash
        { record with state := .failed, error := some error.display }
    | _, _ => state
  attempt.reach .unmark
  modify fun state => { state with
    idempotency := state.idempotency.unmarkHash contentHash attempt.unmarking }
  throw (.failed error)

def processMarked (attempt : Attempt) (data : List UInt8)
    : PipelineM Unit :=
  tryCatch (processDocumentInternal config attempt (config.hashContent data) data) fun
    | .failed error => rollBack attempt (config.hashContent data) error
    | .crashed => throw .crashed

/-- Mark the content, unless it is marked. -/
def checkAndMark (attempt : Attempt) (contentHash : String) : PipelineM Bool := do
  let marked := (← get).idempotency.checkAndMark contentHash attempt.now attempt.marking
  modify fun state => { state with idempotency := marked.2 }
  return marked.1

def processEvent (attempt : Attempt) : PipelineM Unit := do
  attempt.reach .fetch
  let data ← liftResult attempt.fetched
  attempt.reach .mark
  let isDuplicate ← checkAndMark attempt (config.hashContent data)
  if isDuplicate then return ()
  attempt.reach .record
  Effects.attempt (attempt.recording.map .failed)
    (PipelineState.withDocument (config.hashContent data) ⟨attempt.event.key, .queued, 0, none⟩)
  processMarked config attempt data

def processEvents (config : PipelineConfig) : List Attempt → PipelineState →
    Option (List (UploadEvent × Except IngestionError Unit)) × PipelineState
  | [], state => (some [], state)
  | attempt :: rest, state =>
    match (processEvent config attempt).from state with
    | (.error .crashed, after) => (none, after)
    | (.error (.failed error), after) =>
      let (outcomes, last) := processEvents config rest after
      (outcomes.map ((attempt.event, .error error) :: ·), last)
    | (.ok (), after) =>
      let (outcomes, last) := processEvents config rest after
      (outcomes.map ((attempt.event, .ok ()) :: ·), last)

structure Message where
  delivery : Delivery
  events : Except IngestionError (List Attempt)
  broker : BrokerFaults

/-- What a process that starts finds: only the tables are left. -/
def PipelineState.restart (state : PipelineState) : PipelineState :=
  { state with
    idempotency := .newPersistent state.idempotency.rows config.maxEntries
    breaker := .new config.breaker }

/-- Process a message and settle it; if the process ends on the way, another one starts. -/
def deliver (message : Message) (state : PipelineState)
    : List (BrokerCall × Bool) × PipelineState :=
  match message.events with
  | .error error =>
    (settle message.broker message.delivery (processMessage (.error error)), state)
  | .ok attempts => match processEvents config attempts state with
    | (none, after) => ([], after.restart config)
    | (some outcomes, after) =>
      (settle message.broker message.delivery (processMessage (.ok outcomes)), after)

inductive PipelineAction where
  | deliver (message : Message)
  | restart

def PipelineAction.perform (state : PipelineState)
    : PipelineAction → PipelineState
  | .deliver message => (Ingestion.deliver config message state).2
  | .restart => state.restart config

def PipelineState.blank : PipelineState where
  idempotency := .newPersistent [] config.maxEntries
  documents := fun _ => none
  breaker := .new config.breaker
  inserted := []

end AkiDB.Ingestion
