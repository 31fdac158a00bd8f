import AkiDB.Common.Error
import AkiDB.Contracts.Knowledge
import AkiDB.Library.AtomicBatch
import AkiDB.Library.ByteFraming

/-! The durable serving state of one replica, its validation, and the byte keys of its parts. -/

namespace AkiDB.ServingState
open AkiDB.Common AkiDB.Contracts Checked Utf8Text ByteFraming AtomicBatch

def servingStateSchemaVersion : Nat := 1
def maxReplicaIdBytes : Nat := 1024
def maxFailureBytes : Nat := 16384

/-- Local lifecycle states; a staged manifest has not loaded its bundle yet. -/
inductive LocalGenerationState where
  | staged
  | catchingUp
  | ready
  | serving
  | failed
  deriving DecidableEq, Repr

def LocalGenerationState.debug : LocalGenerationState → String
  | staged => "Staged"
  | catchingUp => "CatchingUp"
  | ready => "Ready"
  | serving => "Serving"
  | failed => "Failed"

structure GenerationServingState where
  manifest : KnowledgeGenerationManifest
  manifestSha256 : String
  appliedSequence : Nat
  state : LocalGenerationState
  lastError : Option String
  deriving DecidableEq, Repr

/-- The generation's identity within its scope. -/
abbrev GenerationServingState.id (generation : GenerationServingState) : String :=
  generation.manifest.generationId

structure ServingStateRecord where
  schemaVersion : Nat
  replicaId : String
  workspaceId : String
  collection : String
  active : Option GenerationServingState
  previous : Option GenerationServingState
  staged : Option GenerationServingState
  updatedAtMs : Nat
  deriving DecidableEq, Repr

variable (record : ServingStateRecord)

def ServingStateRecord.scope : KnowledgeScope :=
  { workspaceId := record.workspaceId, collection := record.collection }

structure MutationMarker where
  mutationId : String
  sequence : Nat
  mutationSha256 : String
  deriving DecidableEq, Repr

/-- A stored value; reading it as another kind is a serialization error. -/
inductive StoredValue where
  | state (record : ServingStateRecord)
  | checkpoint (checkpoint : ReplicaCheckpoint)
  | marker (marker : MutationMarker)
  deriving DecidableEq, Repr

abbrev Backend : Type := KeyValueMap Bytes StoredValue

abbrev Write : Type := BatchOperation Bytes StoredValue

inductive ServingStateError where
  | contract (violation : ContractViolation)
  | storage (error : AkiDbError)
  | serialization
  | invalidReplicaId (message : String)
  | invalidTimestamp (field : String)
  | nonPortableInteger (field : String)
  | stateNotFound (workspaceId collection : String)
  | stagedGenerationNotFound (workspaceId collection : String)
  | generationMismatch (expected actual : String)
  | scopeMismatch (expected actual : String)
  | generationConflict (message : String)
  | invalidTransition (message : String)
  | sequenceGap (expected actual : Nat)
  | sequenceConflict (sequence : Nat) (existingMutationId receivedMutationId : String)
  | mutationIdConflict (mutationId : String) (existingSequence receivedSequence : Nat)
  | mutationContentConflict (mutationId : String)
  | corruptState (message : String)
  deriving DecidableEq, Repr

abbrev ServingStateResult (α : Type) : Type := Except ServingStateError α

/-- The text under which an error is reported; validation of a stored record wraps it. -/
def ServingStateError.display : ServingStateError → String
  | contract violation => violation.display
  | storage error => error.display
  | serialization => "serving-state serialization error"
  | invalidReplicaId message => s!"invalid replica_id: {message}"
  | invalidTimestamp field => s!"{field} must be greater than zero"
  | nonPortableInteger field => s!"{field} must not exceed the JSON safe integer maximum"
  | stateNotFound workspaceId collection =>
    s!"no serving state exists for {workspaceId}/{collection}"
  | stagedGenerationNotFound workspaceId collection =>
    s!"no staged generation exists for {workspaceId}/{collection}"
  | generationMismatch expected actual =>
    s!"generation mismatch: expected {expected}, received {actual}"
  | scopeMismatch expected actual =>
    s!"scope mismatch: expected {expected}, received {actual}"
  | generationConflict message => s!"generation conflict: {message}"
  | invalidTransition message => s!"invalid serving-state transition: {message}"
  | sequenceGap expected actual =>
    s!"mutation sequence gap/out-of-order: expected {expected}, received {actual}"
  | sequenceConflict sequence existing received =>
    s!"sequence {sequence} is already owned by mutation {existing}, not {received}"
  | mutationIdConflict mutationId existing received =>
    s!"mutation {mutationId} is already bound to sequence {existing}, not {received}"
  | mutationContentConflict mutationId =>
    s!"mutation {mutationId} was redelivered with different content"
  | corruptState message => s!"corrupt serving state: {message}"

def contractChecked (result : ContractResult Unit) : ServingStateResult Unit :=
  result.mapError .contract

@[simp]
theorem contractChecked_eq_ok {result : ContractResult Unit}
    : contractChecked result = .ok () ↔ result = .ok () :=
  mapError_eq_ok

def validateLocalText (field value : String) (maximum : Nat)
    (error : String → ServingStateError) : ServingStateResult Unit := do
  rejectIf (trimmed value = []) (error s!"{field} cannot be empty")
  rejectIf (trimmed value ≠ value.toList)
    (error s!"{field} must not have leading or trailing whitespace")
  rejectIf (value.utf8ByteSize > maximum)
    (error s!"{field} length {value.utf8ByteSize} exceeds maximum {maximum}")
  rejectIf (value.toList.any isControl) (error s!"{field} must not contain control characters")

def validateTimestamp (field : String) (value : Nat) : ServingStateResult Unit := do
  rejectIf (value = 0) (.invalidTimestamp field)
  rejectIf (value > maxSafeJsonInteger) (.nonPortableInteger field)

def validateSha256 (field value : String) : ServingStateResult Unit :=
  rejectIf (¬isSha256 value) (.corruptState s!"{field} must be 64 lowercase hexadecimal characters")

/-- The three places of a record that can retain a generation. -/
inductive Role where
  | active
  | previous
  | staged
  deriving DecidableEq, Repr

def Role.name : Role → String
  | active => "active"
  | previous => "previous"
  | staged => "staged"

def ServingStateRecord.generation : Role → Option GenerationServingState
  | .active => record.active
  | .previous => record.previous
  | .staged => record.staged

def ServingStateRecord.setGeneration (role : Role)
    (generation : GenerationServingState) : ServingStateRecord :=
  match role with
  | .active => { record with active := some generation }
  | .previous => { record with previous := some generation }
  | .staged => { record with staged := some generation }

/-- Failure evidence is present exactly in the failed state. -/
def validateFailureEvidence (role : Role) (generation : GenerationServingState)
    : ServingStateResult Unit :=
  match generation.state, generation.lastError with
  | .failed, none =>
    .error (.corruptState s!"{role.name} failed generation lacks failure evidence")
  | .failed, some failure =>
    validateLocalText "last_error" failure maxFailureBytes .corruptState
  | _, some _ =>
    .error (.corruptState s!"{role.name} non-failed generation contains failure evidence")
  | _, none => .ok ()

/-- Each role admits only some lifecycle states. -/
def validateRole (role : Role) (generation : GenerationServingState)
    : ServingStateResult Unit :=
  match role with
  | .active =>
    rejectIf (generation.state ≠ .serving) (.corruptState "active generation is not serving")
  | .previous =>
    rejectIf (generation.state ≠ .ready) (.corruptState "previous generation is not ready")
  | .staged =>
    rejectIf (generation.state = .serving) (.corruptState "staged generation cannot be serving")

def validateGenerationState (parse : String → Option Url) (role : Role)
    (generation : GenerationServingState) (scope : KnowledgeScope)
    : ServingStateResult Unit := do
  (generation.manifest.validate parse).mapError fun error =>
    .corruptState s!"invalid {role.name} generation {generation.id}: {error.display}"
  (validateSha256 "manifest_sha256" generation.manifestSha256).mapError fun error =>
    .corruptState error.display
  rejectIf (generation.manifest.scope ≠ scope)
    (.corruptState s!"{role.name} generation has a different scope")
  rejectIf (generation.appliedSequence < generation.manifest.baseSequence
      ∨ generation.appliedSequence > maxSafeJsonInteger)
    (.corruptState (s!"{role.name} applied sequence {generation.appliedSequence} is below "
      ++ s!"base {generation.manifest.baseSequence} or not JSON-safe"))
  rejectIf ((generation.state = .ready ∨ generation.state = .serving)
      ∧ generation.appliedSequence < generation.manifest.targetSequence)
    (.corruptState (s!"{role.name} generation is {generation.state.debug} "
      ++ "before reaching target sequence"))
  rejectIf (generation.state = .staged
      ∧ generation.appliedSequence ≠ generation.manifest.baseSequence)
    (.corruptState s!"{role.name} staged generation has advanced beyond its bundle base sequence")
  validateFailureEvidence role generation
  validateRole role generation

def validateGenerations (parse : String → Option Url) (record : ServingStateRecord)
    : List Role → List String → ServingStateResult Unit
  | [], _ => .ok ()
  | role :: rest, seen =>
    match record.generation role with
    | none => validateGenerations parse record rest seen
    | some generation => do
      validateGenerationState parse role generation record.scope
      rejectIf (generation.id ∈ seen)
        (.corruptState s!"generation {generation.id} appears in more than one role")
      validateGenerations parse record rest (generation.id :: seen)

def validateRecord (parse : String → Option Url) (record : ServingStateRecord)
    (replicaId : String) : ServingStateResult Unit := do
  rejectIf (record.schemaVersion ≠ servingStateSchemaVersion)
    (.corruptState s!"unsupported state schema version {record.schemaVersion}")
  record.scope.validate.mapError fun error =>
    .corruptState s!"invalid persisted scope: {error.display}"
  (validateTimestamp "updated_at_ms" record.updatedAtMs).mapError fun error =>
    .corruptState error.display
  rejectIf (record.replicaId ≠ replicaId)
    (.corruptState (s!"record replica_id {record.replicaId} does not match "
      ++ s!"local replica_id {replicaId}"))
  validateGenerations parse record [.active, .previous, .staged] []
  rejectIf (record.active = none ∧ record.previous ≠ none)
    (.corruptState "previous generation exists without an active generation")

/-- The bytes of `akidb\0knowledge-serving\0v1\0`. -/
def keyNamespace : Bytes :=
  bytes "akidb" ++ [0] ++ bytes "knowledge-serving" ++ [0] ++ bytes "v1" ++ [0]

def compoundKey (kind : Bytes) (scope : KnowledgeScope) (components : List Bytes) : Bytes :=
  keyNamespace
    ++ frame (kind :: bytes scope.workspaceId :: bytes scope.collection :: components)

variable (scope : KnowledgeScope)

def stateKey : Bytes :=
  compoundKey (bytes "state") scope []

def checkpointKey (generationId : String) : Bytes :=
  compoundKey (bytes "checkpoint") scope [bytes generationId]

def mutationSequenceKey (generationId : String) (sequence : Nat)
    : Bytes :=
  compoundKey (bytes "mutation-sequence") scope [bytes generationId, beBytes 8 sequence]

def mutationIdentityKey (generationId mutationId : String) : Bytes :=
  compoundKey (bytes "mutation-identity") scope [bytes generationId, bytes mutationId]

end AkiDB.ServingState
