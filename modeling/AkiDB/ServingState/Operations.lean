import AkiDB.ServingState.Record

/-! The operations of a serving-state store. Each hands at most one batch to the backend. -/

namespace AkiDB.ServingState
open AkiDB.Common AkiDB.Contracts Checked Utf8Text ByteFraming AtomicBatch Unsigned

/-! The store and the libraries it calls -/

/-- Third-party functions: the URL parser, and SHA-256 over the JSON encoding of a mutation. -/
structure Environment where
  parseUrl : String → Option Url
  mutationDigest : KnowledgeMutation → List UInt8
  mutationDigest_length : ∀ mutation, (mutationDigest mutation).length = 32

/-- A store value exists only for a replica id that the constructor accepts. -/
structure ServingStateStore where
  environment : Environment
  replicaId : String
  replicaId_accepted :
    validateLocalText "replica_id" replicaId maxReplicaIdBytes .invalidReplicaId = .ok ()

/-- What a call decides: the batch it must commit first, if any, and the answer after it. -/
structure Decision (α : Type) where
  batch : Option (List Write)
  answer : α

namespace Decision

def unchanged {α : Type} (answer : α) : Decision α :=
  { batch := none, answer }

def write {α : Type} (operations : List Write) (answer : α) : Decision α :=
  { batch := some operations, answer }

def map {α β : Type} (convert : α → β) (decision : Decision α) : Decision β :=
  { batch := decision.batch, answer := convert decision.answer }

end Decision

inductive StageGenerationOutcome where
  | staged
  | alreadyStaged
  deriving DecidableEq, Repr

inductive ApplyMutationOutcome where
  | applied
  | duplicate
  deriving DecidableEq, Repr

def mutationFingerprint (environment : Environment) (mutation : KnowledgeMutation) : String :=
  hex (environment.mutationDigest mutation)

/-! Decoding and shared helpers -/

def decodeState : StoredValue → ServingStateResult ServingStateRecord
  | .state record => .ok record
  | _ => .error .serialization

def decodeCheckpoint : StoredValue → ServingStateResult ReplicaCheckpoint
  | .checkpoint checkpoint => .ok checkpoint
  | _ => .error .serialization

def validateMarker (marker : MutationMarker) : ServingStateResult Unit := do
  validateLocalText "mutation_id" marker.mutationId 1024 .corruptState
  validateSha256 "mutation_sha256" marker.mutationSha256
  rejectIf (marker.sequence = 0)
    (.corruptState "mutation marker sequence must be greater than zero")

def decodeMarker : StoredValue → ServingStateResult MutationMarker
  | .marker marker => do
    validateMarker marker
    pure marker
  | _ => .error .serialization

def readMarker (backend : Backend) (key : Bytes)
    : ServingStateResult (Option MutationMarker) :=
  match backend[key]? with
  | none => .ok none
  | some value => do
    let marker ← decodeMarker value
    pure (some marker)

def missingStaged (scope : KnowledgeScope) : ServingStateError :=
  .stagedGenerationNotFound scope.workspaceId scope.collection

def ensureGeneration (generation : GenerationServingState) (generationId : String)
    : ServingStateResult Unit :=
  rejectIf (generation.id ≠ generationId) (.generationMismatch generation.id generationId)

def generationIsPresent (generation : Option GenerationServingState) (generationId : String)
    : Bool :=
  match generation with
  | some state => state.id == generationId
  | none => false

def stagedMut (record : ServingStateRecord) (generationId : String)
    : ServingStateResult GenerationServingState := do
  let staged ← okOr record.staged (missingStaged record.scope)
  ensureGeneration staged generationId
  pure staged

def generationByIdMut (record : ServingStateRecord) (generationId : String)
    : ServingStateResult (Role × GenerationServingState) :=
  match record.active.filter (·.id == generationId) with
  | some generation => .ok (.active, generation)
  | none =>
    match record.previous.filter (·.id == generationId) with
    | some generation => .ok (.previous, generation)
    | none =>
      match record.staged.filter (·.id == generationId) with
      | some generation => .ok (.staged, generation)
      | none =>
        .error (.generationMismatch "<locally retained generation>" generationId)

/-- The reportable form of a local state; a staged manifest has none. -/
def replicaState : LocalGenerationState → Option ReplicaState
  | .catchingUp => some .catchingUp
  | .ready => some .ready
  | .serving => some .serving
  | .failed => some .failed
  | .staged => none

def checkpointFor (replicaId : String) (generation : GenerationServingState)
    (updatedAtMs : Nat) : ServingStateResult ReplicaCheckpoint := do
  let state ← okOr (replicaState generation.state)
    (.invalidTransition "a staged manifest has no reportable replica checkpoint")
  let checkpoint : ReplicaCheckpoint := {
    schemaVersion := knowledgeSchemaVersion
    replicaId
    workspaceId := generation.manifest.workspaceId
    collection := generation.manifest.collection
    generationId := generation.manifest.generationId
    manifestSha256 := generation.manifestSha256
    appliedSequence := generation.appliedSequence
    state
    lastError := generation.lastError
    updatedAtMs }
  contractChecked checkpoint.validate
  pure checkpoint

def checkpointOperations (scope : KnowledgeScope)
    : List ReplicaCheckpoint → ServingStateResult (List Write)
  | [] => .ok []
  | checkpoint :: rest => do
    contractChecked checkpoint.validate
    let operations ← checkpointOperations scope rest
    pure (.put (checkpointKey scope checkpoint.generationId) (.checkpoint checkpoint)
      :: operations)

def recordOperations (record : ServingStateRecord) (checkpoints : List ReplicaCheckpoint)
    : ServingStateResult (List Write) := do
  let operations ← checkpointOperations record.scope checkpoints
  pure (.put (stateKey record.scope) (.state record) :: operations)

def markerOperations (scope : KnowledgeScope) (generationId : String)
    (marker : MutationMarker) : List Write :=
  [.put (mutationSequenceKey scope generationId marker.sequence) (.marker marker),
    .put (mutationIdentityKey scope generationId marker.mutationId) (.marker marker)]

namespace ServingStateStore

variable (store : ServingStateStore)

variable (backend : Backend)

variable (scope : KnowledgeScope)

def loadUnlocked : ServingStateResult (Option ServingStateRecord) := do
  contractChecked scope.validate
  match backend[stateKey scope]? with
  | none => pure none
  | some value => do
    let record ← decodeState value
    validateRecord store.environment.parseUrl record store.replicaId
    rejectIf (record.scope ≠ scope) (.corruptState "state key and payload scope differ")
    pure (some record)

def loadRequiredUnlocked : ServingStateResult ServingStateRecord := do
  let loaded ← store.loadUnlocked backend scope
  okOr loaded (.stateNotFound scope.workspaceId scope.collection)

def persistRecord (record : ServingStateRecord)
    (checkpoints : List ReplicaCheckpoint) : ServingStateResult (List Write) := do
  validateRecord store.environment.parseUrl record store.replicaId
  recordOperations record checkpoints

/-! Reading -/

def load : ServingStateResult (Option ServingStateRecord) :=
  store.loadUnlocked backend scope

variable (generationId : String)

def loadCheckpoint : ServingStateResult (Option ReplicaCheckpoint) := do
  contractChecked scope.validate
  match backend[checkpointKey scope generationId]? with
  | none => pure none
  | some value => do
    let checkpoint ← decodeCheckpoint value
    checkpoint.validate.mapError fun error => ServingStateError.corruptState
      s!"invalid checkpoint for generation {generationId}: {error.display}"
    rejectIf (checkpoint.replicaId ≠ store.replicaId)
      (.corruptState (s!"checkpoint replica_id {checkpoint.replicaId} does not match "
        ++ s!"local replica_id {store.replicaId}"))
    rejectIf (checkpoint.scope ≠ scope ∨ checkpoint.generationId ≠ generationId)
      (.corruptState "checkpoint key and payload identity differ")
    pure (some checkpoint)

def verifyAppliedMutation (mutation : KnowledgeMutation) : ServingStateResult Unit := do
  contractChecked (mutation.validate store.environment.parseUrl)
  let record ← store.loadRequiredUnlocked backend mutation.scope
  let (_, generation) ← generationByIdMut record mutation.generationId
  rejectIf (mutation.sequence ≤ generation.manifest.targetSequence
      ∨ mutation.sequence > generation.appliedSequence)
    (.invalidTransition "historical mutation is outside the applied revision")
  let expected : MutationMarker := {
    mutationId := mutation.mutationId
    sequence := mutation.sequence
    mutationSha256 := mutationFingerprint store.environment mutation }
  let bySequence ← readMarker backend
    (mutationSequenceKey mutation.scope mutation.generationId mutation.sequence)
  rejectIf (bySequence ≠ some expected) (.mutationContentConflict mutation.mutationId)
  let byIdentity ← readMarker backend
    (mutationIdentityKey mutation.scope mutation.generationId mutation.mutationId)
  rejectIf (byIdentity ≠ some expected) (.mutationContentConflict mutation.mutationId)

/-! Staging and replay -/

variable (updatedAtMs : Nat)

def emptyRecord : ServingStateRecord := {
  schemaVersion := servingStateSchemaVersion
  replicaId := store.replicaId
  workspaceId := scope.workspaceId
  collection := scope.collection
  active := none
  previous := none
  staged := none
  updatedAtMs }

def stageGeneration
    (manifest : KnowledgeGenerationManifest) (manifestSha256 : String) (updatedAtMs : Nat)
    : ServingStateResult (Decision StageGenerationOutcome) := do
  contractChecked (manifest.validate store.environment.parseUrl)
  validateTimestamp "updated_at_ms" updatedAtMs
  validateSha256 "manifest_sha256" manifestSha256
  let loaded ← store.loadUnlocked backend manifest.scope
  let record := loaded.getD (store.emptyRecord manifest.scope updatedAtMs)
  rejectIf (generationIsPresent record.active manifest.generationId
      ∨ generationIsPresent record.previous manifest.generationId)
    (.generationConflict (s!"generation {manifest.generationId} is already active or "
      ++ "retained for rollback"))
  match record.staged with
  | some staged => do
    rejectIf (staged.id ≠ manifest.generationId)
      (.generationConflict s!"generation {staged.id} is already staged")
    rejectIf (¬(staged.manifest = manifest ∧ staged.manifestSha256 = manifestSha256))
      (.generationConflict (s!"generation {manifest.generationId} was staged with "
        ++ "different immutable content"))
    pure (.unchanged .alreadyStaged)
  | none => do
    let staged : GenerationServingState := {
      manifest
      manifestSha256
      appliedSequence := manifest.baseSequence
      state := .staged
      lastError := none }
    let operations ← store.persistRecord { record with staged := some staged, updatedAtMs } []
    pure (.write operations .staged)

def markBundleLoaded : ServingStateResult (Decision Unit) := do
  validateTimestamp "updated_at_ms" updatedAtMs
  let record ← store.loadRequiredUnlocked backend scope
  let staged ← stagedMut record generationId
  match staged.state with
  | .catchingUp => pure (.unchanged ())
  | .staged => do
    let next := { staged with state := .catchingUp }
    let checkpoint ← checkpointFor store.replicaId next updatedAtMs
    let operations ←
      store.persistRecord { record with staged := some next, updatedAtMs } [checkpoint]
    pure (.write operations ())
  | other =>
    .error (.invalidTransition s!"bundle-loaded requires staged; generation is {other.debug}")

/-- A sequence that has a marker: the same mutation is a duplicate, any other one a conflict. -/
def redelivered (mutation : KnowledgeMutation)
    (value : StoredValue) : ServingStateResult (Decision ApplyMutationOutcome) := do
  let marker ← decodeMarker value
  let identityValue ← okOr
    backend[mutationIdentityKey mutation.scope mutation.generationId marker.mutationId]?
    (.corruptState (s!"sequence marker exists without mutation identity marker for "
      ++ marker.mutationId))
  let identityMarker ← decodeMarker identityValue
  rejectIf (identityMarker ≠ marker)
    (.corruptState s!"sequence and identity markers differ for {marker.mutationId}")
  rejectIf (marker.mutationId ≠ mutation.mutationId)
    (.sequenceConflict mutation.sequence marker.mutationId mutation.mutationId)
  rejectIf (marker.mutationSha256 ≠ mutationFingerprint store.environment mutation)
    (.mutationContentConflict mutation.mutationId)
  pure (.unchanged .duplicate)

def reusedIdentity (mutation : KnowledgeMutation) (value : StoredValue)
    : ServingStateResult (Decision ApplyMutationOutcome) := do
  let marker ← decodeMarker value
  rejectIf (marker.sequence ≠ mutation.sequence)
    (.mutationIdConflict mutation.mutationId marker.sequence mutation.sequence)
  .error (.corruptState (s!"mutation identity marker exists without sequence marker for "
    ++ mutation.mutationId))

/-- A delivery under a free sequence and id must be the next one of a generation catching up. -/
def recordNext (mutation : KnowledgeMutation)
    (updatedAtMs : Nat) : ServingStateResult (Decision ApplyMutationOutcome) := do
  let record ← store.loadRequiredUnlocked backend mutation.scope
  let staged ← stagedMut record mutation.generationId
  rejectIf (staged.state ≠ .catchingUp)
    (.invalidTransition (s!"mutation replay requires catching_up; generation is "
      ++ staged.state.debug))
  let expected ← okOr (checkedAdd64 staged.appliedSequence 1)
    (.corruptState "applied_sequence overflow")
  rejectIf (mutation.sequence ≠ expected) (.sequenceGap expected mutation.sequence)
  rejectIf (mutation.sequence > staged.manifest.targetSequence)
    (.invalidTransition (s!"mutation sequence {mutation.sequence} exceeds target sequence "
      ++ s!"{staged.manifest.targetSequence}"))
  let next := { staged with appliedSequence := mutation.sequence }
  let checkpoint ← checkpointFor store.replicaId next updatedAtMs
  let operations ←
    store.persistRecord { record with staged := some next, updatedAtMs } [checkpoint]
  let marker : MutationMarker := {
    mutationId := mutation.mutationId
    sequence := mutation.sequence
    mutationSha256 := mutationFingerprint store.environment mutation }
  pure (.write
    (operations ++ markerOperations mutation.scope mutation.generationId marker) .applied)

def applyMutation (mutation : KnowledgeMutation) (updatedAtMs : Nat)
    : ServingStateResult (Decision ApplyMutationOutcome) := do
  contractChecked (mutation.validate store.environment.parseUrl)
  validateTimestamp "updated_at_ms" updatedAtMs
  match backend[mutationSequenceKey mutation.scope mutation.generationId
      mutation.sequence]? with
  | some value => store.redelivered backend mutation value
  | none =>
    match backend[mutationIdentityKey mutation.scope mutation.generationId
        mutation.mutationId]? with
    | some value => reusedIdentity mutation value
    | none => store.recordNext backend mutation updatedAtMs

/-! Sealed revisions -/

/-- One mutation of a sealed tail: nothing to write when recorded, its markers when new. -/
def checkRevisionMutation (currentSequence : Nat)
    (mutation : KnowledgeMutation) : ServingStateResult (List Write) := do
  let fingerprint := mutationFingerprint store.environment mutation
  let sequenceMarker ← readMarker backend
    (mutationSequenceKey scope generationId mutation.sequence)
  let identityMarker ← readMarker backend
    (mutationIdentityKey scope generationId mutation.mutationId)
  match sequenceMarker, identityMarker with
  | some sequence, some identity => do
    rejectIf (sequence ≠ identity)
      (.corruptState s!"sequence and identity markers differ for {mutation.mutationId}")
    rejectIf (sequence.mutationId ≠ mutation.mutationId)
      (.sequenceConflict mutation.sequence sequence.mutationId mutation.mutationId)
    rejectIf (sequence.mutationSha256 ≠ fingerprint) (.mutationContentConflict mutation.mutationId)
    pure []
  | some sequence, none =>
    .error (.corruptState (s!"sequence marker exists without identity marker for "
      ++ sequence.mutationId))
  | none, some identity =>
    .error (.corruptState (s!"identity marker exists without sequence marker for "
      ++ identity.mutationId))
  | none, none => do
    rejectIf (mutation.sequence ≤ currentSequence)
      (.corruptState (s!"applied sequence {mutation.sequence} lacks mutation marker "
        ++ mutation.mutationId))
    pure (markerOperations scope generationId {
      mutationId := mutation.mutationId
      sequence := mutation.sequence
      mutationSha256 := fingerprint })

/-- The loop over a sealed tail, from the mutation at `offset` on. -/
def checkRevisionTail (store : ServingStateStore) (backend : Backend)
    (scope : KnowledgeScope) (generationId : String) (baseSequence currentSequence : Nat)
    : Nat → List KnowledgeMutation → ServingStateResult (List Write)
  | _, [] => .ok []
  | offset, mutation :: rest => do
    contractChecked (mutation.validate store.environment.parseUrl)
    rejectIf (mutation.scope ≠ scope ∨ mutation.generationId ≠ generationId)
      (.generationMismatch generationId mutation.generationId)
    let expected ← okOr
      ((checkedAdd64 baseSequence offset).bind (checkedAdd64 · 1))
      (.corruptState "mutation sequence overflow")
    rejectIf (mutation.sequence ≠ expected) (.sequenceGap expected mutation.sequence)
    let operations ← store.checkRevisionMutation backend scope generationId
      currentSequence mutation
    let tail ← store.checkRevisionTail backend scope generationId baseSequence
      currentSequence (offset + 1) rest
    pure (operations ++ tail)

def commitGenerationRevision (generationId manifestSha256 : String) (targetSequence : Nat)
    (mutations : List KnowledgeMutation) (updatedAtMs : Nat)
    : ServingStateResult (Decision ApplyMutationOutcome) := do
  contractChecked scope.validate
  validateSha256 "manifest_sha256" manifestSha256
  validateTimestamp "updated_at_ms" updatedAtMs
  rejectIf (targetSequence > maxSafeJsonInteger) (.nonPortableInteger "target_sequence")
  let record ← store.loadRequiredUnlocked backend scope
  let (role, generation) ← generationByIdMut record generationId
  rejectIf (generation.manifestSha256 ≠ manifestSha256)
    (.generationConflict (s!"generation {generationId} manifest digest differs from the "
      ++ "sealed revision"))
  rejectIf (generation.state = .staged ∨ generation.state = .catchingUp
      ∨ generation.state = .failed)
    (.invalidTransition (s!"generation revision requires ready or serving state; "
      ++ s!"generation is {generation.state.debug}"))
  let baseSequence := generation.manifest.targetSequence
  let currentSequence := generation.appliedSequence
  rejectIf (targetSequence < currentSequence ∨ targetSequence ≤ baseSequence)
    (.invalidTransition (s!"revision target {targetSequence} must exceed base "
      ++ s!"{baseSequence} and not precede current {currentSequence}"))
  -- the subtraction cannot underflow: the target exceeds the base here
  rejectIf (mutations.length ≠ targetSequence - baseSequence)
    (.sequenceGap (saturatingAdd64 baseSequence 1)
      ((mutations.head?.map (·.sequence)).getD targetSequence))
  let markers ← store.checkRevisionTail backend scope generationId baseSequence
    currentSequence 0 mutations
  if currentSequence = targetSequence then
    pure (.unchanged .duplicate)
  else do
    let next := { generation with appliedSequence := targetSequence, lastError := none }
    let checkpoint ← checkpointFor store.replicaId next updatedAtMs
    let operations ←
      store.persistRecord { record.setGeneration role next with updatedAtMs } [checkpoint]
    pure (.write (operations ++ markers) .applied)

/-! Lifecycle -/

def markReady : ServingStateResult (Decision Unit) := do
  validateTimestamp "updated_at_ms" updatedAtMs
  let record ← store.loadRequiredUnlocked backend scope
  let staged ← stagedMut record generationId
  match staged.state with
  | .ready => pure (.unchanged ())
  | .catchingUp => do
    rejectIf (staged.appliedSequence ≠ staged.manifest.targetSequence)
      (.invalidTransition (s!"generation is at sequence {staged.appliedSequence}, "
        ++ s!"target is {staged.manifest.targetSequence}"))
    let next := { staged with state := .ready }
    let checkpoint ← checkpointFor store.replicaId next updatedAtMs
    let operations ←
      store.persistRecord { record with staged := some next, updatedAtMs } [checkpoint]
    pure (.write operations ())
  | other =>
    .error (.invalidTransition s!"ready requires catching_up; generation is {other.debug}")

def displaceActive (record : ServingStateRecord) (updatedAtMs : Nat)
    : ServingStateResult (Option GenerationServingState × List ReplicaCheckpoint) :=
  match record.active with
  | none => .ok (record.previous, [])
  | some active => do
    let former := { active with state := .ready, lastError := none }
    let checkpoint ← checkpointFor store.replicaId former updatedAtMs
    pure (some former, [checkpoint])

def activate : ServingStateResult (Decision Unit) := do
  validateTimestamp "updated_at_ms" updatedAtMs
  let record ← store.loadRequiredUnlocked backend scope
  if generationIsPresent record.active generationId then
    pure (.unchanged ())
  else do
    let staged ← okOr record.staged (missingStaged scope)
    ensureGeneration staged generationId
    rejectIf (staged.state ≠ .ready) (.invalidTransition "only a ready generation may be activated")
    let (previous, displaced) ← store.displaceActive record updatedAtMs
    let next := { staged with state := .serving, lastError := none }
    let checkpoint ← checkpointFor store.replicaId next updatedAtMs
    let operations ← store.persistRecord
      { record with active := some next, previous, staged := none, updatedAtMs }
      (displaced ++ [checkpoint])
    pure (.write operations ())

def rollback (store : ServingStateStore) (backend : Backend) (scope : KnowledgeScope)
    (targetGenerationId : String) (updatedAtMs : Nat)
    : ServingStateResult (Decision Unit) := do
  validateTimestamp "updated_at_ms" updatedAtMs
  let record ← store.loadRequiredUnlocked backend scope
  if generationIsPresent record.active targetGenerationId then
    pure (.unchanged ())
  else do
    let previous ← okOr record.previous
      (.invalidTransition "no rollback generation is retained")
    ensureGeneration previous targetGenerationId
    let active ← okOr record.active
      (.corruptState "rollback target exists but active generation is absent")
    let target := { previous with state := .serving, lastError := none }
    let formerActive := { active with state := .ready, lastError := none }
    let targetCheckpoint ← checkpointFor store.replicaId target updatedAtMs
    let formerCheckpoint ← checkpointFor store.replicaId formerActive updatedAtMs
    let operations ← store.persistRecord
      { record with active := some target, previous := some formerActive, updatedAtMs }
      [targetCheckpoint, formerCheckpoint]
    pure (.write operations ())

def failStaged (generationId failure : String) (updatedAtMs : Nat)
    : ServingStateResult (Decision Unit) := do
  validateTimestamp "updated_at_ms" updatedAtMs
  validateLocalText "last_error" failure maxFailureBytes .invalidTransition
  let record ← store.loadRequiredUnlocked backend scope
  let staged ← stagedMut record generationId
  rejectIf (staged.state = .serving)
    (.invalidTransition "active serving generation cannot be failed through fail_staged")
  if staged.state = .failed ∧ staged.lastError = some failure then
    pure (.unchanged ())
  else do
    let next := { staged with state := .failed, lastError := some failure }
    let checkpoint ← checkpointFor store.replicaId next updatedAtMs
    let operations ←
      store.persistRecord { record with staged := some next, updatedAtMs } [checkpoint]
    pure (.write operations ())

end ServingStateStore

/-! Calls and runs -/

inductive Operation where
  | stageGeneration (manifest : KnowledgeGenerationManifest) (manifestSha256 : String)
      (updatedAtMs : Nat)
  | markBundleLoaded (scope : KnowledgeScope) (generationId : String) (updatedAtMs : Nat)
  | applyMutation (mutation : KnowledgeMutation) (updatedAtMs : Nat)
  | commitGenerationRevision (scope : KnowledgeScope) (generationId manifestSha256 : String)
      (targetSequence : Nat) (mutations : List KnowledgeMutation) (updatedAtMs : Nat)
  | markReady (scope : KnowledgeScope) (generationId : String) (updatedAtMs : Nat)
  | activate (scope : KnowledgeScope) (generationId : String) (updatedAtMs : Nat)
  | rollback (scope : KnowledgeScope) (targetGenerationId : String) (updatedAtMs : Nat)
  | failStaged (scope : KnowledgeScope) (generationId failure : String) (updatedAtMs : Nat)
  | load (scope : KnowledgeScope)
  | loadCheckpoint (scope : KnowledgeScope) (generationId : String)
  | verifyAppliedMutation (mutation : KnowledgeMutation)

def Operation.scope : Operation → KnowledgeScope
  | stageGeneration manifest _ _ => manifest.scope
  | markBundleLoaded scope _ _ => scope
  | applyMutation mutation _ => mutation.scope
  | commitGenerationRevision scope _ _ _ _ _ => scope
  | markReady scope _ _ => scope
  | activate scope _ _ => scope
  | rollback scope _ _ => scope
  | failStaged scope _ _ _ => scope
  | load scope => scope
  | loadCheckpoint scope _ => scope
  | verifyAppliedMutation mutation => mutation.scope

inductive Response where
  | staging (outcome : StageGenerationOutcome)
  | mutation (outcome : ApplyMutationOutcome)
  | done
  | record (record : Option ServingStateRecord)
  | checkpoint (checkpoint : Option ReplicaCheckpoint)
  deriving DecidableEq, Repr

namespace ServingStateStore

def plan (store : ServingStateStore) (backend : Backend)
    : Operation → ServingStateResult (Decision Response)
  | .stageGeneration manifest manifestSha256 updatedAtMs =>
    (store.stageGeneration backend manifest manifestSha256 updatedAtMs).map (Decision.map .staging)
  | .markBundleLoaded scope generationId updatedAtMs =>
    (store.markBundleLoaded backend scope generationId updatedAtMs).map
      (Decision.map fun _ => .done)
  | .applyMutation mutation updatedAtMs =>
    (store.applyMutation backend mutation updatedAtMs).map (Decision.map .mutation)
  | .commitGenerationRevision scope generationId manifestSha256 targetSequence mutations
      updatedAtMs =>
      (store.commitGenerationRevision backend scope generationId manifestSha256
        targetSequence mutations updatedAtMs).map (Decision.map .mutation)
  | .markReady scope generationId updatedAtMs =>
    (store.markReady backend scope generationId updatedAtMs).map (Decision.map fun _ => .done)
  | .activate scope generationId updatedAtMs =>
    (store.activate backend scope generationId updatedAtMs).map (Decision.map fun _ => .done)
  | .rollback scope targetGenerationId updatedAtMs =>
    (store.rollback backend scope targetGenerationId updatedAtMs).map (Decision.map fun _ => .done)
  | .failStaged scope generationId failure updatedAtMs =>
    (store.failStaged backend scope generationId failure updatedAtMs).map
      (Decision.map fun _ => .done)
  | .load scope => (store.load backend scope).map fun record => .unchanged (.record record)
  | .loadCheckpoint scope generationId =>
    (store.loadCheckpoint backend scope generationId).map fun checkpoint =>
      .unchanged (.checkpoint checkpoint)
  | .verifyAppliedMutation mutation =>
    (store.verifyAppliedMutation backend mutation).map fun _ => .unchanged .done

/-- One call: its batch is written whole, or, when the backend reports a fault, not at all. -/
def execute (store : ServingStateStore) (backend : Backend) (operation : Operation)
    (fault : Option AkiDbError) : ServingStateResult Response × Backend :=
  match store.plan backend operation with
  | .error error => (.error error, backend)
  | .ok { batch := none, answer } => (.ok answer, backend)
  | .ok { batch := some operations, answer } =>
    match fault with
    | some error => (.error (.storage error), backend)
    | none => (.ok answer, applyBatch backend operations)

end ServingStateStore

end AkiDB.ServingState
