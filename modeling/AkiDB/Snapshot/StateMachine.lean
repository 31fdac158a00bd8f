import Mathlib
import AkiDB.Library.Scripts
import AkiDB.Common.Error

/-! The persisted state machine of a snapshot operation; every transition writes the record. -/

namespace AkiDB.Snapshot
open AkiDB.Common Scripts

inductive SnapshotState where
  | idle
  | compressing (startedAt : Nat)
  | uploading (chunksCompleted totalChunks bytesUploaded totalBytes startedAt : Nat)
  | verifying (startedAt : Nat)
  | completing (startedAt : Nat)
  | failed (error : String) (retryCount lastAttempt : Nat) (originalState : SnapshotState)
  | completed (completedAt : Nat)

def SnapshotState.isInProgress : SnapshotState → Bool
  | compressing .. | uploading .. | verifying .. | completing .. => true
  | _ => false

def SnapshotState.isResumable : SnapshotState → Bool
  | uploading .. | failed .. => true
  | _ => false

/-- Checkpoint of a multipart upload; a completed part is its part number. -/
structure UploadCheckpoint where
  uploadId : Nat
  completedParts : List Nat
  nextPart : Nat
  bytesUploaded : Nat
  totalBytes : Nat
  objectKey : String
  localPath : String

structure SnapshotStateRecord where
  state : SnapshotState
  updatedAt : Nat
  uploadCheckpoint : Option UploadCheckpoint

/-- One operation and its object store: both records, and what was sent and completed of each
upload. -/
structure UploadWorld where
  record : SnapshotStateRecord
  saved : SnapshotStateRecord
  uploads : Nat
  bodies : Nat → Nat → List UInt8
  objects : List (List UInt8)
  closed : List Nat

abbrev UploadM (α : Type) : Type := ScriptM UploadWorld AkiDbError α

/-- The clock during a call, and what an outside call reports when it fails. -/
structure Surroundings where
  now : Nat
  detail : String

namespace SnapshotStateMachine

variable (around : Surroundings)

def startOperation : UploadWorld :=
  let record := { state := .idle, updatedAt := around.now, uploadCheckpoint := none }
  { record, saved := record, uploads := 0, bodies := fun _ _ => [], objects := [], closed := [] }

def saveState : UploadM Unit := do
  let _ ← external (.storageError around.detail) fun world =>
    { world with saved := world.record }

def changeRecord (change : SnapshotStateRecord → SnapshotStateRecord) : UploadM Unit := do
  update fun world => { world with record := change world.record }
  saveState around

def transitionToCompressing : UploadM Unit :=
  changeRecord around fun record =>
    { record with state := .compressing around.now, updatedAt := around.now }

/-- The progress itself is not part of the model. -/
def updateCompressionProgress : UploadM Unit := do
  match (← read).record.state with
  | .compressing startedAt =>
    changeRecord around fun record =>
      { record with state := .compressing startedAt, updatedAt := around.now }
  | _ => return ()

def transitionToUploading (totalChunks totalBytes : Nat) (checkpoint : UploadCheckpoint)
    : UploadM Unit :=
  changeRecord around fun _ =>
    { state := .uploading checkpoint.completedParts.length totalChunks checkpoint.bytesUploaded
        totalBytes around.now
      updatedAt := around.now
      uploadCheckpoint := some checkpoint }

def updateUploadProgress (chunksCompleted bytesUploaded : Nat) (checkpoint : UploadCheckpoint)
    : UploadM Unit := do
  match (← read).record.state with
  | .uploading _ totalChunks _ totalBytes startedAt =>
    changeRecord around fun _ =>
      { state := .uploading chunksCompleted totalChunks bytesUploaded totalBytes startedAt
        updatedAt := around.now
        uploadCheckpoint := some checkpoint }
  | _ => return ()

def transitionToVerifying : UploadM Unit :=
  changeRecord around fun record =>
    { record with state := .verifying around.now, updatedAt := around.now }

def transitionToCompleting : UploadM Unit :=
  changeRecord around fun record =>
    { record with state := .completing around.now, updatedAt := around.now }

def completeOperation : UploadM Unit :=
  changeRecord around fun _ =>
    { state := .completed around.now, updatedAt := around.now, uploadCheckpoint := none }

/-- A failure of a failed operation counts as a retry, saturating as a 32-bit counter does. -/
def failOperation (error : String) : UploadM Unit :=
  changeRecord around fun record =>
    let (retryCount, originalState) :=
      match record.state with
      | .failed _ retryCount _ originalState =>
        (min (retryCount + 1) (2 ^ 32 - 1), originalState)
      | other => (0, other)
    { record with
      state := .failed error retryCount around.now originalState
      updatedAt := around.now }

def resetForRetry : UploadM Unit := do
  match (← read).record.state with
  | .failed _ _ _ originalState =>
    changeRecord around fun record =>
      { record with state := originalState, updatedAt := around.now }
  | _ => return ()

/-- The limit of retries and the seconds to wait before each. -/
structure RetryConfig where
  maxRetries : Fin (2 ^ 32)
  retryBackoff : List Nat

variable (config : RetryConfig)

def retryBackoffSecs (retryCount : Nat) : Nat :=
  config.retryBackoff[min retryCount (config.retryBackoff.length - 1)]?.getD 60

def shouldRetry (now : Nat) (record : SnapshotStateRecord) : Bool :=
  match record.state with
  | .failed _ retryCount lastAttempt _ =>
    retryCount < config.maxRetries && retryBackoffSecs config retryCount ≤ now - lastAttempt
  | _ => false

/-- The test of one stored record; the scan before it reads at most 100,000 rows. -/
def recovers (now : Nat) (record : SnapshotStateRecord) : Bool :=
  record.state.isInProgress || shouldRetry config now record

end SnapshotStateMachine

end AkiDB.Snapshot
