import Mathlib
import AkiDB.Library.Retries

/-! The persisted state machine of an index rebuild; progress is written now and then. -/

namespace AkiDB.Rebuild

inductive PersistentRebuildPhase where
  | idle
  | preparing (walLsn startedAt : Nat)
  | scanning (vectorsScanned totalVectors startedAt : Nat)
  | building (vectorsBuilt totalVectors : Nat) (tempIndexPath : String) (startedAt : Nat)
  | replaying (entriesReplayed : Nat) (totalEntries : Option Nat) (startedAt : Nat)
  | validating (samplesChecked totalSamples startedAt : Nat)
  | swapping (startedAt : Nat)
  | cleaning (oldIndexPath : String) (startedAt : Nat)
  | failed (error : String) (phaseWhenFailed : PersistentRebuildPhase)
      (retryCount failedAt : Nat)
  | completed (completedAt vectorsRebuilt durationSecs : Nat)

namespace PersistentRebuildPhase

def isInProgress : PersistentRebuildPhase → Bool
  | preparing .. | scanning .. | building .. | replaying .. | validating .. | swapping ..
  | cleaning .. => true
  | _ => false

def isResumable : PersistentRebuildPhase → Bool
  | scanning .. | building .. | replaying .. | failed .. => true
  | _ => false

def failures : PersistentRebuildPhase → Option Nat
  | failed _ _ retryCount _ => some retryCount
  | _ => none

/-- The phase that a retry goes back to is one of work. -/
def Sound : PersistentRebuildPhase → Prop
  | failed _ phaseWhenFailed _ _ => phaseWhenFailed.failures = none
  | _ => True

theorem sound_of_failures {phase : PersistentRebuildPhase} (working : phase.failures = none)
    : phase.Sound := by
  cases phase <;> simp_all [failures, Sound]

end PersistentRebuildPhase

structure RebuildStateRecord (Checkpoint : Type) where
  phase : PersistentRebuildPhase
  walStartLsn : Nat
  startedAt : Nat
  updatedAt : Nat
  checkpoint : Option Checkpoint
  checkpointInterval : Nat

structure RebuildWorld (Checkpoint : Type) where
  record : RebuildStateRecord Checkpoint
  saved : RebuildStateRecord Checkpoint

namespace PersistentRebuildStateMachine

variable {Checkpoint : Type} (now : Nat)

def startOperation (walLsn checkpointInterval : Nat) : RebuildWorld Checkpoint :=
  let record :=
    { phase := .preparing walLsn now, walStartLsn := walLsn, startedAt := now, updatedAt := now,
      checkpoint := none, checkpointInterval }
  { record, saved := record }

def store (world : RebuildWorld Checkpoint) (save : Bool)
    (record : RebuildStateRecord Checkpoint) : RebuildWorld Checkpoint :=
  { record, saved := if save then record else world.saved }

def transitionTo (phase : PersistentRebuildPhase) (world : RebuildWorld Checkpoint)
    : RebuildWorld Checkpoint :=
  store world true { world.record with phase, updatedAt := now }

def transitionToScanning (totalVectors : Nat) :=
  @transitionTo Checkpoint now (.scanning 0 totalVectors now)

def transitionToBuilding (totalVectors : Nat) (tempIndexPath : String) :=
  @transitionTo Checkpoint now (.building 0 totalVectors tempIndexPath now)

def transitionToReplaying (totalEntries : Option Nat) :=
  @transitionTo Checkpoint now (.replaying 0 totalEntries now)

def transitionToValidating (totalSamples : Nat) :=
  @transitionTo Checkpoint now (.validating 0 totalSamples now)

def transitionToSwapping :=
  @transitionTo Checkpoint now (.swapping now)

def transitionToCleaning (oldIndexPath : String) (world : RebuildWorld Checkpoint)
    : RebuildWorld Checkpoint :=
  store world true
    { world.record with phase := .cleaning oldIndexPath now, checkpoint := none, updatedAt := now }

def completeOperation (vectorsRebuilt : Nat) (world : RebuildWorld Checkpoint)
    : RebuildWorld Checkpoint :=
  store world true
    { world.record with
      phase := .completed now vectorsRebuilt (now - world.record.startedAt)
      checkpoint := none
      updatedAt := now }

def updateScanningProgress (vectorsScanned : Nat) (checkpoint : Option Checkpoint)
    (world : RebuildWorld Checkpoint) : RebuildWorld Checkpoint :=
  match world.record.phase with
  | .scanning _ totalVectors startedAt =>
    store world (world.record.checkpointInterval ∣ vectorsScanned)
      { world.record with
        phase := .scanning vectorsScanned totalVectors startedAt
        checkpoint
        updatedAt := now }
  | _ => world

def updateBuildingProgress (vectorsBuilt : Nat) (checkpoint : Option Checkpoint)
    (world : RebuildWorld Checkpoint) : RebuildWorld Checkpoint :=
  match world.record.phase with
  | .building _ totalVectors tempIndexPath startedAt =>
    store world (world.record.checkpointInterval ∣ vectorsBuilt)
      { world.record with
        phase := .building vectorsBuilt totalVectors tempIndexPath startedAt
        checkpoint
        updatedAt := now }
  | _ => world

def updateReplayProgress (entriesReplayed : Nat) (world : RebuildWorld Checkpoint)
    : RebuildWorld Checkpoint :=
  match world.record.phase with
  | .replaying _ totalEntries startedAt =>
    store world (10000 ∣ entriesReplayed)
      { world.record with
        phase := .replaying entriesReplayed totalEntries startedAt
        updatedAt := now }
  | _ => world

def updateValidationProgress (samplesChecked : Nat) (world : RebuildWorld Checkpoint)
    : RebuildWorld Checkpoint :=
  match world.record.phase with
  | .validating _ totalSamples startedAt =>
    store world (world.record.checkpointInterval ∣ samplesChecked)
      { world.record with
        phase := .validating samplesChecked totalSamples startedAt
        updatedAt := now }
  | _ => world

/-- A failure of a failed rebuild counts as a retry, saturating as a 32-bit counter does. -/
def failOperation (error : String) (world : RebuildWorld Checkpoint) : RebuildWorld Checkpoint :=
  let (retryCount, phaseWhenFailed) :=
    match world.record.phase with
    | .failed _ phaseWhenFailed retryCount _ =>
      (min (retryCount + 1) (2 ^ 32 - 1), phaseWhenFailed)
    | other => (0, other)
  store world true
    { world.record with
      phase := .failed error phaseWhenFailed retryCount now
      updatedAt := now }

def shouldRetry (maxRetries : Nat) (record : RebuildStateRecord Checkpoint) : Bool :=
  match record.phase with
  | .failed _ _ retryCount _ => retryCount < maxRetries
  | _ => false

def resetForRetry (world : RebuildWorld Checkpoint) : RebuildWorld Checkpoint :=
  match world.record.phase with
  | .failed _ phaseWhenFailed _ _ =>
    store world true { world.record with phase := phaseWhenFailed, updatedAt := now }
  | _ => world

def recovers (maxRetries : Nat) (record : RebuildStateRecord Checkpoint) : Bool :=
  record.phase.isInProgress || (record.phase.isResumable && shouldRetry maxRetries record)

end PersistentRebuildStateMachine

open PersistentRebuildStateMachine

inductive RebuildWork (Checkpoint : Type) where
  | scanning (totalVectors : Nat)
  | scanned (vectors : Nat) (checkpoint : Option Checkpoint)
  | building (totalVectors : Nat) (tempIndexPath : String)
  | built (vectors : Nat) (checkpoint : Option Checkpoint)
  | replaying (totalEntries : Option Nat)
  | replayed (entries : Nat)
  | validating (totalSamples : Nat)
  | validated (samples : Nat)
  | swapping
  | cleaning (oldIndexPath : String)
  | complete (vectorsRebuilt : Nat)
  | restart

variable {Checkpoint : Type}

def RebuildWork.perform (now : Nat)
    : RebuildWork Checkpoint → RebuildWorld Checkpoint → RebuildWorld Checkpoint
  | scanning totalVectors => transitionToScanning now totalVectors
  | scanned vectors checkpoint => updateScanningProgress now vectors checkpoint
  | building totalVectors tempIndexPath => transitionToBuilding now totalVectors tempIndexPath
  | built vectors checkpoint => updateBuildingProgress now vectors checkpoint
  | replaying totalEntries => transitionToReplaying now totalEntries
  | replayed entries => updateReplayProgress now entries
  | validating totalSamples => transitionToValidating now totalSamples
  | validated samples => updateValidationProgress now samples
  | swapping => transitionToSwapping now
  | cleaning oldIndexPath => transitionToCleaning now oldIndexPath
  | complete vectorsRebuilt => completeOperation now vectorsRebuilt
  | restart => fun world => { world with record := world.saved }

/-- Memory and storage count the same failures. -/
structure RebuildWorld.Sound (world : RebuildWorld Checkpoint) : Prop where
  record : world.record.phase.Sound
  saved : world.saved.phase.Sound
  same : world.saved.phase.failures = world.record.phase.failures

variable {world : RebuildWorld Checkpoint}

theorem store_sound {save : Bool} {record} (sound : world.Sound) (working : record.phase.Sound)
    (same : save = true ∨ record.phase.failures = world.record.phase.failures)
    : (store world save record).Sound := by
  cases save with
  | true => exact ⟨working, working, rfl⟩
  | false =>
    rcases same with impossible | same
    · cases impossible
    · exact ⟨working, sound.saved, sound.same.trans same.symm⟩

/-- Work leaves a failed phase or keeps its count. -/
theorem RebuildWork.perform_spec (now : Nat) (work : RebuildWork Checkpoint) (sound : world.Sound)
    : (work.perform now world).Sound
      ∧ ((work.perform now world).record.phase.failures = none
        ∨ (work.perform now world).record.phase.failures = world.record.phase.failures) := by
  cases work with
  | restart => exact ⟨⟨sound.saved, sound.saved, rfl⟩, .inr sound.same⟩
  | scanning | building | replaying | validating | swapping | cleaning | complete =>
    exact ⟨store_sound sound trivial (.inl rfl), .inl rfl⟩
  | scanned | built | replayed | validated =>
    simp only [perform, updateScanningProgress, updateBuildingProgress, updateReplayProgress,
      updateValidationProgress]
    split
    · next entered =>
        exact ⟨store_sound sound trivial (.inr (by rw [entered]; rfl)), .inl rfl⟩
    · exact ⟨sound, .inr rfl⟩

theorem failOperation_spec (now : Nat) (error : String) (sound : world.Sound)
    : (failOperation now error world).Sound
      ∧ (failOperation now error world).record.phase.failures
        = some (world.record.phase.failures.elim 0 fun n => min (n + 1) (2 ^ 32 - 1)) := by
  have kept := sound.record
  unfold failOperation
  generalize world.record.phase = phase at kept ⊢
  cases phase <;> exact ⟨store_sound sound (by first | exact kept | rfl) (.inl rfl), rfl⟩

theorem resetForRetry_spec (now : Nat) (sound : world.Sound)
    : (resetForRetry now world).Sound
      ∧ (resetForRetry now world).record.phase.failures = none := by
  have kept := sound.record
  unfold resetForRetry
  cases entered : world.record.phase with
  | failed _ phaseWhenFailed _ _ =>
    rw [entered] at kept
    exact ⟨store_sound sound (PersistentRebuildPhase.sound_of_failures kept) (.inl rfl), kept⟩
  | _ => exact ⟨sound, by simp [entered, PersistentRebuildPhase.failures]⟩

def rebuildMachine (Checkpoint : Type) (maxRetries : Fin (2 ^ 32))
    : Retries.Machine (RebuildWorld Checkpoint) (Nat × RebuildWork Checkpoint) (Nat × String) where
  count world := world.record.phase.failures
  sound := RebuildWorld.Sound
  cap := 2 ^ 32 - 1
  maxRetries := maxRetries
  work call := call.2.perform call.1
  fail call := failOperation call.1 call.2
  reset now := resetForRetry now
  shouldRetry _ world := shouldRetry maxRetries world.record
  maxRetries_le := by omega
  sound_work call _ sound := (call.2.perform_spec call.1 sound).1
  sound_fail call _ sound := (failOperation_spec call.1 call.2 sound).1
  sound_reset now _ sound := (resetForRetry_spec now sound).1
  count_work call _ sound := (call.2.perform_spec call.1 sound).2
  count_fail call _ sound := (failOperation_spec call.1 call.2 sound).2
  count_reset now _ sound := (resetForRetry_spec now sound).2
  below_limit now world granted := by
    unfold shouldRetry at granted
    split at granted
    · next retryCount _ entered =>
        exact ⟨retryCount, by rw [entered]; rfl, by simpa using granted⟩
    · cases granted

theorem not_recovers {maxRetries : Nat} {record : RebuildStateRecord Checkpoint} {n : Nat}
    (counted : record.phase.failures = some n) (limit : maxRetries ≤ n)
    : shouldRetry maxRetries record = false ∧ recovers maxRetries record = false := by
  obtain ⟨phase, walStartLsn, startedAt, updatedAt, checkpoint, checkpointInterval⟩ := record
  cases phase <;> simp_all [PersistentRebuildPhase.failures, recovers, shouldRetry,
    PersistentRebuildPhase.isInProgress]

end AkiDB.Rebuild
