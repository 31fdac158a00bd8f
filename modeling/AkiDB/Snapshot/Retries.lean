import AkiDB.Rebuild.StateMachine
import AkiDB.Snapshot.StateMachine

/-! Retries of snapshot and rebuild operations: the count lives in the failed state only. -/

namespace AkiDB.Snapshot
open Scripts Effects SnapshotStateMachine Runs Retries

namespace SnapshotState

def failures : SnapshotState → Option Nat
  | failed _ retryCount _ _ => some retryCount
  | _ => none

/-- The state that a retry goes back to is one of work. -/
def Sound : SnapshotState → Prop
  | failed _ _ _ originalState => originalState.failures = none
  | _ => True

theorem sound_of_failures {state : SnapshotState} (working : state.failures = none)
    : state.Sound := by
  cases state <;> simp_all [failures, Sound]

end SnapshotState

inductive SnapshotWork where
  | compressing
  | compressed
  | uploading (totalChunks totalBytes : Nat) (checkpoint : UploadCheckpoint)
  | uploaded (chunksCompleted bytesUploaded : Nat) (checkpoint : UploadCheckpoint)
  | verifying
  | completing
  | complete
  | restart

def SnapshotWork.program (around : Surroundings) : SnapshotWork → UploadM Unit
  | compressing => transitionToCompressing around
  | compressed => updateCompressionProgress around
  | uploading totalChunks totalBytes checkpoint =>
    transitionToUploading around totalChunks totalBytes checkpoint
  | uploaded chunksCompleted bytesUploaded checkpoint =>
    updateUploadProgress around chunksCompleted bytesUploaded checkpoint
  | verifying => transitionToVerifying around
  | completing => transitionToCompleting around
  | complete => completeOperation around
  | restart => update fun world => { world with record := world.saved }

def afterSaved (program : UploadM Unit) (world : UploadWorld) : UploadWorld :=
  (program.from ⟨world, [(.succeeds, 0)]⟩).2.state

/-- The record is in storage as it is in memory. -/
structure UploadWorld.Persisted (world : UploadWorld) : Prop where
  sound : world.record.state.Sound
  same : world.saved = world.record

variable {world : UploadWorld}

variable (around : Surroundings)

theorem SnapshotWork.program_spec (work : SnapshotWork) (persisted : world.Persisted)
    : (afterSaved (work.program around) world).Persisted
      ∧ ((afterSaved (work.program around) world).record.state.failures = none
        ∨ (afterSaved (work.program around) world).record.state.failures
          = world.record.state.failures) := by
  cases work with
  | restart =>
    have loaded : world.saved.state.Sound := by
      rw [persisted.same]
      exact persisted.sound
    exact ⟨⟨loaded, rfl⟩, .inr (congrArg (·.state.failures) persisted.same)⟩
  | compressing | uploading | verifying | completing | complete =>
    exact ⟨⟨trivial, rfl⟩, .inl rfl⟩
  | compressed | uploaded =>
    have kept := persisted.sound
    obtain ⟨⟨state, updatedAt, checkpoint⟩, saved, uploads, bodies, objects, closed⟩ := world
    cases state <;> first
      | exact ⟨persisted, .inr rfl⟩
      | exact ⟨⟨trivial, rfl⟩, .inl rfl⟩

theorem failOperation_spec (error : String) (persisted : world.Persisted)
    : (afterSaved (failOperation around error) world).Persisted
      ∧ (afterSaved (failOperation around error) world).record.state.failures
        = some (world.record.state.failures.elim 0 fun n => min (n + 1) (2 ^ 32 - 1)) := by
  obtain ⟨sound, same⟩ := persisted
  obtain ⟨⟨state, updatedAt, checkpoint⟩, saved, uploads, bodies, objects, closed⟩ := world
  cases state <;> exact ⟨⟨by first | exact sound | rfl, rfl⟩, rfl⟩

theorem resetForRetry_spec (persisted : world.Persisted)
    : (afterSaved (resetForRetry around) world).Persisted
      ∧ (afterSaved (resetForRetry around) world).record.state.failures = none := by
  have kept := persisted.sound
  obtain ⟨⟨state, updatedAt, checkpoint⟩, saved, uploads, bodies, objects, closed⟩ := world
  cases state with
  | failed _ _ _ originalState =>
    exact ⟨⟨SnapshotState.sound_of_failures kept, rfl⟩, kept⟩
  | _ => exact ⟨persisted, rfl⟩

def snapshotMachine (config : RetryConfig)
    : Machine UploadWorld (Surroundings × SnapshotWork) (Surroundings × String) where
  count world := world.record.state.failures
  sound := UploadWorld.Persisted
  cap := 2 ^ 32 - 1
  maxRetries := config.maxRetries
  work call := afterSaved (call.2.program call.1)
  fail call := afterSaved (failOperation call.1 call.2)
  reset now := afterSaved (resetForRetry ⟨now, ""⟩)
  shouldRetry now world := shouldRetry config now world.record
  maxRetries_le := by omega
  sound_work call _ persisted := (call.2.program_spec call.1 persisted).1
  sound_fail call _ persisted := (failOperation_spec call.1 call.2 persisted).1
  sound_reset now _ persisted := (resetForRetry_spec ⟨now, ""⟩ persisted).1
  count_work call _ persisted := (call.2.program_spec call.1 persisted).2
  count_fail call _ persisted := (failOperation_spec call.1 call.2 persisted).2
  count_reset now _ persisted := (resetForRetry_spec ⟨now, ""⟩ persisted).2
  below_limit now world granted := by
    unfold shouldRetry at granted
    split at granted
    · next retryCount _ _ entered =>
        rw [Bool.and_eq_true, decide_eq_true_eq] at granted
        exact ⟨retryCount, by rw [entered]; rfl, granted.1⟩
    · cases granted

theorem not_recovers {config record} {n : Nat} (counted : record.state.failures = some n)
    (limit : config.maxRetries ≤ n) (now : Nat)
    : shouldRetry config now record = false ∧ recovers config now record = false := by
  obtain ⟨state, updatedAt, checkpoint⟩ := record
  cases state with
  | failed error retryCount lastAttempt originalState =>
    obtain rfl := Option.some.inj counted
    have closed : shouldRetry config now
        ⟨.failed error retryCount lastAttempt originalState, updatedAt, checkpoint⟩
        = false := by
      simp [shouldRetry, Nat.not_lt.mpr limit]
    exact ⟨closed, by simp [recovers, SnapshotState.isInProgress, closed]⟩
  | _ => cases counted

/-- In a run in which every failure finds the operation failed or is its first, and in one with no
more failures than retries are allowed, retries keep to the limit.
Witness: the count is exact in a run of the first kind, and each retry has a failure of its own.
-/
theorem retries_limited_while_counted (config : RetryConfig) (Checkpoint : Type)
    (maxRetries : Fin (2 ^ 32))
    : (∀ (around : Surroundings) (calls : List (Call _ _)),
        let after := calls.foldl (snapshotMachine config).step ⟨startOperation around, 0, 0⟩
        Along (snapshotMachine config).step (snapshotMachine config).Counted
          ⟨startOperation around, 0, 0⟩ calls ∨ after.failures ≤ config.maxRetries →
        after.granted ≤ config.maxRetries
        ∧ (after.state.record.state.failures ≠ none → config.maxRetries < after.failures →
          ∀ now, shouldRetry config now after.state.record = false
            ∧ recovers config now after.state.saved = false))
      ∧ (∀ now walLsn interval (calls : List (Call _ _)),
        let machine := Rebuild.rebuildMachine Checkpoint maxRetries
        let start := Rebuild.PersistentRebuildStateMachine.startOperation now walLsn interval
        let after := calls.foldl machine.step ⟨start, 0, 0⟩
        Along machine.step machine.Counted ⟨start, 0, 0⟩ calls ∨ after.failures ≤ maxRetries →
        after.granted ≤ maxRetries
        ∧ (after.state.record.phase.failures ≠ none → maxRetries < after.failures →
          Rebuild.PersistentRebuildStateMachine.shouldRetry maxRetries after.state.record = false
          ∧ Rebuild.PersistentRebuildStateMachine.recovers maxRetries after.state.saved
            = false)) := by
  constructor
  · intro around calls after permitted
    have started : (startOperation around).Persisted := ⟨trivial, rfl⟩
    obtain ⟨persisted, granted, limited⟩ :=
      @Machine.retries_limited _ _ _ (snapshotMachine config) _ started rfl _ permitted
    refine ⟨granted, fun failed many now => ?_⟩
    obtain ⟨n, counted⟩ := Option.ne_none_iff_exists'.mp failed
    have closed := not_recovers counted (limited n counted many) now
    exact ⟨closed.1, persisted.same ▸ closed.2⟩
  · intro now walLsn interval calls machine start after permitted
    have started : start.Sound := ⟨trivial, trivial, rfl⟩
    obtain ⟨sound, granted, limited⟩ :=
      @Machine.retries_limited _ _ _ machine _ started rfl _ permitted
    refine ⟨granted, fun failed many => ?_⟩
    obtain ⟨n, counted⟩ := Option.ne_none_iff_exists'.mp failed
    have limit := limited n counted many
    exact ⟨(Rebuild.not_recovers counted limit).1,
      (Rebuild.not_recovers (sound.same.trans counted) limit).2⟩

/-- Failures of failed operations are counted: after two, with one retry allowed, none is
recovered. -/
theorem counted_failures_end
    : let config : RetryConfig := ⟨1, [60]⟩
      let around : Surroundings := ⟨0, ""⟩
      (recovers config 1000 ([Call.fail (around, "lost"), .fail (around, "lost")].foldl
          (snapshotMachine config).step ⟨startOperation around, 0, 0⟩).state.saved = false)
        ∧ Rebuild.PersistentRebuildStateMachine.recovers 1
          ([Call.fail (0, "lost"), .fail (0, "lost")].foldl (Rebuild.rebuildMachine Unit 1).step
            ⟨Rebuild.PersistentRebuildStateMachine.startOperation 0 0 1, 0, 0⟩).state.saved
          = false := by
  have limited := retries_limited_while_counted ⟨1, [60]⟩ Unit 1
  constructor
  · exact ((limited.1 ⟨0, ""⟩ [.fail (⟨0, ""⟩, "lost"), .fail (⟨0, ""⟩, "lost")]
      (.inl (by decide))).2 (by decide) (by decide) 1000).2
  · exact ((limited.2 0 0 1 [.fail (0, "lost"), .fail (0, "lost")] (.inl (by decide))).2
      (by decide) (by decide)).2

/-- With one retry allowed, an operation that fails again after it is granted another. -/
theorem retry_forgets_failures
    : let config : RetryConfig := ⟨1, [60]⟩
      let around : Nat → Surroundings := fun now => ⟨now, ""⟩
      let calls := [Call.work (around 0, SnapshotWork.compressing), .fail (around 0, "lost"),
        .reset 60, .fail (around 60, "lost"), .reset 120, .fail (around 120, "lost")]
      let after := calls.foldl (snapshotMachine config).step ⟨startOperation (around 0), 0, 0⟩
      let rebuild := [Call.fail (0, "lost"), .reset 0, .fail (0, "lost"), .reset 0,
        .fail (0, "lost")].foldl (Rebuild.rebuildMachine Unit 1).step
          ⟨Rebuild.PersistentRebuildStateMachine.startOperation 0 0 1, 0, 0⟩
      (after.granted = 2 ∧ recovers config 180 after.state.saved = true)
        ∧ rebuild.granted = 2
        ∧ Rebuild.PersistentRebuildStateMachine.recovers 1 rebuild.state.saved = true := by
  decide

end AkiDB.Snapshot
