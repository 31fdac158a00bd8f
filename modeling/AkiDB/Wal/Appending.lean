import AkiDB.Wal.Log
import AkiDB.Wal.Reading

/-!
An append fails and writes nothing, or it puts one complete record behind everything written
before.
-/

namespace AkiDB.Wal
open AkiDB.Common ByteFraming Checked Unsigned List

variable {codec : Bincode}

theorem AppendCall.lsn_entry (call : AppendCall) (timestamp lsn : UInt64)
    : (call.entry timestamp lsn).lsn = lsn := by
  cases call <;> rfl

namespace WriteAheadLog

/-- Everything written to the log, also what its writer holds back. -/
def contents (log : WriteAheadLog) : Bytes :=
  log.file ++ log.writer.getD []

def Flushed (log : WriteAheadLog) : Prop :=
  log.writer.getD [] = []

def Exhausted (log : WriteAheadLog) : Prop :=
  range64 ≤ log.currentLsn.toNat + 1

/-- A failed append: at most the LSN moved on. -/
structure Refused (log after : WriteAheadLog) : Prop where
  file : after.file = log.file
  writer : after.writer = log.writer
  syncMode : after.syncMode = log.syncMode
  lsn : log.currentLsn.toNat ≤ after.currentLsn.toNat

/-- An append that put one record behind the others. -/
structure Appended (log after : WriteAheadLog) (stored : StoredEntry codec) : Prop where
  contents : after.contents = log.contents ++ stored.bytes
  isOpen : after.writer.isSome
  flushed : log.syncMode = .sync → after.Flushed
  syncMode : after.syncMode = log.syncMode
  lsn : after.currentLsn.toNat = log.currentLsn.toNat + 1

theorem Refused.refl (log : WriteAheadLog) : Refused log log where
  file := rfl
  writer := rfl
  syncMode := rfl
  lsn := le_refl _

variable {log : WriteAheadLog}

theorem Refused.contents {after} (refused : log.Refused after)
    : after.contents = log.contents := by
  simp only [WriteAheadLog.contents, refused.file, refused.writer]

theorem flush_contents (log : WriteAheadLog) : log.flush.contents = log.contents := by
  cases writer : log.writer <;> simp [flush, contents, writer]

theorem flush_currentLsn (log : WriteAheadLog) : log.flush.currentLsn = log.currentLsn := by
  cases writer : log.writer <;> simp [flush, writer]

theorem nextLsn_of_exhausted (exhausted : log.Exhausted)
    : log.nextLsn = .error (.storageError "WAL LSN space exhausted") := by
  have full : ¬log.currentLsn.toNat + UInt64.toNat 1 < range64 := Nat.not_lt.mpr exhausted
  simp only [nextLsn, checkedAddWord, if_neg full]
  rfl

theorem nextLsn_of_room (room : ¬log.Exhausted)
    : log.nextLsn = .ok (log.currentLsn, { log with currentLsn := log.currentLsn + 1 })
      ∧ (log.currentLsn + 1).toNat = log.currentLsn.toNat + 1 := by
  have small : log.currentLsn.toNat + UInt64.toNat 1 < range64 := Nat.not_le.mp room
  refine ⟨?_, toNat_add_of_lt small⟩
  simp only [nextLsn, checkedAddWord, if_pos small]
  rfl

theorem writeEntryLocked_eq_ok {after moment entry}
    (writes : log.writeEntryLocked codec moment entry = .ok after)
    : ∃ stored : StoredEntry codec,
        stored.entry = entry ∧ after.contents = log.contents ++ stored.bytes
        ∧ after.writer.isSome ∧ (log.syncMode = .sync → after.Flushed)
        ∧ after.syncMode = log.syncMode ∧ after.currentLsn = log.currentLsn := by
  simp only [writeEntryLocked, bind_eq_ok, mapError_eq_ok, exists_unit, rejectIf_eq_ok,
    okOr_eq_ok, not_lt] at writes
  obtain ⟨data, serialized, fits, pending, writer, result⟩ := writes
  refine ⟨⟨entry, data, serialized, fits⟩, rfl, ?_⟩
  simp only [StoredEntry.bytes]
  cases mode : log.syncMode with
  | sync =>
    simp only [mode, pure_eq_ok] at result
    subst result
    simp [contents, Flushed, writer]
  | batchSync =>
    simp only [mode, pure_eq_ok] at result
    subst result
    simp [contents, writer, append_assoc]
  | noSync =>
    simp only [mode, pure_eq_ok] at result
    subst result
    simp [contents, writer, append_assoc]

theorem appendEntry_cases (codec : Bincode) (moment : Moment) (log : WriteAheadLog)
    (build : UInt64 → WalEntry)
    : (∃ error after, log.appendEntry codec moment build = (.error error, after)
        ∧ Refused log after)
      ∨ ∃ after, ∃ stored : StoredEntry codec,
          log.appendEntry codec moment build = (.ok (build log.currentLsn), after)
          ∧ stored.entry = build log.currentLsn ∧ Appended log after stored := by
  unfold appendEntry
  by_cases room : log.Exhausted
  · rw [nextLsn_of_exhausted room]
    exact .inl ⟨_, log, rfl, .refl log⟩
  · obtain ⟨allocates, advanced⟩ := nextLsn_of_room room
    rw [allocates]
    simp only []
    cases writes : writeEntryLocked codec moment
        { log with currentLsn := log.currentLsn + 1 } (build log.currentLsn) with
    | error error =>
      refine .inl ⟨error, _, rfl, ?_⟩
      exact { file := rfl, writer := rfl, syncMode := rfl, lsn := by simp [advanced] }
    | ok after =>
      obtain ⟨stored, entry, contents, isOpen, flushed, syncMode, lsn⟩ :=
        writeEntryLocked_eq_ok writes
      refine .inr ⟨after, stored, rfl, entry, ?_⟩
      exact { contents, isOpen, flushed, syncMode, lsn := by rw [lsn, advanced] }

theorem append_eq (codec : Bincode) (moment : Moment) (log : WriteAheadLog) (call : AppendCall)
    : (∃ error, log.append codec moment call = (.error error, log))
      ∨ log.append codec moment call
        = ((log.appendEntry codec moment (call.entry moment.timestamp)).1.map WalEntry.lsn,
          (log.appendEntry codec moment (call.entry moment.timestamp)).2) := by
  cases call with
  | insert externalId internalId vector metadata =>
    cases checked : validateInsert vector metadata with
    | error error => exact .inl ⟨error, by simp only [append, appendInsert, checked]⟩
    | ok => exact .inr (by simp only [append, appendInsert, checked]; rfl)
  | delete externalId internalId => exact .inr rfl
  | checkpoint => exact .inr rfl

theorem append_cases (codec : Bincode) (moment : Moment) (log : WriteAheadLog) (call : AppendCall)
    : (∃ error after, log.append codec moment call = (.error error, after) ∧ Refused log after)
      ∨ ∃ after, ∃ stored : StoredEntry codec,
          log.append codec moment call = (.ok log.currentLsn, after)
          ∧ stored.entry = call.entry moment.timestamp log.currentLsn
          ∧ Appended log after stored := by
  rcases append_eq codec moment log call with ⟨error, rejected⟩ | same
  · exact .inl ⟨error, log, rejected, .refl log⟩
  rcases appendEntry_cases codec moment log (call.entry moment.timestamp) with
    ⟨error, after, failed, refused⟩ | ⟨after, stored, written, entry, appended⟩
  · exact .inl ⟨error, after, by rw [same, failed]; rfl, refused⟩
  · refine .inr ⟨after, stored, ?_, entry, appended⟩
    rw [same, written]
    exact Prod.ext (congrArg Except.ok (AppendCall.lsn_entry _ _ _)) rfl

theorem append_of_exhausted (codec : Bincode) (exhausted : log.Exhausted) (moment : Moment)
    (call : AppendCall)
    : ∃ error, log.append codec moment call = (.error error, log) := by
  rcases append_eq codec moment log call with rejected | same
  · exact rejected
  · rw [same, appendEntry, nextLsn_of_exhausted exhausted]
    exact ⟨_, rfl⟩

theorem append_checkpoint_ok (codec : Bincode) {pending} (room : ¬log.Exhausted)
    (writer : log.writer = some pending) (moment : Moment)
    : ∃ after, log.append codec moment .checkpoint = (.ok log.currentLsn, after) := by
  obtain ⟨data, serialized, length⟩ :=
    codec.serialize_checkpoint log.currentLsn moment.timestamp
  have small : ¬maxWalEntryBytes < data.length := by
    rw [length]
    decide
  have writes : ∃ after, writeEntryLocked codec moment
      { log with currentLsn := log.currentLsn + 1 }
      (.checkpoint log.currentLsn moment.timestamp) = .ok after := by
    simp only [writeEntryLocked, serialized, Except.mapError, ok_bind, rejectIf, small, if_false,
      writer, okOr, gt_iff_lt]
    cases log.syncMode <;> exact ⟨_, rfl⟩
  obtain ⟨after, written⟩ := writes
  refine ⟨after, ?_⟩
  simp only [append, appendCheckpoint, appendEntry, (nextLsn_of_room room).1, written]
  rfl

theorem appendAll_sync (codec : Bincode) (sync : log.syncMode = .sync) (flushed : log.Flushed)
    (calls : List (AppendCall × Moment))
    : ∃ records : List (StoredEntry codec), (log.appendAll codec calls).1 = storedEntries records
        ∧ (log.appendAll codec calls).2.file = log.file ++ logBytes records := by
  induction calls generalizing log with
  | nil => exact ⟨[], rfl, by simp [appendAll, logBytes]⟩
  | cons head rest ih =>
    obtain ⟨call, moment⟩ := head
    rcases append_cases codec moment log call with
      ⟨error, after, failed, refused⟩ | ⟨after, stored, succeeded, entry, appended⟩
    · have stillFlushed : after.Flushed := by
        rw [Flushed, refused.writer]
        exact flushed
      obtain ⟨records, acknowledged, file⟩ := ih (refused.syncMode.trans sync) stillFlushed
      refine ⟨records, ?_, ?_⟩
      · simpa only [appendAll, failed] using acknowledged
      · simpa only [appendAll, failed, refused.file] using file
    · have stillFlushed := appended.flushed sync
      have grown : after.file = log.file ++ stored.bytes := by
        have contents := appended.contents
        rw [Flushed] at flushed stillFlushed
        simpa only [WriteAheadLog.contents, flushed, stillFlushed, append_nil] using contents
      obtain ⟨records, acknowledged, file⟩ := ih (appended.syncMode.trans sync) stillFlushed
      refine ⟨stored :: records, ?_, ?_⟩
      · simp only [appendAll, succeeded, acknowledged, ← entry]
        rfl
      · simp only [appendAll, succeeded, file, grown, append_assoc]
        rfl

theorem appendAll_of_exhausted (codec : Bincode) (exhausted : log.Exhausted)
    (calls : List (AppendCall × Moment))
    : log.appendAll codec calls = ([], log) := by
  induction calls with
  | nil => rfl
  | cons head rest ih =>
    obtain ⟨call, moment⟩ := head
    obtain ⟨error, failed⟩ := append_of_exhausted codec exhausted moment call
    simpa only [appendAll, failed] using ih

/-- Sessions in sync mode, each ended by a crash after its last call. -/
def crashedSessions (codec : Bincode)
    : Disk → List (List (AppendCall × Moment)) → List WalEntry × Disk
  | disk, [] => ([], disk)
  | disk, calls :: rest =>
    let (acknowledged, log) := (openLog codec disk .sync).appendAll codec calls
    let later := crashedSessions codec ⟨some log.file, log.tempFile⟩ rest
    (acknowledged ++ later.1, later.2)

/-- What was acknowledged in sync mode is read back in order, whatever crashes came between.
Witness: an acknowledged record is complete in the file.
-/
theorem acknowledged_survive_crashes (codec : Bincode) (records : List (StoredEntry codec))
    (tempFile : Bool) (sessions : List (List (AppendCall × Moment))) (syncMode : WalSyncMode)
    : let crashed := crashedSessions codec ⟨some (logBytes records), tempFile⟩ sessions
      (openLog codec crashed.2 syncMode).readEntries codec
        = storedEntries records ++ crashed.1 := by
  induction sessions generalizing records tempFile with
  | nil => simp [crashedSessions, openLog, readEntries, readEntries_logBytes]
  | cons calls rest ih =>
    let log := openLog codec ⟨some (logBytes records), tempFile⟩ .sync
    obtain ⟨added, acknowledged, file⟩ := appendAll_sync codec (rfl : log.syncMode = .sync) rfl calls
    have grown : (log.appendAll codec calls).2.file = logBytes (records ++ added) := by
      rw [file, logBytes_append]
      rfl
    simp only [crashedSessions, log, acknowledged, grown, ih, storedEntries_append, append_assoc]

end WriteAheadLog

end AkiDB.Wal
