import AkiDB.Common.Error
import AkiDB.Library.Checked
import AkiDB.Library.Unsigned
import AkiDB.Wal.Records

/-! The write-ahead log on one path: opening, appending, reading, truncating and closing it. -/

namespace AkiDB.Wal
open AkiDB.Common ByteFraming Checked Unsigned

inductive WalSyncMode where
  | sync
  | batchSync
  | noSync
  deriving DecidableEq

/-- The file at the log's path, and whether one of an unfinished truncation lies beside it. -/
structure Disk where
  file : Option Bytes
  tempFile : Bool
  deriving DecidableEq

structure WriteAheadLog where
  file : Bytes
  tempFile : Bool
  currentLsn : UInt64
  /-- The bytes that the writer holds back, while there is a writer. -/
  writer : Option Bytes
  syncMode : WalSyncMode
  deriving DecidableEq

/-- What an append takes from outside: the clock, and the bytes the buffered writer passes on. -/
structure Moment where
  timestamp : UInt64
  passedOn : Nat

def findMaxLsn (codec : Bincode) : Option Bytes → UInt64
  | none => 0
  | some file =>
    (readEntriesFromReader codec file).foldl
      (fun maxLsn entry => if entry.lsn > maxLsn then entry.lsn else maxLsn) 0

namespace WriteAheadLog

variable (codec : Bincode)

/-- Open or create the log. Left over temporary files are removed. -/
def openLog (disk : Disk) (syncMode : WalSyncMode) : WriteAheadLog :=
  { file := disk.file.getD [],
    tempFile := false,
    currentLsn := saturatingAddWord (findMaxLsn codec disk.file) 1,
    writer := some [],
    syncMode }

variable (moment : Moment) (log : WriteAheadLog)

def nextLsn : Except AkiDbError (UInt64 × WriteAheadLog) := do
  let following ← okOr (checkedAddWord log.currentLsn 1) (.storageError "WAL LSN space exhausted")
  pure (log.currentLsn, { log with currentLsn := following })

-- the length fits its four bytes below the limit on entries
def writeEntryLocked (entry : WalEntry) : Except AkiDbError WriteAheadLog := do
  let data ← (codec.serialize entry).mapError .serializationError
  let size := data.length
  rejectIf (size > maxWalEntryBytes) (.invalidParameter
    s!"WAL entry too large: {size} bytes exceeds maximum of {maxWalEntryBytes} bytes")
  let pending ← okOr log.writer (.storageError "WAL writer closed")
  let bytes := pending ++ record data
  match log.syncMode with
  | .sync => pure { log with file := log.file ++ bytes, writer := some [] }
  | .batchSync | .noSync =>
    pure { log with
      file := log.file ++ bytes.take moment.passedOn,
      writer := some (bytes.drop moment.passedOn) }

/-- Allocate the next LSN and write the entry; the LSN stays allocated when the write fails. -/
def appendEntry (build : UInt64 → WalEntry) : Except AkiDbError WalEntry × WriteAheadLog :=
  match log.nextLsn with
  | .error error => (.error error, log)
  | .ok (lsn, allocated) =>
    match allocated.writeEntryLocked codec moment (build lsn) with
    | .error error => (.error error, allocated)
    | .ok written => (.ok (build lsn), written)

def validateInsert (vector : List UInt32) (metadata : Option Bytes)
    : Except AkiDbError Unit := do
  let dimensions := vector.length
  rejectIf (dimensions > maxVectorDimensions) (.invalidParameter
    s!"Vector has {dimensions} dimensions, maximum allowed is {maxVectorDimensions}")
  match metadata with
  | none => pure ()
  | some bytes =>
    let size := bytes.length
    rejectIf (size > maxMetadataBytes) (.invalidParameter
      s!"Metadata is {size} bytes, maximum allowed is {maxMetadataBytes} bytes")

def appendInsert
    (externalId : String) (internalId : Int64) (vector : List UInt32) (metadata : Option Bytes)
    : Except AkiDbError UInt64 × WriteAheadLog :=
  match validateInsert vector metadata with
  | .error error => (.error error, log)
  | .ok () =>
    let appended := log.appendEntry codec moment
      fun lsn => .insert lsn externalId internalId vector metadata moment.timestamp
    (appended.1.map WalEntry.lsn, appended.2)

def appendDelete
    (externalId : String) (internalId : Int64) : Except AkiDbError UInt64 × WriteAheadLog :=
  let appended := log.appendEntry codec moment
    fun lsn => .delete lsn externalId internalId moment.timestamp
  (appended.1.map WalEntry.lsn, appended.2)

def appendCheckpoint : Except AkiDbError UInt64 × WriteAheadLog :=
  let appended := log.appendEntry codec moment fun lsn => .checkpoint lsn moment.timestamp
  (appended.1.map WalEntry.lsn, appended.2)

end WriteAheadLog

inductive AppendCall where
  | insert (externalId : String) (internalId : Int64) (vector : List UInt32)
      (metadata : Option Bytes)
  | delete (externalId : String) (internalId : Int64)
  | checkpoint

def AppendCall.entry (call : AppendCall) (timestamp lsn : UInt64) : WalEntry :=
  match call with
  | insert externalId internalId vector metadata =>
    .insert lsn externalId internalId vector metadata timestamp
  | delete externalId internalId => .delete lsn externalId internalId timestamp
  | checkpoint => .checkpoint lsn timestamp

namespace WriteAheadLog

def append (codec : Bincode) (moment : Moment) (log : WriteAheadLog)
    : AppendCall → Except AkiDbError UInt64 × WriteAheadLog
  | .insert externalId internalId vector metadata =>
    log.appendInsert codec moment externalId internalId vector metadata
  | .delete externalId internalId => log.appendDelete codec moment externalId internalId
  | .checkpoint => log.appendCheckpoint codec moment

def appendAll (codec : Bincode)
    : WriteAheadLog → List (AppendCall × Moment) → List WalEntry × WriteAheadLog
  | log, [] => ([], log)
  | log, (call, moment) :: rest =>
    match log.append codec moment call with
    | (.ok lsn, appended) =>
      let later := appended.appendAll codec rest
      (call.entry moment.timestamp lsn :: later.1, later.2)
    | (.error _, left) => left.appendAll codec rest

def flush (log : WriteAheadLog) : WriteAheadLog :=
  match log.writer with
  | none => log
  | some pending => { log with file := log.file ++ pending, writer := some [] }

def close (log : WriteAheadLog) : Disk :=
  { file := some (log.file ++ log.writer.getD []), tempFile := log.tempFile }

def readEntries (codec : Bincode) (log : WriteAheadLog) : List WalEntry :=
  readEntriesFromReader codec log.file

def readEntriesSince (codec : Bincode) (log : WriteAheadLog) (startLsn : UInt64)
    : List WalEntry :=
  (log.readEntries codec).filter (·.lsn > startLsn)

end WriteAheadLog

inductive TruncateStep where
  | openForReading
  | createTemp
  | writeTemp
  | flushTemp
  | syncTemp
  | renameTemp
  | reopen
  deriving DecidableEq

/-- A failing file access, with the error of the operating system. -/
structure TruncateFault where
  step : TruncateStep
  error : String

/-- What fails in a truncation: an access that stops it, the flush of the dropped writer behind some
of its bytes, and the read of the old log behind some of its bytes. -/
structure TruncateFaults where
  stopping : Option TruncateFault := none
  dropped : Option Nat := none
  unreadable : Option Nat := none

/-- The rewritten log is renamed into place: nothing stops the truncation, or its last access. -/
def TruncateFaults.Replaces (faults : TruncateFaults) : Prop :=
  ∀ fault ∈ faults.stopping, fault.step = .reopen

instance (faults : TruncateFaults) : Decidable faults.Replaces :=
  inferInstanceAs (Decidable (∀ fault ∈ faults.stopping, _))

/-- The file once the writer is dropped; the error of its flush is lost. -/
def WriteAheadLog.remaining (log : WriteAheadLog) (dropped : Option Nat) : Bytes :=
  let pending := log.writer.getD []
  log.file ++ dropped.elim pending (pending.take ·)

/-- Stop at the failing access. -/
def failAt (fault : Option TruncateFault) (step : TruncateStep)
    (report : String → AkiDbError) (log : WriteAheadLog)
    : Except (AkiDbError × WriteAheadLog) Unit :=
  match fault with
  | none => .ok ()
  | some fault => if fault.step = step then .error (report fault.error, log) else .ok ()

def rewriteEntries (codec : Bincode) : List WalEntry → Except AkiDbError Bytes
  | [] => pure []
  | entry :: rest => do
    let data ← (codec.serialize entry).mapError .serializationError
    let size := data.length
    rejectIf (size ≥ 2 ^ 32) (.invalidParameter
      s!"WAL entry too large during truncation: {size} bytes exceeds u32::MAX")
    let later ← rewriteEntries codec rest
    pure (record data ++ later)

/-- The stages of a truncation; a failure comes with the log as it leaves it. -/
def truncateStages (codec : Bincode) (log : WriteAheadLog) (checkpointLsn : UInt64)
    (faults : TruncateFaults) : Except (AkiDbError × WriteAheadLog) WriteAheadLog := do
  let fault := faults.stopping
  let closed := { log with file := log.remaining faults.dropped, writer := none }
  failAt fault .openForReading
    (fun error => .storageError s!"Failed to open WAL for reading: {error}") closed
  let kept := (readEntriesFailing codec closed.file faults.unreadable).filter
    (·.lsn > checkpointLsn)
  failAt fault .createTemp
    (fun error => .storageError s!"Failed to create temp WAL: {error}") closed
  let created := { closed with tempFile := true }
  let bytes ← (rewriteEntries codec kept).mapError (·, created)
  failAt fault .writeTemp (fun error => .storageError s!"WAL write error: {error}") created
  failAt fault .flushTemp (fun error => .storageError s!"WAL flush error: {error}") created
  failAt fault .syncTemp (fun error => .storageError s!"WAL sync error: {error}") created
  failAt fault .renameTemp
    (fun error => .storageError s!"Failed to rename temp WAL: {error}") created
  let renamed := { created with file := bytes, tempFile := false }
  failAt fault .reopen (fun error => .storageError s!"Failed to reopen WAL: {error}") renamed
  pure { renamed with writer := some [] }

def WriteAheadLog.truncateTo (codec : Bincode) (log : WriteAheadLog) (checkpointLsn : UInt64)
    (faults : TruncateFaults) : Except AkiDbError Unit × WriteAheadLog :=
  match truncateStages codec log checkpointLsn faults with
  | .error (error, left) => (.error error, left)
  | .ok truncated => (.ok (), truncated)

end AkiDB.Wal
