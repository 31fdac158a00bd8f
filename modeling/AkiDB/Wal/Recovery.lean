import AkiDB.Wal.Appending

/-!
Appending behind a torn final record: the reader takes the next record's first bytes for the
missing ones.
-/

namespace AkiDB.Wal
open AkiDB.Common ByteFraming ByteStream Checked Unsigned List WriteAheadLog

variable {codec : Bincode}

/-- What a crash leaves of a record that was being written. -/
structure TornTail (codec : Bincode) where
  bytes : Bytes
  whole : StoredEntry codec
  isFront : bytes <+: whole.bytes
  proper : bytes ≠ whole.bytes

/-- How far the write of a record got: into its magic, its length, or its data. -/
inductive TornAt : Bytes → Prop
  | magic {front : Bytes} (short : front.length < 4) (isFront : front <+: walEntryMagic)
      : TornAt front
  | length {front : Bytes} (short : front.length < 4) : TornAt (walEntryMagic ++ front)
  | data {lenBuf front : Bytes} (four : lenBuf.length = 4)
      (accepted : leValue lenBuf ≤ maxWalEntryBytes) (short : front.length < leValue lenBuf + 4)
      : TornAt (walEntryMagic ++ (lenBuf ++ front))

variable (complete : List (StoredEntry codec)) (tail : TornTail codec)

theorem TornTail.tornAt : TornAt tail.bytes := by
  obtain ⟨bytes, whole, isFront, proper⟩ := tail
  have shorter : bytes.length < whole.bytes.length := by
    refine lt_of_le_of_ne isFront.length_le ?_
    intro same
    exact proper (isFront.eq_of_length same)
  have split : whole.bytes = walEntryMagic
      ++ (leBytes 4 whole.data.length ++ (whole.data ++ leBytes 4 (crc32 whole.data).toNat)) := by
    simp [StoredEntry.bytes, record]
  rw [split] at isFront shorter
  rcases prefix_append_cases isFront with ⟨inMagic, short⟩ | ⟨afterMagic, rfl, inBody⟩
  · exact .magic short inMagic
  rcases prefix_append_cases inBody with ⟨_, short⟩ | ⟨afterLength, rfl, _⟩
  · exact .length (by simpa using short)
  have fits := whole.fits
  have value : leValue (leBytes 4 whole.data.length) = whole.data.length := by
    apply leValue_leBytes
    simp only [maxWalEntryBytes] at fits
    omega
  refine .data (leBytes_length 4 _) (by rw [value]; exact fits) ?_
  simp only [length_append, leBytes_length] at shorter
  omega

/-! Reading a torn record -/

variable {mode : ReaderMode} {lenBuf rest torn : Bytes} {entry : WalEntry}

theorem readTurn_magic (reading : mode ≠ .corruptionRecovery) (body : Bytes)
    : readTurn codec mode (walEntryMagic ++ body) = readAfterMagic codec body := by
  have magic : readExact 4 (walEntryMagic ++ body) = some (walEntryMagic, body) :=
    readExact_append body rfl
  cases mode with
  | corruptionRecovery => exact absurd rfl reading
  | fileStart => simp only [readTurn, magic, if_true]
  | expectMagic => simp only [readTurn, magic, if_true]

/-- Behind an accepted length the reader consumes the data and the checksum, or the whole
file. -/
theorem readAfterMagic_corrupted {stream} (four : lenBuf.length = 4)
    (accepted : leValue lenBuf ≤ maxWalEntryBytes)
    (turn : readAfterMagic codec (lenBuf ++ stream) = .corrupted rest)
    : rest = [] ∨ leValue lenBuf + 4 + rest.length = stream.length := by
  simp only [readAfterMagic, readExact_append stream four, if_neg (Nat.not_lt.mpr accepted)] at turn
  cases dataRead : readExact (leValue lenBuf) stream with
  | none =>
    simp only [dataRead, ReaderTurn.corrupted.injEq] at turn
    exact .inl turn.symm
  | some parts =>
    obtain ⟨data, afterData⟩ := parts
    simp only [dataRead] at turn
    cases checksumRead : readExact 4 afterData with
    | none =>
      simp only [checksumRead, ReaderTurn.corrupted.injEq] at turn
      exact .inl turn.symm
    | some parts =>
      obtain ⟨checksumBuf, later⟩ := parts
      obtain ⟨size, rfl⟩ := readExact_eq_some.mp dataRead
      obtain ⟨checksum, rfl⟩ := readExact_eq_some.mp checksumRead
      have same : later = rest := by
        simp only [checksumRead] at turn
        split at turn
        · cases turn
          rfl
        · split at turn <;> cases turn
          rfl
      subst same
      refine .inr ?_
      simp only [length_append]
      omega

/-- An entry behind a length comes from that many bytes. -/
theorem readAfterMagic_entry_data {stream} (four : lenBuf.length = 4)
    (turn : readAfterMagic codec (lenBuf ++ stream) = .entry entry rest)
    : ∃ data, data <+: stream ∧ leValue lenBuf + 4 + rest.length = stream.length
        ∧ codec.deserialize data = .ok entry := by
  obtain ⟨lenBuf', data, checksumBuf, four', size, checksum, split, decoded, _⟩ :=
    readAfterMagic_entry turn
  obtain ⟨rfl, rfl⟩ := append_inj split (four.trans four'.symm)
  refine ⟨data, prefix_append _ _, ?_, decoded⟩
  simp only [length_append]
  omega

/-- A torn record at the end of the file yields nothing. -/
theorem entriesFrom_torn (reading : mode ≠ .corruptionRecovery) (tornAt : TornAt torn)
    : entriesFrom codec mode torn = [] := by
  cases tornAt with
  | magic short isFront =>
    have ends : readTurn codec mode torn = .finished := by
      have none := readExact_eq_none.mpr short
      cases mode with
      | corruptionRecovery => exact absurd rfl reading
      | fileStart => simp only [readTurn, none]
      | expectMagic => simp only [readTurn, none]
    rw [entriesFrom_eq, ends]
  | @length front short =>
    have ends : readAfterMagic codec front = .finished := by
      simp only [readAfterMagic, readExact_eq_none.mpr short]
    rw [entriesFrom_eq, readTurn_magic reading, ends]
  | @data lenBuf front four accepted short =>
    rw [entriesFrom_eq, readTurn_magic reading]
    cases turn : readAfterMagic codec (lenBuf ++ front) with
    | finished => rfl
    | corrupted rest =>
      rcases readAfterMagic_corrupted four accepted turn with rfl | length
      · exact entriesFrom_nil _
      · omega
    | entry entry rest =>
      obtain ⟨_, _, length, _⟩ := readAfterMagic_entry_data four turn
      omega

theorem not_mem_recovery {data unread} (serialized : codec.serialize entry = .ok data)
    (few : unread.length < data.length + 12)
    : entry ∉ entriesFrom codec .corruptionRecovery unread := by
  intro read
  obtain ⟨same, serializedToo, enough⟩ :=
    mem_entriesFrom_length (nofun : .corruptionRecovery ≠ ReaderMode.fileStart) read
  rw [serialized] at serializedToo
  cases serializedToo
  omega

/-- What the reader takes for the torn record's data before it reaches the next data. -/
def tornStep (torn : Bytes) (size : Nat) : Bytes :=
  torn.drop 8 ++ (walEntryMagic ++ leBytes 4 size)

theorem StoredEntry.bytes_split (stored : StoredEntry codec)
    : ∃ body, stored.bytes = walEntryMagic ++ body ∧ body.length = stored.data.length + 8 := by
  refine ⟨leBytes 4 stored.data.length ++ stored.data
    ++ leBytes 4 (crc32 stored.data).toNat, ?_, ?_⟩
  · simp [StoredEntry.bytes, record]
  · simp only [length_append, leBytes_length]
    omega

theorem readAfterMagic_of_large {first second third fourth}
    (large : maxWalEntryBytes < leValue [first, second, third, fourth])
    : readAfterMagic codec (first :: second :: third :: fourth :: rest) = .corrupted rest := by
  have read : readExact 4 (first :: second :: third :: fourth :: rest)
      = some ([first, second, third, fourth], rest) :=
    readExact_append rest (rfl : [first, second, third, fourth].length = 4)
  simp only [readAfterMagic, read, gt_iff_lt, if_pos large]

section
variable (reading : mode ≠ .corruptionRecovery)
include reading

/-- A record behind one torn in its magic is not read: its magic is taken for the rest. -/
theorem not_read_behind_magic (nonempty : torn ≠ [])
    (short : torn.length < 4) (isFront : torn <+: walEntryMagic) (stored : StoredEntry codec)
    : stored.entry ∉ entriesFrom codec mode (torn ++ stored.bytes) := by
  obtain ⟨body, split, length⟩ := stored.bytes_split
  have damaged : ∃ rest, readTurn codec mode (torn ++ stored.bytes) = .corrupted rest
      ∧ rest.length < stored.data.length + 12 := by
    have torns : torn = [0xAA] ∨ torn = [0xAA, 0x4B] ∨ torn = [0xAA, 0x4B, 0x44] := by
      rw [prefix_iff_eq_take] at isFront
      have positive := length_pos_iff.mpr nonempty
      generalize torn.length = count at isFront short positive
      obtain rfl | rfl | rfl : count = 1 ∨ count = 2 ∨ count = 3 := by omega
      all_goals simp [isFront, walEntryMagic]
    rw [split]
    rcases torns with rfl | rfl | rfl
    · refine ⟨0x01 :: body, ?_, by simp only [length_cons]; omega⟩
      cases mode <;> first | exact absurd rfl reading | rfl
    · refine ⟨0x44 :: 0x01 :: body, ?_, by simp only [length_cons]; omega⟩
      cases mode <;> first | exact absurd rfl reading | rfl
    · refine ⟨0x4B :: 0x44 :: 0x01 :: body, ?_, by simp only [length_cons]; omega⟩
      cases mode <;> first | exact absurd rfl reading | rfl
  obtain ⟨rest, turn, few⟩ := damaged
  rw [entriesFrom_eq, turn]
  exact not_mem_recovery stored.serialized few

/-- A record behind a record torn in its length is not read: its magic completes the length. -/
theorem not_read_behind_length {front} (short : front.length < 4) (stored : StoredEntry codec)
    (small : stored.data.length + 8 < leValue walEntryMagic)
    : stored.entry ∉ entriesFrom codec mode (walEntryMagic ++ front ++ stored.bytes) := by
  obtain ⟨body, split, length⟩ := stored.bytes_split
  have damaged : ∃ rest, readAfterMagic codec (front ++ stored.bytes) = .corrupted rest
      ∧ rest.length < stored.data.length + 12 := by
    rw [split]
    match front, short with
    | [], _ =>
      refine ⟨[], ?_, by simp⟩
      have few : body.length < leValue walEntryMagic := by omega
      have within : ¬leValue walEntryMagic > maxWalEntryBytes := by decide
      have read : readExact 4 (walEntryMagic ++ body) = some (walEntryMagic, body) :=
        readExact_append body rfl
      simp only [nil_append, readAfterMagic, read, if_neg within, readExact_eq_none.mpr few]
    | [first], _ =>
      refine ⟨0x01 :: body, ?_, by simp only [length_cons]; omega⟩
      exact readAfterMagic_of_large
        (by simp only [leValue, maxWalEntryBytes, UInt8.reduceToNat]; omega)
    | [first, second], _ =>
      refine ⟨0x44 :: 0x01 :: body, ?_, by simp only [length_cons]; omega⟩
      exact readAfterMagic_of_large
        (by simp only [leValue, maxWalEntryBytes, UInt8.reduceToNat]; omega)
    | [first, second, third], _ =>
      refine ⟨0x4B :: 0x44 :: 0x01 :: body, ?_, by simp only [length_cons]; omega⟩
      exact readAfterMagic_of_large
        (by simp only [leValue, maxWalEntryBytes, UInt8.reduceToNat]; omega)
  obtain ⟨rest, turn, few⟩ := damaged
  rw [append_assoc, entriesFrom_eq, readTurn_magic reading, turn]
  exact not_mem_recovery stored.serialized few

/-- A record behind one torn in its data is read only when its data overlaps itself. -/
theorem overlap_behind_data {front} (four : lenBuf.length = 4)
    (short : front.length < leValue lenBuf + 4) (accepted : leValue lenBuf ≤ maxWalEntryBytes)
    (stored : StoredEntry codec)
    (read : entriesFrom codec mode (walEntryMagic ++ (lenBuf ++ front) ++ stored.bytes)
      = [stored.entry])
    : stored.data <+: front ++ (walEntryMagic ++ leBytes 4 stored.data.length)
        ++ stored.data := by
  rw [append_assoc, append_assoc, entriesFrom_eq, readTurn_magic reading] at read
  have length : (front ++ stored.bytes).length = front.length + (stored.data.length + 12) := by
    simp [StoredEntry.bytes]
  cases turn : readAfterMagic codec (lenBuf ++ (front ++ stored.bytes)) with
  | finished => simp [turn] at read
  | corrupted rest =>
    have few : rest.length < stored.data.length + 12 := by
      rcases readAfterMagic_corrupted four accepted turn with rfl | consumed
      · simp
      · omega
    simp only [turn] at read
    refine absurd ?_ (not_mem_recovery stored.serialized few)
    rw [read]
    exact mem_singleton_self _
  | entry entry rest =>
    obtain ⟨data, inStream, _, decoded⟩ := readAfterMagic_entry_data four turn
    simp only [turn, List.cons.injEq] at read
    obtain ⟨rfl, _⟩ := read
    obtain ⟨own, serialized, isFront⟩ := codec.serialize_deserialize decoded
    rw [stored.serialized] at serialized
    cases serialized
    have upToData : front ++ (walEntryMagic ++ leBytes 4 stored.data.length)
        ++ stored.data <+: front ++ stored.bytes := by
      simp [StoredEntry.bytes, record]
    refine prefix_of_prefix_length_le (isFront.trans inStream) upToData ?_
    simp only [length_append]
    omega

/-- A record is read behind a torn one only when its data overlaps itself, shifted so. -/
theorem overlap_of_read (tornAt : TornAt torn)
    (nonempty : torn ≠ []) (stored : StoredEntry codec)
    (small : stored.data.length + 8 < leValue walEntryMagic)
    (read : entriesFrom codec mode (torn ++ stored.bytes) = [stored.entry])
    : stored.data <+: tornStep torn stored.data.length ++ stored.data := by
  have isRead : stored.entry ∈ entriesFrom codec mode (torn ++ stored.bytes) := by
    rw [read]
    exact mem_singleton_self _
  cases tornAt with
  | magic short isFront =>
    exact absurd isRead (not_read_behind_magic reading nonempty short isFront stored)
  | length short => exact absurd isRead (not_read_behind_length reading short stored small)
  | @data lenBuf front four accepted short =>
    have step : tornStep (walEntryMagic ++ (lenBuf ++ front)) stored.data.length
        = front ++ (walEntryMagic ++ leBytes 4 stored.data.length) := by
      have eight : (walEntryMagic ++ lenBuf).length = 8 := by
        simp [walEntryMagic, four]
      rw [tornStep, ← append_assoc walEntryMagic lenBuf front, ← eight, drop_left]
    rw [step]
    exact overlap_behind_data reading four short accepted stored read

/-- Of two checkpoints that differ in their time, one is not read behind a torn record. -/
theorem checkpoint_lost (tornAt : TornAt torn)
    (nonempty : torn ≠ []) (lsn : UInt64) (read : ∀ stored : StoredEntry codec, ∀ timestamp,
      stored.entry = .checkpoint lsn timestamp
        → entriesFrom codec mode (torn ++ stored.bytes) = [stored.entry])
    : False := by
  have overlap (timestamp : UInt64) : ∃ data,
      codec.serialize (.checkpoint lsn timestamp) = .ok data ∧ data.length = 20
      ∧ data <+: tornStep torn 20 ++ data := by
    obtain ⟨data, serialized, length⟩ := codec.serialize_checkpoint lsn timestamp
    have fits : data.length ≤ maxWalEntryBytes := by
      rw [length]
      decide
    have small : data.length + 8 < leValue walEntryMagic := by
      rw [length]
      decide
    have overlaps := overlap_of_read reading tornAt nonempty
      ⟨.checkpoint lsn timestamp, data, serialized, fits⟩ small (read _ timestamp rfl)
    exact ⟨data, serialized, length, by simpa only [length] using overlaps⟩
  obtain ⟨first, firstSerialized, firstLength, firstOverlap⟩ := overlap 0
  obtain ⟨second, secondSerialized, secondLength, secondOverlap⟩ := overlap 1
  have stepNonempty : tornStep torn 20 ≠ [] := by simp [tornStep, walEntryMagic]
  have same : first = second :=
    overlap_unique stepNonempty (firstLength.trans secondLength.symm) firstOverlap secondOverlap
  have firstDecoded := codec.deserialize_serialize firstSerialized
  have secondDecoded := codec.deserialize_serialize secondSerialized
  rw [same, secondDecoded] at firstDecoded
  simp at firstDecoded

end

/-! Opening and appending -/

theorem readEntries_torn
    : readEntriesFromReader codec (logBytes complete ++ tail.bytes) = storedEntries complete := by
  obtain ⟨later, reading, continued⟩ :=
    entriesFrom_logBytes (nofun : .fileStart ≠ ReaderMode.corruptionRecovery) complete
  rw [readEntriesFromReader, continued, entriesFrom_torn reading tail.tornAt, append_nil]

theorem findMaxLsn_le {file} {bound : Nat}
    : (findMaxLsn codec file).toNat ≤ bound
      ↔ ∀ entry ∈ readEntriesFromReader codec (file.getD []), entry.lsn.toNat ≤ bound := by
  have folded (entries : List WalEntry) (start : UInt64)
      : (entries.foldl (fun maxLsn entry => if entry.lsn > maxLsn then entry.lsn else maxLsn)
          start).toNat ≤ bound
        ↔ start.toNat ≤ bound ∧ ∀ entry ∈ entries, entry.lsn.toNat ≤ bound := by
    induction entries generalizing start with
    | nil => simp
    | cons entry rest ih =>
      rw [foldl_cons, ih, forall_mem_cons]
      by_cases higher : entry.lsn > start
      · have below := UInt64.lt_iff_toNat_lt.mp higher
        rw [if_pos higher]
        constructor
        · intro bounds
          exact ⟨by omega, bounds.1, bounds.2⟩
        · intro bounds
          exact ⟨bounds.2.1, bounds.2.2⟩
      · have above := UInt64.le_iff_toNat_le.mp (UInt64.not_lt.mp higher)
        rw [if_neg higher]
        constructor
        · intro bounds
          exact ⟨bounds.1, by omega, bounds.2⟩
        · intro bounds
          exact ⟨bounds.1, bounds.2.2⟩
  cases file with
  | none => simp [findMaxLsn, readEntriesFromReader]
  | some file => simpa [findMaxLsn] using folded (readEntriesFromReader codec file) 0

theorem openLog_currentLsn (disk : Disk) (syncMode : WalSyncMode)
    : (openLog codec disk syncMode).currentLsn.toNat
      = min ((findMaxLsn codec disk.file).toNat + 1) (range64 - 1) :=
  saturatingAddWord_toNat _ 1

theorem openLog_exhausted {disk syncMode}
    : (openLog codec disk syncMode).Exhausted
      ↔ ∃ entry ∈ readEntriesFromReader codec (disk.file.getD []),
          range64 ≤ entry.lsn.toNat + 2 := by
  have bound : (findMaxLsn codec disk.file).toNat ≤ range64 - 3
      ↔ ∀ entry ∈ readEntriesFromReader codec (disk.file.getD []), entry.lsn.toNat ≤ range64 - 3 :=
    findMaxLsn_le
  have range : range64 = 18446744073709551616 := rfl
  rw [WriteAheadLog.Exhausted, openLog_currentLsn]
  constructor
  · intro full
    by_contra none
    push Not at none
    have small : (findMaxLsn codec disk.file).toNat ≤ range64 - 3 := by
      apply bound.mpr
      intro entry member
      have below := none entry member
      omega
    omega
  · intro found
    obtain ⟨entry, member, last⟩ := found
    by_contra room
    have small := bound.mp (by omega) entry member
    omega

def reopened (complete : List (StoredEntry codec)) (tail : TornTail codec) (tempFile : Bool)
    : WriteAheadLog :=
  .openLog codec ⟨some (logBytes complete ++ tail.bytes), tempFile⟩ .sync

theorem reopened_flushed (tempFile : Bool)
    : (reopened complete tail tempFile).Flushed :=
  rfl

theorem reopened_exhausted (tempFile : Bool)
    : (reopened complete tail tempFile).Exhausted
      ↔ ∃ stored ∈ complete, range64 ≤ stored.entry.lsn.toNat + 2 := by
  rw [reopened, openLog_exhausted, Option.getD_some, readEntries_torn]
  simp [storedEntries]

theorem StoredEntry.bytes_eq {first second : StoredEntry codec} (same : first.entry = second.entry)
    : first.bytes = second.bytes := by
  have serialized := first.serialized
  rw [same, second.serialized, Except.ok.injEq] at serialized
  simp only [StoredEntry.bytes, serialized]

theorem reopened_checkpoint {complete : List (StoredEntry codec)} {tail : TornTail codec}
    {tempFile : Bool} (room : ¬(reopened complete tail tempFile).Exhausted)
    (stored : StoredEntry codec) (moment : Moment)
    (entry : stored.entry
      = .checkpoint (reopened complete tail tempFile).currentLsn moment.timestamp)
    : ((reopened complete tail tempFile).appendAll codec [(.checkpoint, moment)]).1
        = [stored.entry]
      ∧ ((reopened complete tail tempFile).appendAll codec [(.checkpoint, moment)]).2.file
        = logBytes complete ++ (tail.bytes ++ stored.bytes) := by
  obtain ⟨after, appended⟩ :=
    append_checkpoint_ok codec room (rfl : _ = some []) moment
  obtain ⟨records, acknowledged, grown⟩ :=
    appendAll_sync codec rfl (reopened_flushed complete tail tempFile) [(.checkpoint, moment)]
  have answered : ((reopened complete tail tempFile).appendAll codec [(.checkpoint, moment)]).1
      = [stored.entry] := by
    simp only [appendAll, appended, entry]
    rfl
  refine ⟨answered, ?_⟩
  rw [answered] at acknowledged
  obtain ⟨only, rfl, same⟩ := map_eq_singleton_iff.mp acknowledged.symm
  rw [grown, ← StoredEntry.bytes_eq same]
  simp [logBytes, reopened, openLog]

/-- Appending behind a torn record keeps acknowledged entries readable exactly when nothing was torn
or no LSN is left.
Witness: behind a torn record one of two checkpoints is lost.
-/
theorem torn_tail_recovers_iff (codec : Bincode) (complete : List (StoredEntry codec))
    (tail : TornTail codec) (tempFile : Bool)
    : (reopened complete tail tempFile).readEntries codec = storedEntries complete
      ∧ ((∀ calls : List (AppendCall × Moment),
          ((reopened complete tail tempFile).appendAll codec calls).2.readEntries codec
            = storedEntries complete
              ++ ((reopened complete tail tempFile).appendAll codec calls).1)
        ↔ tail.bytes = []
          ∨ ∃ stored ∈ complete, range64 ≤ stored.entry.lsn.toNat + 2) := by
  refine ⟨readEntries_torn complete tail, ?_⟩
  rw [← reopened_exhausted complete tail tempFile]
  constructor
  · intro recovers
    by_contra neither
    obtain ⟨torn, room⟩ := not_or.mp neither
    obtain ⟨later, reading, continued⟩ :=
      entriesFrom_logBytes (nofun : .fileStart ≠ ReaderMode.corruptionRecovery) complete
    have lostRead : ∀ stored : StoredEntry codec, ∀ timestamp,
        stored.entry = .checkpoint (reopened complete tail tempFile).currentLsn timestamp
          → entriesFrom codec later (tail.bytes ++ stored.bytes) = [stored.entry] := by
      intro stored timestamp entry
      obtain ⟨acknowledged, file⟩ := reopened_checkpoint room stored ⟨timestamp, 0⟩ entry
      have read := recovers [(.checkpoint, ⟨timestamp, 0⟩)]
      rw [acknowledged, readEntries, file, readEntriesFromReader, continued] at read
      exact append_cancel_left read
    exact checkpoint_lost reading tail.tornAt torn _ lostRead
  · intro condition calls
    rcases condition with whole | exhausted
    · obtain ⟨records, acknowledged, grown⟩ :=
        appendAll_sync codec rfl (reopened_flushed complete tail tempFile) calls
      have file : (reopened complete tail tempFile).file = logBytes complete := by
        simp [reopened, openLog, whole]
      rw [readEntries, acknowledged, grown, file, ← logBytes_append,
        readEntries_logBytes, storedEntries_append]
    · rw [appendAll_of_exhausted codec exhausted, append_nil]
      exact readEntries_torn complete tail

/-- A checkpoint at the front of the bytes: a tag, and two numbers in fixed width. -/
def readCheckpoint (data : Bytes) : Option WalEntry := do
  let (tag, afterTag) ← readExact 4 data
  let (lsn, afterLsn) ← readExact 8 afterTag
  let (timestamp, _) ← readExact 8 afterLsn
  if tag = leBytes 4 2 then
    some (.checkpoint (UInt64.ofNat (leValue lsn)) (UInt64.ofNat (leValue timestamp)))
  else none

theorem readCheckpoint_eq_some {data}
    : readCheckpoint data = some entry
      ↔ ∃ lsn timestamp rest, entry = .checkpoint lsn timestamp
        ∧ data = leBytes 4 2 ++ (leBytes 8 lsn.toNat ++ (leBytes 8 timestamp.toNat ++ rest)) := by
  have wordValue (word : UInt64) : leValue (leBytes 8 word.toNat) = word.toNat :=
    leValue_leBytes word.toNat_lt
  have wordBytes {bytes : Bytes} (eight : bytes.length = 8)
      : leBytes 8 (UInt64.ofNat (leValue bytes)).toNat = bytes := by
    have small := leValue_lt bytes
    rw [eight] at small
    rw [UInt64.toNat_ofNat_of_lt' small, ← eight, leBytes_leValue]
  constructor
  · intro read
    simp only [readCheckpoint, Option.bind_eq_bind, Option.bind_eq_some_iff, readExact_eq_some,
      Prod.exists, Option.ite_none_right_eq_some, Option.some.injEq] at read
    obtain ⟨tag, _, ⟨_, rfl⟩, lsn, _, ⟨lsnLength, rfl⟩, timestamp, rest,
      ⟨timestampLength, rfl⟩, rfl, rfl⟩ := read
    exact ⟨_, _, rest, rfl, by rw [wordBytes lsnLength, wordBytes timestampLength]⟩
  · intro written
    obtain ⟨lsn, timestamp, rest, rfl, rfl⟩ := written
    simp [readCheckpoint, readExact_append _ (leBytes_length _ _), wordValue]

/-- The serializer on checkpoints alone. -/
def checkpointBincode : Bincode where
  serialize
    | .checkpoint lsn timestamp =>
      .ok (leBytes 4 2 ++ (leBytes 8 lsn.toNat ++ leBytes 8 timestamp.toNat))
    | .insert .. | .delete .. => .error "not a checkpoint"
  deserialize data := okOr (readCheckpoint data) "not a checkpoint"
  deserialize_serialize := by
    intro entry data serialized
    cases entry with
    | insert => cases serialized
    | delete => cases serialized
    | checkpoint lsn timestamp =>
      cases serialized
      rw [okOr_eq_ok, readCheckpoint_eq_some]
      exact ⟨lsn, timestamp, [], rfl, by simp⟩
  serialize_deserialize := by
    intro entry data decoded
    rw [okOr_eq_ok, readCheckpoint_eq_some] at decoded
    obtain ⟨lsn, timestamp, rest, rfl, rfl⟩ := decoded
    exact ⟨_, rfl, rest, by simp⟩
  serialize_checkpoint lsn timestamp := ⟨_, rfl, by simp⟩

def tornByte : TornTail checkpointBincode where
  bytes := [0xAA]
  whole := ⟨.checkpoint 1 0, _, rfl, by decide⟩
  isFront := by decide
  proper := by decide

theorem torn_byte_hides_checkpoint
    : ((reopened [] tornByte false).appendAll checkpointBincode [(.checkpoint, ⟨0, 0⟩)]).1
        = [.checkpoint 1 0]
      ∧ ((reopened [] tornByte false).appendAll checkpointBincode
          [(.checkpoint, ⟨0, 0⟩)]).2.readEntries checkpointBincode = [] := by
  decide +kernel

end AkiDB.Wal
