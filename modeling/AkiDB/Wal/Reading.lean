import AkiDB.Wal.Records

/-! What the reader makes of a file: complete records are read back one by one. -/

namespace AkiDB.Wal
open ByteFraming ByteStream List

variable {codec : Bincode}

def ReaderTurn.unread : ReaderTurn → Option Bytes
  | finished => none
  | corrupted unread => some unread
  | entry _ unread => some unread

variable {unread rest : Bytes} {entry : WalEntry} {mode : ReaderMode}

/-- A scan consumes the magic it finds. -/
theorem scanForMagic_length {window : Bytes} (found : scanForMagic window unread = some rest)
    : rest.length + 4 ≤ window.length + unread.length := by
  induction unread generalizing window with
  | nil => simp [scanForMagic] at found
  | cons byte later ih =>
    simp only [scanForMagic] at found
    generalize moved : (if window.length < 4 then window ++ [byte]
      else window.drop 1 ++ [byte]) = shifted at found
    have grows : shifted.length ≤ window.length + 1 := by
      rw [← moved]
      split <;> simp
    by_cases full : shifted = walEntryMagic
    · rw [if_pos full, Option.some.injEq] at found
      have four : shifted.length = 4 := by rw [full]; rfl
      rw [← found, length_cons]
      omega
    · rw [if_neg full] at found
      have shorter := ih found
      rw [length_cons]
      omega

theorem readAfterMagic_entry (turn : readAfterMagic codec unread = .entry entry rest)
    : ∃ lenBuf data checksumBuf,
        lenBuf.length = 4 ∧ data.length = leValue lenBuf ∧ checksumBuf.length = 4
        ∧ unread = lenBuf ++ (data ++ (checksumBuf ++ rest))
        ∧ codec.deserialize data = .ok entry ∧ data.length ≤ maxWalEntryBytes := by
  simp only [readAfterMagic] at turn
  split at turn
  · cases turn
  next lenBuf afterLen lenRead =>
    split at turn
    · cases turn
    next short =>
    split at turn
    · cases turn
    next data afterData dataRead =>
      split at turn
      · cases turn
      next checksumBuf later checksumRead =>
        split at turn
        · cases turn
        split at turn
        next decoded =>
          cases turn
          rw [readExact_eq_some] at lenRead dataRead checksumRead
          obtain ⟨lenLength, rfl⟩ := lenRead
          obtain ⟨dataLength, rfl⟩ := dataRead
          obtain ⟨checksumLength, rfl⟩ := checksumRead
          exact ⟨lenBuf, data, checksumBuf, lenLength, dataLength, checksumLength, rfl, decoded,
            dataLength ▸ Nat.not_lt.mp short⟩
        · cases turn

theorem readAfterMagic_unread (left : (readAfterMagic codec unread).unread = some rest)
    : rest.length + 4 ≤ unread.length := by
  simp only [readAfterMagic] at left
  split at left
  · cases left
  next lenBuf afterLen lenRead =>
    obtain ⟨lenLength, rfl⟩ := readExact_eq_some.mp lenRead
    have bound {later : Bytes} (suffix : later.length ≤ afterLen.length)
        (same : some later = some rest) : rest.length + 4 ≤ (lenBuf ++ afterLen).length := by
      cases same
      simp only [length_append]
      omega
    split at left
    · exact bound (le_refl _) left
    split at left
    · exact bound (Nat.zero_le _) left
    next data afterData dataRead =>
      obtain ⟨_, rfl⟩ := readExact_eq_some.mp dataRead
      split at left
      · exact bound (Nat.zero_le _) left
      next checksumBuf later checksumRead =>
        obtain ⟨_, rfl⟩ := readExact_eq_some.mp checksumRead
        have suffix : later.length ≤ (data ++ (checksumBuf ++ later)).length := by
          simp only [length_append]
          omega
        split at left
        · exact bound suffix left
        split at left <;> exact bound suffix left

theorem readLegacy_unread {lenBuf : Bytes}
    (left : (readLegacy codec lenBuf unread).unread = some rest)
    : rest.length ≤ unread.length := by
  simp only [readLegacy] at left
  split at left
  · cases left
    exact le_refl _
  split at left
  · cases left
    exact Nat.zero_le _
  next data later dataRead =>
    obtain ⟨_, rfl⟩ := readExact_eq_some.mp dataRead
    have suffix : later.length ≤ (data ++ later).length := by simp
    split at left <;> (cases left; exact suffix)

theorem readTurn_unread (left : (readTurn codec mode unread).unread = some rest)
    : rest.length + 4 ≤ unread.length := by
  have afterFour {magicBuf later : Bytes} (read : readExact 4 unread = some (magicBuf, later))
      : later.length + 4 = unread.length := by
    obtain ⟨length, rfl⟩ := readExact_eq_some.mp read
    simp only [length_append]
    omega
  simp only [readTurn] at left
  split at left
  · split at left
    · cases left
    next later found =>
      have scanned := scanForMagic_length found
      have shorter := readAfterMagic_unread left
      simp only [length_nil] at scanned
      omega
  all_goals
    split at left
    · cases left
    next magicBuf later read =>
      have consumed := afterFour read
      split at left
      · have shorter := readAfterMagic_unread left
        omega
      split at left
      · have shorter := readLegacy_unread left
        omega
      · cases left
        omega

/-- More turns than bytes yield every entry. -/
theorem readTurns_eq_of_lt {turns others : Nat} (enough : unread.length < turns)
    (enoughToo : unread.length < others)
    : readTurns codec turns mode unread = readTurns codec others mode unread := by
  induction turns generalizing others mode unread with
  | zero => omega
  | succ turns ih =>
    cases others with
    | zero => omega
    | succ others =>
      simp only [readTurns]
      split
      · rfl
      next rest turn =>
        have shorter := readTurn_unread (congrArg ReaderTurn.unread turn)
        exact ih (by omega) (by omega)
      next entry rest turn =>
        have shorter := readTurn_unread (congrArg ReaderTurn.unread turn)
        rw [ih (by omega : rest.length < turns) (by omega : rest.length < others)]

/-- Reading goes on turn by turn. -/
theorem entriesFrom_eq (mode : ReaderMode) (unread : Bytes)
    : entriesFrom codec mode unread
      = match readTurn codec mode unread with
        | .finished => []
        | .corrupted rest => entriesFrom codec .corruptionRecovery rest
        | .entry entry rest => entry :: entriesFrom codec .expectMagic rest := by
  rw [entriesFrom, readTurns]
  cases turn : readTurn codec mode unread with
  | finished => rfl
  | corrupted rest =>
    have shorter := readTurn_unread (congrArg ReaderTurn.unread turn)
    exact readTurns_eq_of_lt (by omega) (by omega)
  | entry entry rest =>
    have shorter := readTurn_unread (congrArg ReaderTurn.unread turn)
    exact congrArg (entry :: ·) (readTurns_eq_of_lt (by omega) (by omega))

@[simp]
theorem entriesFrom_nil (mode : ReaderMode) : entriesFrom codec mode [] = [] := by
  rw [entriesFrom_eq]
  cases mode <;> rfl

theorem readTurn_entry (later : mode ≠ .fileStart)
    (turn : readTurn codec mode unread = .entry entry rest)
    : ∃ data, codec.serialize entry = .ok data
        ∧ data.length + 12 + rest.length ≤ unread.length := by
  have afterMagic {body : Bytes} (consumed : body.length + 4 ≤ unread.length)
      (turn : readAfterMagic codec body = .entry entry rest)
      : ∃ data, codec.serialize entry = .ok data
          ∧ data.length + 12 + rest.length ≤ unread.length := by
    obtain ⟨lenBuf, data, checksumBuf, lenLength, _, checksumLength, rfl, decoded, _⟩ :=
      readAfterMagic_entry turn
    obtain ⟨front, serialized, isFront⟩ := codec.serialize_deserialize decoded
    have shorter := isFront.length_le
    simp only [length_append] at consumed
    exact ⟨front, serialized, by omega⟩
  cases mode with
  | fileStart => exact absurd rfl later
  | expectMagic =>
    simp only [readTurn] at turn
    split at turn
    · cases turn
    next magicBuf body read =>
      obtain ⟨magicLength, rfl⟩ := readExact_eq_some.mp read
      split at turn
      · exact afterMagic (by simp only [length_append]; omega) turn
      · cases turn
  | corruptionRecovery =>
    simp only [readTurn] at turn
    split at turn
    · cases turn
    next body found =>
      have scanned := scanForMagic_length found
      exact afterMagic (by simpa using scanned) turn

theorem mem_entriesFrom_length (later : mode ≠ .fileStart)
    (read : entry ∈ entriesFrom codec mode unread)
    : ∃ data, codec.serialize entry = .ok data ∧ data.length + 12 ≤ unread.length := by
  induction size : unread.length using Nat.strong_induction_on generalizing mode unread with
  | _ size' ih =>
    subst size
    rw [entriesFrom_eq] at read
    cases turn : readTurn codec mode unread with
    | finished => simp [turn] at read
    | corrupted rest =>
      have shorter := readTurn_unread (congrArg ReaderTurn.unread turn)
      simp only [turn] at read
      obtain ⟨data, serialized, bound⟩ :=
        ih rest.length (by omega) (nofun : .corruptionRecovery ≠ ReaderMode.fileStart) read rfl
      exact ⟨data, serialized, by omega⟩
    | entry first rest =>
      have shorter := readTurn_unread (congrArg ReaderTurn.unread turn)
      simp only [turn, mem_cons] at read
      rcases read with rfl | read
      · obtain ⟨data, serialized, bound⟩ := readTurn_entry later turn
        exact ⟨data, serialized, by omega⟩
      · obtain ⟨data, serialized, bound⟩ :=
          ih rest.length (by omega) (nofun : .expectMagic ≠ ReaderMode.fileStart) read rfl
        exact ⟨data, serialized, by omega⟩

@[simp]
theorem record_length (data : Bytes) : (record data).length = data.length + 12 := by
  simp only [record, walEntryMagic, length_append, length_cons, length_nil, leBytes_length]
  omega

structure StoredEntry (codec : Bincode) where
  entry : WalEntry
  data : Bytes
  serialized : codec.serialize entry = .ok data
  fits : data.length ≤ maxWalEntryBytes

def StoredEntry.bytes (stored : StoredEntry codec) : Bytes :=
  record stored.data

def storedEntries (records : List (StoredEntry codec)) : List WalEntry :=
  records.map (·.entry)

def logBytes (records : List (StoredEntry codec)) : Bytes :=
  records.flatMap (·.bytes)

@[simp]
theorem logBytes_append (first second : List (StoredEntry codec))
    : logBytes (first ++ second) = logBytes first ++ logBytes second := by
  simp [logBytes]

@[simp]
theorem storedEntries_append (first second : List (StoredEntry codec))
    : storedEntries (first ++ second) = storedEntries first ++ storedEntries second := by
  simp [storedEntries]

theorem readTurn_stored (reading : mode ≠ .corruptionRecovery) (stored : StoredEntry codec)
    (rest : Bytes)
    : readTurn codec mode (stored.bytes ++ rest) = .entry stored.entry rest := by
  have fits := stored.fits
  have length : leValue (leBytes 4 stored.data.length) = stored.data.length := by
    apply leValue_leBytes
    simp only [maxWalEntryBytes] at fits
    omega
  have checksum : leValue (leBytes 4 (crc32 stored.data).toNat) = (crc32 stored.data).toNat := by
    exact leValue_leBytes (crc32 stored.data).toNat_lt
  have body : readAfterMagic codec (leBytes 4 stored.data.length
      ++ (stored.data ++ (leBytes 4 (crc32 stored.data).toNat ++ rest)))
      = .entry stored.entry rest := by
    rw [readAfterMagic, readExact_append _ (leBytes_length 4 _)]
    simp only [length]
    rw [if_neg (by omega), readExact_append _ rfl]
    simp only []
    rw [readExact_append _ (leBytes_length 4 _)]
    simp only [checksum, ne_eq, not_true_eq_false, if_false]
    rw [codec.deserialize_serialize stored.serialized]
  have split : stored.bytes ++ rest = walEntryMagic ++ (leBytes 4 stored.data.length
      ++ (stored.data ++ (leBytes 4 (crc32 stored.data).toNat ++ rest))) := by
    simp [StoredEntry.bytes, record]
  have magic : readExact 4 (stored.bytes ++ rest) = some (walEntryMagic, leBytes 4
      stored.data.length ++ (stored.data ++ (leBytes 4 (crc32 stored.data).toNat ++ rest))) := by
    rw [split]
    exact readExact_append _ rfl
  cases mode with
  | corruptionRecovery => exact absurd rfl reading
  | fileStart => simpa only [readTurn, magic, if_true] using body
  | expectMagic => simpa only [readTurn, magic, if_true] using body

theorem entriesFrom_logBytes (reading : mode ≠ .corruptionRecovery)
    (records : List (StoredEntry codec))
    : ∃ later, later ≠ ReaderMode.corruptionRecovery
        ∧ ∀ rest, entriesFrom codec mode (logBytes records ++ rest)
            = storedEntries records ++ entriesFrom codec later rest := by
  induction records generalizing mode with
  | nil => exact ⟨mode, reading, fun rest => rfl⟩
  | cons first records ih =>
    obtain ⟨later, expecting, continued⟩ :=
      ih (nofun : .expectMagic ≠ ReaderMode.corruptionRecovery)
    refine ⟨later, expecting, ?_⟩
    intro rest
    have split : logBytes (first :: records) ++ rest
        = first.bytes ++ (logBytes records ++ rest) := by
      simp [logBytes]
    rw [split, entriesFrom_eq, readTurn_stored reading]
    simp only [continued]
    rfl

theorem readEntries_logBytes (records : List (StoredEntry codec))
    : readEntriesFromReader codec (logBytes records) = storedEntries records := by
  obtain ⟨later, _, continued⟩ :=
    entriesFrom_logBytes (nofun : .fileStart ≠ ReaderMode.corruptionRecovery) records
  simpa [readEntriesFromReader] using continued []

end AkiDB.Wal
