import AkiDB.Wal.Recovery

/-! Runs of one log path. The LSN counter falls back when a truncation emptied the file. -/

namespace AkiDB.Wal
open AkiDB.Common ByteFraming Checked Unsigned List WriteAheadLog

variable {codec : Bincode}

/-- A log path between calls: its files, or the log that has them open. -/
inductive Session where
  | closed (disk : Disk)
  | opened (log : WriteAheadLog)
  deriving DecidableEq

inductive LogCall where
  | openLog (syncMode : WalSyncMode)
  | append (call : AppendCall) (moment : Moment)
  | flush
  | truncateTo (checkpointLsn : UInt64) (fault : Option TruncateFault)
  | close

/-- One call with its acknowledged entry; opening an open log or using a closed one changes
nothing. -/
def Session.step (codec : Bincode) (session : Session) (call : LogCall)
    : Session × Option WalEntry :=
  match session, call with
  | closed disk, .openLog syncMode => (opened (.openLog codec disk syncMode), none)
  | opened log, .append call moment =>
    match log.append codec moment call with
    | (.ok lsn, after) => (opened after, some (call.entry moment.timestamp lsn))
    | (.error _, after) => (opened after, none)
  | opened log, .flush => (opened log.flush, none)
  | opened log, .truncateTo checkpointLsn fault =>
    (opened (log.truncateTo codec checkpointLsn { stopping := fault }).2, none)
  | opened log, .close => (closed log.close, none)
  | session, _ => (session, none)

def Session.after (codec : Bincode) (session : Session) (calls : List LogCall) : Session :=
  calls.foldl (fun session call => (session.step codec call).1) session

def Session.acknowledged (codec : Bincode) : Session → List LogCall → List WalEntry
  | _, [] => []
  | session, call :: rest =>
    (session.step codec call).2.toList
      ++ acknowledged codec (session.step codec call).1 rest

/-- The call does not open a log whose acknowledged entries were all truncated away. -/
def Session.FindsEntries (codec : Bincode) (session : Session) (acknowledged : List WalEntry)
    (call : LogCall) : Prop :=
  match session, call with
  | closed disk, .openLog _ =>
    acknowledged = [] ∨ readEntriesFromReader codec (disk.file.getD []) ≠ []
  | _, _ => True

/-- No call of the run opens a log whose acknowledged entries were all truncated away. -/
def Session.ReopensFilled (codec : Bincode) : Session → List WalEntry → List LogCall → Prop
  | _, _, [] => True
  | session, acknowledged, call :: rest =>
    session.FindsEntries codec acknowledged call
    ∧ ReopensFilled codec (session.step codec call).1
        (acknowledged ++ (session.step codec call).2.toList) rest

instance (session : Session) (acknowledged : List WalEntry) (call : LogCall)
    : Decidable (session.FindsEntries codec acknowledged call) :=
  match session, call with
  | .closed _, .openLog _ => inferInstanceAs (Decidable (_ ∨ _))
  | .closed _, .append .. | .closed _, .flush | .closed _, .truncateTo .. | .closed _, .close
  | .opened _, _ => .isTrue trivial

instance (session : Session) (acknowledged : List WalEntry) (calls : List LogCall)
    : Decidable (session.ReopensFilled codec acknowledged calls) := by
  induction calls generalizing session acknowledged with
  | nil => exact .isTrue trivial
  | cons call rest ih => exact @instDecidableAnd _ _ _ (ih _ _)

theorem Session.acknowledged_append (session : Session) (first second : List LogCall)
    : session.acknowledged codec (first ++ second)
      = session.acknowledged codec first
        ++ (session.after codec first).acknowledged codec second := by
  induction first generalizing session with
  | nil => rfl
  | cons call rest ih =>
    simp only [cons_append, Session.acknowledged, ih, append_assoc]
    rfl

variable {session : Session} {acknowledged : List WalEntry} {log after : WriteAheadLog}
  {records : List (StoredEntry codec)}

theorem Session.reopensFilled_append {first second}
    : session.ReopensFilled codec acknowledged (first ++ second)
      ↔ session.ReopensFilled codec acknowledged first
        ∧ (session.after codec first).ReopensFilled codec
            (acknowledged ++ session.acknowledged codec first) second := by
  induction first generalizing session acknowledged with
  | nil => simp [Session.ReopensFilled, Session.acknowledged, Session.after]
  | cons call rest ih =>
    simp only [cons_append, Session.ReopensFilled, ih, Session.acknowledged, and_assoc,
      append_assoc]
    rfl

/-! What the calls do to the records -/

theorem rewriteEntries_stored (records : List (StoredEntry codec))
    : rewriteEntries codec (storedEntries records) = .ok (logBytes records) := by
  induction records with
  | nil => rfl
  | cons stored rest ih =>
    have fits := stored.fits
    have short : ¬stored.data.length ≥ 2 ^ 32 := by
      simp only [maxWalEntryBytes] at fits
      omega
    have later : rewriteEntries codec (rest.map (·.entry)) = .ok (logBytes rest) := ih
    simp only [storedEntries, map_cons, rewriteEntries, stored.serialized,
      Except.mapError, ok_bind, rejectIf, if_neg short, later]
    rfl

theorem truncateTo_outcome (codec : Bincode) {records : List (StoredEntry codec)}
    {faults : TruncateFaults} (read : readEntriesFailing codec (log.remaining faults.dropped)
      faults.unreadable = storedEntries records) (checkpointLsn : UInt64)
    : let after := (log.truncateTo codec checkpointLsn faults).2
      after.currentLsn = log.currentLsn
      ∧ after.writer = (if faults.stopping = none then some [] else none)
      ∧ after.file = if faults.Replaces then
          logBytes (records.filter (·.entry.lsn > checkpointLsn))
        else log.remaining faults.dropped := by
  have kept : (storedEntries records).filter (checkpointLsn < ·.lsn)
      = storedEntries (records.filter (checkpointLsn < ·.entry.lsn)) := by
    rw [storedEntries, storedEntries, filter_map]
    rfl
  have rewritten : rewriteEntries codec
      ((readEntriesFailing codec (log.remaining faults.dropped) faults.unreadable).filter
        (checkpointLsn < ·.lsn))
      = .ok (logBytes (records.filter (checkpointLsn < ·.entry.lsn))) := by
    rw [read, kept, rewriteEntries_stored]
  simp only [truncateTo, truncateStages, gt_iff_lt, rewritten]
  obtain ⟨_ | ⟨step, error⟩, dropped, unreadable⟩ := faults
  · exact ⟨rfl, rfl, rfl⟩
  · cases step <;> exact ⟨rfl, rfl, rfl⟩

theorem truncateTo_cases (codec : Bincode) {records : List (StoredEntry codec)}
    (read : readEntriesFromReader codec log.contents = storedEntries records)
    (checkpointLsn : UInt64) (fault : Option TruncateFault)
    : let after := (log.truncateTo codec checkpointLsn { stopping := fault }).2
      after.currentLsn = log.currentLsn
      ∧ (fault = none ∧ after.writer = some []
          ∧ after.contents = logBytes (records.filter (·.entry.lsn > checkpointLsn))
        ∨ fault ≠ none ∧ after.writer = none
          ∧ (after.contents = log.contents
            ∨ after.contents = logBytes (records.filter (·.entry.lsn > checkpointLsn)))) := by
  obtain ⟨counter, writer, file⟩ :=
    @truncateTo_outcome log codec records { stopping := fault } read checkpointLsn
  refine ⟨counter, ?_⟩
  rw [WriteAheadLog.contents, writer, file]
  cases fault with
  | none => exact .inl ⟨rfl, rfl, append_nil _⟩
  | some fault =>
    refine .inr ⟨by simp, rfl, ?_⟩
    split
    · exact .inr (append_nil _)
    · exact .inl (append_nil _)

/-! The counter and the acknowledged entries -/

/-- The log holds these records; unless all are gone, the highest LSN reaches every acknowledged
one. -/
structure Tracks (contents : Bytes) (acknowledged : List WalEntry)
    (records : List (StoredEntry codec)) : Prop where
  contents_eq : contents = logBytes records
  reached : ∀ entry ∈ acknowledged,
    records = [] ∨ ∃ stored ∈ records, entry.lsn.toNat ≤ stored.entry.lsn.toNat
  usable : ∀ entry ∈ acknowledged, entry.lsn.toNat + 1 < range64

/-- The counter of an open log is ahead of every acknowledged LSN, and of the file's while it
advances. -/
structure Counts (log : WriteAheadLog) (acknowledged : List WalEntry)
    (records : List (StoredEntry codec)) : Prop
    extends Tracks log.contents acknowledged records where
  ahead : ∀ entry ∈ acknowledged, entry.lsn.toNat < log.currentLsn.toNat
  beyond : ¬log.Exhausted → ∀ stored ∈ records, stored.entry.lsn.toNat < log.currentLsn.toNat

theorem Tracks.openLog {disk} (syncMode : WalSyncMode)
    (tracks : Tracks (disk.file.getD []) acknowledged records)
    (finds : acknowledged = [] ∨ records ≠ [])
    : Counts (.openLog codec disk syncMode) acknowledged records := by
  have range : range64 = 18446744073709551616 := rfl
  have highest {stored : StoredEntry codec} (member : stored ∈ records)
      : stored.entry.lsn.toNat ≤ (findMaxLsn codec disk.file).toNat := by
    apply findMaxLsn_le.mp (le_refl _)
    rw [tracks.contents_eq, readEntries_logBytes]
    exact mem_map_of_mem member
  have current : (WriteAheadLog.openLog codec disk syncMode).currentLsn.toNat
      = min ((findMaxLsn codec disk.file).toNat + 1) (range64 - 1) :=
    openLog_currentLsn disk syncMode
  refine {
    contents_eq := ?_
    reached := tracks.reached
    usable := tracks.usable
    ahead := ?_
    beyond := ?_
  }
  · rw [← tracks.contents_eq]
    exact append_nil _
  · intro entry member
    have usable := tracks.usable entry member
    rcases finds with rfl | nonempty
    · simp at member
    rcases tracks.reached entry member with empty | ⟨stored, found, reached⟩
    · exact absurd empty nonempty
    have bound := highest found
    omega
  · intro room stored member
    have bound := highest member
    rw [WriteAheadLog.Exhausted] at room
    omega

theorem Counts.mono (counts : Counts log acknowledged records)
    (same : after.contents = log.contents) (moved : log.currentLsn.toNat ≤ after.currentLsn.toNat)
    : Counts after acknowledged records := by
  exact {
    contents_eq := same.trans counts.contents_eq
    reached := counts.reached
    usable := counts.usable
    ahead := fun entry member => by
      have ahead := counts.ahead entry member
      omega
    beyond := fun room stored member => by
      have before : ¬log.Exhausted := by
        simp only [WriteAheadLog.Exhausted] at room ⊢
        omega
      have beyond := counts.beyond before stored member
      omega
  }

theorem Counts.appended {stored} (counts : Counts log acknowledged records)
    (appended : log.Appended after stored) (lsn : stored.entry.lsn = log.currentLsn)
    : Counts after (acknowledged ++ [stored.entry]) (records ++ [stored]) := by
  have advanced := appended.lsn
  have small := after.currentLsn.toNat_lt
  have range : range64 = 2 ^ 64 := rfl
  have room : ¬log.Exhausted := by
    rw [WriteAheadLog.Exhausted]
    omega
  have own : stored.entry.lsn.toNat = log.currentLsn.toNat := congrArg UInt64.toNat lsn
  refine { contents_eq := ?_, reached := ?_, usable := ?_, ahead := ?_, beyond := ?_ }
  · rw [appended.contents, counts.contents_eq, logBytes_append]
    simp [logBytes]
  · intro entry member
    refine .inr ⟨stored, mem_append_right _ (mem_singleton_self _), ?_⟩
    rcases mem_append.mp member with earlier | last
    · have ahead := counts.ahead entry earlier
      omega
    · rw [mem_singleton.mp last]
  · intro entry member
    rcases mem_append.mp member with earlier | last
    · exact counts.usable entry earlier
    · rw [mem_singleton.mp last]
      omega
  · intro entry member
    rcases mem_append.mp member with earlier | last
    · have ahead := counts.ahead entry earlier
      omega
    · rw [mem_singleton.mp last]
      omega
  · intro _ other member
    rcases mem_append.mp member with earlier | last
    · have beyond := counts.beyond room other earlier
      omega
    · rw [mem_singleton.mp last]
      omega

/-- A truncation keeps the highest LSN or nothing at all. -/
theorem Counts.truncated (counts : Counts log acknowledged records) (checkpointLsn : UInt64)
    (counter : after.currentLsn = log.currentLsn)
    (contents : after.contents = logBytes (records.filter (·.entry.lsn > checkpointLsn)))
    : Counts after acknowledged (records.filter (·.entry.lsn > checkpointLsn)) := by
  refine {
    contents_eq := contents
    reached := ?_
    usable := counts.usable
    ahead := ?_
    beyond := ?_
  }
  · intro entry member
    cases kept : records.filter (·.entry.lsn > checkpointLsn) with
    | nil => exact .inl rfl
    | cons first rest =>
      have firstKept : first ∈ records.filter (·.entry.lsn > checkpointLsn) := by
        rw [kept]
        exact mem_cons_self
      obtain ⟨inRecords, above⟩ := mem_filter.mp firstKept
      rw [← kept]
      rcases counts.reached entry member with empty | ⟨stored, found, reached⟩
      · rw [empty] at inRecords
        simp at inRecords
      by_cases survives : stored.entry.lsn > checkpointLsn
      · exact .inr ⟨stored, mem_filter.mpr ⟨found, by simpa using survives⟩, reached⟩
      · refine .inr ⟨first, firstKept, ?_⟩
        have higher := UInt64.lt_iff_toNat_lt.mp
          (by simpa using above : checkpointLsn < first.entry.lsn)
        have lower := UInt64.le_iff_toNat_le.mp (UInt64.not_lt.mp survives)
        omega
  · rw [counter]
    exact counts.ahead
  · intro room stored member
    rw [counter]
    refine counts.beyond ?_ stored (mem_filter.mp member).1
    rwa [WriteAheadLog.Exhausted, ← counter]

/-- What holds of a path between calls. -/
def Session.Consistent (session : Session) (acknowledged : List WalEntry)
    (records : List (StoredEntry codec)) : Prop :=
  match session with
  | closed disk => Tracks (disk.file.getD []) acknowledged records
  | opened log => Counts log acknowledged records

/-- What a call adds: a higher LSN that is stored, and no loss but to a truncation. -/
structure Session.Advances (acknowledged : List WalEntry) (records : List (StoredEntry codec))
    (call : LogCall) (answer : Option WalEntry) (later : List (StoredEntry codec)) : Prop where
  higher : ∀ entry ∈ answer, ∀ earlier ∈ acknowledged, earlier.lsn < entry.lsn
  stored : ∀ entry ∈ answer, entry ∈ storedEntries later
  kept : ∀ entry ∈ storedEntries records,
    (∀ checkpointLsn fault, call = .truncateTo checkpointLsn fault → checkpointLsn < entry.lsn)
      → entry ∈ storedEntries later

theorem Session.Advances.idle {call}
    : Session.Advances acknowledged records call none records where
  higher := nofun
  stored := nofun
  kept := fun _ member _ => member

/-- Every call keeps the path consistent, unless it opens an emptied log. -/
theorem Session.Consistent.step (consistent : session.Consistent acknowledged records)
    {call : LogCall} (finds : session.FindsEntries codec acknowledged call)
    : ∃ later : List (StoredEntry codec), (session.step codec call).1.Consistent
          (acknowledged ++ (session.step codec call).2.toList) later
        ∧ Session.Advances acknowledged records call (session.step codec call).2 later := by
  have unchanged {after : Session} (consistent : after.Consistent acknowledged records)
      : ∃ later : List (StoredEntry codec),
          after.Consistent (acknowledged ++ (none : Option WalEntry).toList) later
          ∧ Session.Advances acknowledged records call none later :=
    ⟨records, by simpa using consistent, .idle⟩
  cases session with
  | closed disk =>
    cases call with
    | openLog syncMode =>
      refine unchanged (Tracks.openLog syncMode consistent ?_)
      refine finds.imp_right ?_
      intro found empty
      rw [consistent.contents_eq, readEntries_logBytes, empty] at found
      exact found rfl
    | _ => exact unchanged consistent
  | opened log =>
    cases call with
    | openLog syncMode => exact unchanged consistent
    | append call moment =>
      rcases log.append_cases codec moment call with
        ⟨error, after, failed, refused⟩ | ⟨after, stored, succeeded, entry, appended⟩
      · simp only [Session.step, failed]
        exact unchanged (consistent.mono refused.contents refused.lsn)
      · simp only [Session.step, succeeded, ← entry]
        have lsn : stored.entry.lsn = log.currentLsn := by
          rw [entry, AppendCall.lsn_entry]
        refine ⟨records ++ [stored], consistent.appended appended lsn, ?_⟩
        exact {
          higher := by
            intro _ same earlier member
            cases same
            rw [lsn]
            exact UInt64.lt_iff_toNat_lt.mpr (consistent.ahead earlier member)
          stored := by
            intro _ same
            cases same
            simp [storedEntries]
          kept := by
            intro _ member _
            rw [storedEntries_append]
            exact mem_append_left _ member
        }
    | flush =>
      exact unchanged (consistent.mono log.flush_contents (by rw [log.flush_currentLsn]))
    | truncateTo checkpointLsn fault =>
      have read : readEntriesFromReader codec log.contents = storedEntries records := by
        rw [consistent.contents_eq, readEntries_logBytes]
      obtain ⟨counter, cases⟩ := truncateTo_cases codec read checkpointLsn fault
      rcases or_iff_not_imp_left.mpr fun changed =>
          cases.elim (·.2.2) (·.2.2.resolve_left changed) with all | some
      · exact unchanged (consistent.mono all (le_of_eq (congrArg UInt64.toNat counter.symm)))
      · refine ⟨records.filter (·.entry.lsn > checkpointLsn), ?_, by simp [Session.step],
          by simp [Session.step], ?_⟩
        · simpa [Session.step, Session.Consistent] using
            consistent.truncated checkpointLsn counter some
        · intro entry member above
          obtain ⟨stored, found, rfl⟩ := mem_map.mp member
          have survives := above checkpointLsn fault rfl
          exact mem_map_of_mem (mem_filter.mpr ⟨found, by simpa using survives⟩)
    | close =>
      refine unchanged ?_
      exact {
        contents_eq := consistent.contents_eq
        reached := consistent.reached
        usable := consistent.usable
      }

/-- A run keeps the path consistent, and loses a stored entry only to a truncation beyond it. -/
theorem Session.Consistent.run {calls} (consistent : session.Consistent acknowledged records)
    (filled : session.ReopensFilled codec acknowledged calls)
    : ∃ later : List (StoredEntry codec), (session.after codec calls).Consistent
          (acknowledged ++ session.acknowledged codec calls) later
        ∧ (acknowledged.Pairwise (·.lsn < ·.lsn)
            → (acknowledged ++ session.acknowledged codec calls).Pairwise (·.lsn < ·.lsn))
        ∧ ∀ entry ∈ storedEntries records,
            (∀ checkpointLsn fault, .truncateTo checkpointLsn fault ∈ calls
                → checkpointLsn < entry.lsn)
              → entry ∈ storedEntries later := by
  induction calls generalizing session acknowledged records with
  | nil =>
    refine ⟨records, ?_, ?_, ?_⟩
    · simpa [Session.after, Session.acknowledged] using consistent
    · intro increasing
      simpa [Session.acknowledged] using increasing
    · intro entry member _
      exact member
  | cons call rest ih =>
    obtain ⟨between, consistentBetween, advances⟩ := consistent.step filled.1
    have increasingBetween (increasing : acknowledged.Pairwise (·.lsn < ·.lsn))
        : (acknowledged ++ (session.step codec call).2.toList).Pairwise (·.lsn < ·.lsn) := by
      rw [pairwise_append]
      refine ⟨increasing, ?_, ?_⟩
      · cases (session.step codec call).2 <;> simp
      · intro earlier member entry answered
        exact advances.higher entry (by simpa using answered) earlier member
    obtain ⟨later, consistentLater, increasingLater, keeps⟩ :=
      ih consistentBetween filled.2
    rw [append_assoc] at consistentLater increasingLater
    refine ⟨later, consistentLater, fun h => increasingLater (increasingBetween h), ?_⟩
    intro entry member above
    refine keeps entry (advances.kept entry member ?_) ?_
    · intro checkpointLsn fault same
      exact above checkpointLsn fault (same ▸ mem_cons_self)
    · intro checkpointLsn fault truncated
      exact above checkpointLsn fault (mem_cons_of_mem _ truncated)

/-! LSNs over whole runs -/

/-- A closed path with complete records, or without a file. -/
def Session.stored (records : Option (List (StoredEntry codec))) (tempFile : Bool) : Session :=
  .closed ⟨records.map logBytes, tempFile⟩

/-- An entry acknowledged after a checkpoint is read from it on, unless a truncation reaches it. -/
def Session.ReadsSinceCheckpoints (codec : Bincode) (start : Session) (calls : List LogCall)
    : Prop :=
  ∀ before between rest call moment later checkpoint entry log,
    calls = before ++ .append .checkpoint moment :: (between ++ .append call later :: rest)
      → ((start.after codec before).step codec (.append .checkpoint moment)).2
        = some checkpoint
      → ((start.after codec (before ++ .append .checkpoint moment :: between)).step codec
          (.append call later)).2 = some entry
      → (∀ checkpointLsn fault, .truncateTo checkpointLsn fault ∈ rest
          → checkpointLsn < entry.lsn)
      → start.after codec calls = .opened log → log.Flushed
      → entry ∈ log.readEntriesSince codec checkpoint.lsn

theorem Session.consistent_stored (records : Option (List (StoredEntry codec))) (tempFile : Bool)
    : (Session.stored records tempFile).Consistent [] (records.getD []) where
  contents_eq := by cases records <;> rfl
  reached := nofun
  usable := nofun

/-- Entries acknowledged behind a checkpoint are read back. -/
theorem Session.Consistent.readsSinceCheckpoints {start : Session}
    (consistent : start.Consistent [] records) {calls} (filled : start.ReopensFilled codec [] calls)
    : start.ReadsSinceCheckpoints codec calls := by
  intro before between rest call moment later checkpoint entry log split checkpointed answered
    above opened flushed
  have regrouped : calls
      = (before ++ .append .checkpoint moment :: between) ++ (.append call later :: rest) := by
    simp [split]
  rw [regrouped, Session.reopensFilled_append] at filled
  rw [regrouped, Session.after, foldl_append] at opened
  obtain ⟨filledFront, finds, filledRest⟩ := filled
  obtain ⟨_, consistentFront, _⟩ := consistent.run filledFront
  obtain ⟨_, consistentAppended, advances⟩ := consistentFront.step finds
  obtain ⟨final, consistentRest, _, keeps⟩ := consistentAppended.run filledRest
  have isEarlier : checkpoint ∈ [] ++ start.acknowledged codec
      (before ++ .append .checkpoint moment :: between) := by
    simp only [nil_append, Session.acknowledged_append, Session.acknowledged, checkpointed,
      mem_append, Option.toList_some, mem_singleton, true_or, or_true]
  have higher : checkpoint.lsn < entry.lsn := advances.higher entry answered checkpoint isEarlier
  have kept := keeps entry (advances.stored entry answered) above
  have state : Session.after codec (((start.after codec
      (before ++ .append .checkpoint moment :: between)).step codec (.append call later)).1) rest
      = .opened log := opened
  rw [state] at consistentRest
  have file : log.file = logBytes final := by
    have contents := consistentRest.contents_eq
    rwa [WriteAheadLog.contents, flushed, append_nil] at contents
  rw [readEntriesSince, readEntries, file, readEntries_logBytes]
  exact mem_filter.mpr ⟨kept, by simpa using higher⟩

/-- In a run that never reopens an emptied log, acknowledged LSNs increase and what is appended
behind a checkpoint is read.
Witness: the counter is ahead of every acknowledged LSN.
-/
theorem acknowledged_lsns_increase (codec : Bincode)
    (records : Option (List (StoredEntry codec))) (tempFile : Bool) (calls : List LogCall)
    (filled : (Session.stored records tempFile).ReopensFilled codec [] calls)
    : ((Session.stored records tempFile).acknowledged codec calls).Pairwise (·.lsn < ·.lsn)
      ∧ (Session.stored records tempFile).ReadsSinceCheckpoints codec calls
      ∧ ∀ log, (Session.stored records tempFile).after codec calls = .opened log
          → log.Exhausted
          → ∀ moment call, ∃ error, log.append codec moment call = (.error error, log) := by
  have consistent := Session.consistent_stored records tempFile
  refine ⟨?_, consistent.readsSinceCheckpoints filled, ?_⟩
  · obtain ⟨_, _, increasing, _⟩ := consistent.run filled
    simpa using increasing .nil
  · intro log _ exhausted moment call
    exact append_of_exhausted codec exhausted moment call

def truncatedCalls : List LogCall :=
  [.openLog .sync, .append .checkpoint ⟨0, 0⟩, .append .checkpoint ⟨1, 0⟩, .truncateTo 1 none,
    .close, .openLog .batchSync, .append .checkpoint ⟨2, 7⟩, .flush]

/-- A path without a file, for a log of checkpoints. -/
def emptyPath : Session :=
  .stored (none : Option (List (StoredEntry checkpointBincode))) false

theorem acknowledged_lsns_increase_sample
    : emptyPath.acknowledged checkpointBincode truncatedCalls
        = [.checkpoint 1 0, .checkpoint 2 1, .checkpoint 3 2]
      ∧ (emptyPath.acknowledged checkpointBincode truncatedCalls).Pairwise (·.lsn < ·.lsn)
      ∧ emptyPath.ReadsSinceCheckpoints checkpointBincode truncatedCalls
      ∧ ∀ log, emptyPath.after checkpointBincode truncatedCalls = .opened log
          → log.Exhausted
          → ∀ moment call, ∃ error,
              log.append checkpointBincode moment call = (.error error, log) :=
  ⟨by decide +kernel,
    acknowledged_lsns_increase checkpointBincode none false truncatedCalls (by decide +kernel)⟩

def emptiedCalls : List LogCall :=
  [.openLog .sync, .append .checkpoint ⟨0, 0⟩, .truncateTo 1 none, .close, .openLog .sync,
    .append .checkpoint ⟨1, 0⟩]

/-- The log that this leaves: one checkpoint under LSN 1. -/
def emptiedLog : WriteAheadLog :=
  { file := record (leBytes 4 2 ++ (leBytes 8 1 ++ leBytes 8 1)),
    tempFile := false,
    currentLsn := 2,
    writer := some [],
    syncMode := .sync }

/-- The second checkpoint gets the LSN of the first and is not read from it on. -/
theorem emptied_log_repeats_lsn
    : emptyPath.acknowledged checkpointBincode emptiedCalls
        = [.checkpoint 1 0, .checkpoint 1 1]
      ∧ emptyPath.after checkpointBincode emptiedCalls = .opened emptiedLog
      ∧ emptiedLog.readEntries checkpointBincode = [.checkpoint 1 1]
      ∧ emptiedLog.readEntriesSince checkpointBincode 1 = [] := by
  decide +kernel

/-! Truncations -/

namespace WriteAheadLog

/-- The request passes its own checks: it is appended as soon as there is a writer. -/
def Accepts (codec : Bincode) (log : WriteAheadLog) (moment : Moment) (call : AppendCall) : Prop :=
  ∃ after, { log with writer := some [] }.append codec moment call = (.ok log.currentLsn, after)

/-- Every acceptable request is appended, and read behind the log's entries once flushed. -/
def Continues (codec : Bincode) (log : WriteAheadLog) : Prop :=
  ∀ moment call, log.Accepts codec moment call →
    ∃ after, log.append codec moment call = (.ok log.currentLsn, after)
      ∧ after.flush.readEntries codec
        = log.readEntries codec ++ [call.entry moment.timestamp log.currentLsn]

end WriteAheadLog

end AkiDB.Wal
