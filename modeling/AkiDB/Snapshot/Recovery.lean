import AkiDB.Snapshot.Upload

/-!
Recovery of a snapshot operation after a crash: which records can be resumed and reach their end.
-/

namespace AkiDB.Snapshot
open AkiDB.Common Effects Scripts SnapshotStateMachine List SnapshotState

def SnapshotState.isCompleted : SnapshotState → Bool
  | completed _ => true
  | _ => false

def SnapshotState.isUploading : SnapshotState → Bool
  | uploading .. => true
  | _ => false

def permanentlyFailed (config : RetryConfig) (record : SnapshotStateRecord) : Bool :=
  match record.state with
  | .failed _ retryCount _ _ => config.maxRetries ≤ retryCount
  | _ => false

/-- Every call succeeds, and there are calls for a part per byte. -/
structure Attempt.WorksFor (attempt : Attempt) (source : SnapshotSource) : Prop where
  working : Working attempt.script
  enough : 3 * source.file.length + 12 ≤ attempt.script.length

/-- The call to resume ends without error and leaves a completed operation. -/
def Attempt.Finishes (attempt : Attempt) (source : SnapshotSource) (world : UploadWorld)
    : Prop :=
  ∃ last, (attempt.resume source).from ⟨world, attempt.script⟩ = (.ok (), last)
    ∧ last.state.saved.state.isCompleted = true

/-- The checkpoint names the file, and its upload is open and starts at a part that exists. -/
def UploadCheckpoint.Continues (checkpoint : UploadCheckpoint) (source : SnapshotSource)
    (chunkSize : Nat) (world : UploadWorld) : Prop :=
  checkpoint.localPath = source.localPath
    ∧ if checkpoint.totalBytes = source.file.length then
        checkpoint.uploadId ∉ world.closed ∧ 1 ≤ checkpoint.nextPart
          ∧ (checkpoint.nextPart - 1) * chunkSize < 2 ^ 64
      else world.uploads ∉ world.closed

instance (checkpoint : UploadCheckpoint) (source : SnapshotSource) (chunkSize : Nat)
    (world : UploadWorld) : Decidable (checkpoint.Continues source chunkSize world) := by
  unfold UploadCheckpoint.Continues
  infer_instance

/-- A record of an upload, or of a failure whose waiting time is over, with such a checkpoint. -/
def Recoverable (config : RetryConfig) (now : Nat) (source : SnapshotSource) (chunkSize : Nat)
    (world : UploadWorld) : Prop :=
  (world.record.state.isUploading = true ∨ shouldRetry config now world.record = true)
    ∧ ∃ checkpoint, world.record.uploadCheckpoint = some checkpoint
      ∧ checkpoint.Continues source chunkSize world

variable {source : SnapshotSource} {attempt : Attempt} {around : Surroundings}

/-! With a store that works -/

variable {change : SnapshotStateRecord → SnapshotStateRecord} {pre : UploadWorld → Prop}
  {error : AkiDbError} {uploadId : Nat} {checkpoint : UploadCheckpoint} {world : UploadWorld}

theorem completes_changeRecord {post : UploadWorld → Prop} (ends : ∀ world, pre world →
      post { world with record := change world.record, saved := change world.record })
    : Completes 1 pre (changeRecord around change) (fun _ => post) := by
  refine Completes.bind 0 1 (by omega) (@Completes.update _ _ pre _ _
    (fun _ next => post { next with saved := next.record }) ends) fun _ => ?_
  exact Completes.bind 1 0 (by omega) (Completes.external fun _ _ holds => holds)
    fun _ => Completes.pure fun _ holds => holds

theorem completes_keepingRecord
    (kept : ∀ world record, pre world → pre { world with record, saved := record })
    : Completes 1 pre (changeRecord around change) (fun _ => pre) :=
  completes_changeRecord fun world => kept world _

theorem completes_refuseClosed
    : Completes 0 (fun world => uploadId ∉ world.closed)
        (Attempt.refuseClosed uploadId error) (fun _ world => uploadId ∉ world.closed) := by
  refine Completes.read fun current => ?_
  by_cases closed : uploadId ∈ current.closed
  · intro world starts
    exact absurd (starts.1 ▸ closed) starts.2
  · rw [if_neg closed]
    exact Completes.pure fun _ starts => starts.2

theorem completes_updateUploadProgress {chunks bytes : Nat}
    : Completes 1 (fun world => uploadId ∉ world.closed)
        (updateUploadProgress around chunks bytes checkpoint)
        (fun _ world => uploadId ∉ world.closed) := by
  refine Completes.read fun current => ?_
  split
  · exact completes_changeRecord fun _ starts => starts.2
  · exact Completes.pure fun _ starts => starts.2

/-- The loop ends: each round takes a byte at least, and three calls. -/
theorem completes_uploadParts {fileSize : Nat} {objectKey localPath} (fuel : Nat)
    (rest : List UInt8) (completedParts : List Nat) (currentPart bytes : Nat)
    (more : rest.length < fuel)
    : Completes (3 * rest.length + 1) (fun world => uploadId ∉ world.closed)
        (attempt.uploadParts uploadId fileSize objectKey localPath fuel rest completedParts
          currentPart bytes)
        (fun _ world => uploadId ∉ world.closed) := by
  induction fuel generalizing rest completedParts currentPart bytes with
  | zero => exact absurd more (Nat.not_lt_zero _)
  | succ fuel ih =>
    refine Completes.bind 1 (3 * rest.length) (by omega)
      (Completes.call fun _ open_ => open_) fun size => ?_
    generalize part_eq : rest.take (max 1 (min size attempt.chunkSize)) = body
    dsimp only
    split
    · exact Completes.pure fun _ open_ => open_
    · next sent =>
        have some_byte : 1 ≤ body.length :=
          length_pos_iff.mpr fun empty => sent (by simp [empty])
        have bounded : body.length ≤ rest.length := by
          rw [← part_eq]
          exact length_take_le' _ _
        have rounds := ih (rest.drop body.length) (completedParts ++ [currentPart])
          ((currentPart + 1) % 2 ^ 32) (bytes + body.length) (by
            rw [length_drop]
            omega)
        rw [length_drop] at rounds
        refine Completes.bind 0 (3 * rest.length) (by omega) completes_refuseClosed fun _ => ?_
        refine Completes.bind 1 (3 * rest.length - 1) (by omega)
          (Completes.call fun _ open_ => open_) fun _ => ?_
        exact Completes.bind 1 (3 * (rest.length - body.length) + 1) (by omega)
          completes_updateUploadProgress fun _ => rounds

/-- The record has a checkpoint that the attempt can go on with. -/
def Ready (source : SnapshotSource) (chunkSize : Nat) (checkpoint : UploadCheckpoint)
    (world : UploadWorld) : Prop :=
  world.record.uploadCheckpoint = some checkpoint ∧ checkpoint.Continues source chunkSize world

theorem completes_initiateUpload
    : Completes 1 (fun world => world.uploads ∉ world.closed) attempt.initiateUpload
        (fun uploadId world => uploadId ∉ world.closed) := by
  refine Completes.read fun current => ?_
  have opens : Completes 1 (fun world => world = current ∧ world.uploads ∉ world.closed)
      (external (AkiDbError.internal s!"Failed to initiate upload: {attempt.detail}")
        fun world => { world with uploads := world.uploads + 1 })
      (fun _ world => current.uploads ∉ world.closed) := by
    refine Completes.external fun _ world starts => ?_
    exact starts.1 ▸ starts.2
  exact Completes.bind 1 0 (by omega) opens fun _ => Completes.pure fun _ open_ => open_

/-- The upload chosen is closed, or has no place to start. -/
def Blocked (attempt : Attempt) (uploadId startPart : Nat) (world : UploadWorld) : Prop :=
  uploadId ∈ world.closed ∨ startPart = 0 ∨ 2 ^ 64 ≤ (startPart - 1) * attempt.chunkSize

theorem chooseUpload_from {world} (holds : world.state.record.uploadCheckpoint = some checkpoint)
    (fileSize : Nat)
    : (attempt.chooseUpload checkpoint.objectKey fileSize).from world
      = (if checkpoint.totalBytes = fileSize then
          pure (checkpoint.uploadId, checkpoint.completedParts, checkpoint.nextPart,
            checkpoint.bytesUploaded)
        else do return (← attempt.initiateUpload, [], 1, 0) : UploadM _).from world := by
  unfold Attempt.chooseUpload
  rw [from_bind_ok (show (read : UploadM UploadWorld).from world = (.ok world.state, world)
    from rfl), holds]
  simp only [true_and]

theorem not_blocked_iff {startPart : Nat}
    : ¬Blocked attempt uploadId startPart world
      ↔ uploadId ∉ world.closed ∧ 1 ≤ startPart
        ∧ (startPart - 1) * attempt.chunkSize < 2 ^ 64 := by
  simp [Blocked, Nat.one_le_iff_ne_zero]

theorem completes_chooseUpload
    : Completes 1 (Ready source attempt.chunkSize checkpoint)
        (attempt.chooseUpload checkpoint.objectKey source.file.length)
        (fun choice world => ¬Blocked attempt choice.1 choice.2.2.1 world) := by
  intro world ready
  rw [chooseUpload_from ready.1]
  have continues := ready.2.2
  split at continues
  · next whole =>
      have keeps : Completes 1 (fun state => ¬Blocked attempt checkpoint.uploadId
            checkpoint.nextPart state)
          (pure (checkpoint.uploadId, checkpoint.completedParts, checkpoint.nextPart,
            checkpoint.bytesUploaded) : UploadM (Nat × List Nat × Nat × Nat))
          (fun choice world => ¬Blocked attempt choice.1 choice.2.2.1 world) :=
        Completes.pure fun _ open_ => open_
      rw [if_pos whole]
      exact keeps world (not_blocked_iff.mpr continues)
  · next other =>
      have opens : Completes 1 (fun state => state.uploads ∉ state.closed)
          (do return (← attempt.initiateUpload, ([] : List Nat), 1, 0))
          (fun choice world => ¬Blocked attempt choice.1 choice.2.2.1 world) :=
        Completes.bind 1 0 (Nat.le_refl 1) completes_initiateUpload
          fun _ => Completes.pure fun _ open_ => not_blocked_iff.mpr ⟨open_, by simp⟩
      rw [if_neg other]
      exact opens world continues

theorem completes_completeUpload {parts}
    : Completes 1 (fun world => uploadId ∉ world.closed) (attempt.completeUpload uploadId parts)
        (fun _ _ => True) := by
  refine Completes.bind 0 1 (by omega) completes_refuseClosed fun _ => ?_
  exact Completes.bind 1 0 (by omega) (@Completes.external _ _ _ _ _ (fun _ _ => True)
    fun _ _ _ => trivial) fun _ => Completes.pure fun _ _ => trivial

theorem completes_seek {offset : Nat}
    : Completes 1 (fun world => uploadId ∉ world.closed) (attempt.seek offset)
        (fun _ world => uploadId ∉ world.closed) := by
  unfold Attempt.seek
  split
  · exact Completes.call fun _ held => held
  · exact Completes.pure fun _ held => held

theorem completes_uploadFile (samePath : checkpoint.localPath = source.localPath)
    (works : attempt.WorksFor source)
    : Completes (3 * source.file.length + 7) (Ready source attempt.chunkSize checkpoint)
        (attempt.uploadFileWithCheckpoint source checkpoint.localPath checkpoint.objectKey)
        (fun _ _ => True) := by
  have enough := works.enough
  refine Completes.bind 1 (3 * source.file.length + 6) (by omega)
    (Completes.call fun _ ready => ready) fun _ => ?_
  rw [show source.fileAt checkpoint.localPath = some source.file from if_pos samePath]
  refine Completes.bind 1 (3 * source.file.length + 5) (by omega) completes_chooseUpload
    fun choice => ?_
  obtain ⟨uploadId, completedParts, startPart, resumedBytes⟩ := choice
  refine Completes.bind 1 (3 * source.file.length + 4) (by omega)
    (completes_keepingRecord fun _ _ chosen => chosen) fun _ => ?_
  refine Completes.bind 1 (3 * source.file.length + 3) (by omega)
    (Completes.call fun _ chosen => chosen) fun _ => ?_
  intro world chosen
  have free := not_blocked_iff.mp chosen
  have offset : attempt.calculateStartOffset startPart
      = pure ((startPart - 1) * attempt.chunkSize) := by
    unfold Attempt.calculateStartOffset
    rw [if_neg (Nat.ne_of_gt free.2.1), if_neg (Nat.not_le.mpr free.2.2)]
  rw [offset, pure_bind]
  have short : (source.file.drop ((startPart - 1) * attempt.chunkSize)).length
      ≤ source.file.length := by
    rw [length_drop]
    omega
  refine (?_ : Completes (3 * source.file.length + 3) (fun world => uploadId ∉ world.closed) _
    fun _ _ => True) world free.1
  refine Completes.bind 1 (3 * source.file.length + 2) (by omega) completes_seek fun _ => ?_
  exact Completes.bind (3 * (source.file.drop _).length + 1) 1 (by omega)
    (completes_uploadParts _ _ _ _ _ (by omega)) fun _ => completes_completeUpload

theorem completes_execute (samePath : checkpoint.localPath = source.localPath)
    (works : attempt.WorksFor source)
    : Completes (3 * source.file.length + 10) (Ready source attempt.chunkSize checkpoint)
        (attempt.execute source checkpoint.localPath checkpoint.objectKey)
        (fun _ world => world.saved.state.isCompleted = true) := by
  have uploads : Completes (3 * source.file.length + 7) (Ready source attempt.chunkSize checkpoint)
      (do attempt.uploadFileWithCheckpoint source checkpoint.localPath checkpoint.objectKey
          return (none : Option AkiDbError))
      (fun failure _ => failure = none) :=
    Completes.bind _ 0 (by omega) (completes_uploadFile samePath works)
      fun _ => Completes.pure fun _ _ => rfl
  refine Completes.bind _ 3 (by omega) uploads.tryCatch fun failure => ?_
  cases failure with
  | none =>
    refine Completes.bind 1 2 (by omega) (completes_keepingRecord fun _ _ held => held) fun _ => ?_
    refine Completes.bind 1 1 (by omega) (completes_keepingRecord fun _ _ held => held) fun _ => ?_
    exact completes_changeRecord fun _ _ => rfl
  | some error =>
    intro world impossible
    cases impossible

theorem finishes_of_ready (resumable : world.record.state.isResumable = true)
    (ready : Ready source attempt.chunkSize checkpoint world) (works : attempt.WorksFor source)
    : attempt.Finishes source world := by
  have resets : Completes 1 (Ready source attempt.chunkSize checkpoint)
      (resetForRetry attempt.toSurroundings)
      (fun _ => Ready source attempt.chunkSize checkpoint) := by
    refine Completes.read fun current => ?_
    split
    · exact completes_changeRecord fun _ held => held.2
    · exact Completes.pure fun _ held => held.2
  have continues : Completes (3 * source.file.length + 11)
      (fun state => state = world ∧ Ready source attempt.chunkSize checkpoint state)
      (attempt.resume source) (fun _ world => world.saved.state.isCompleted = true) := by
    refine Completes.read fun current => ?_
    by_cases same : current = world
    · rw [if_pos (same ▸ resumable)]
      refine Completes.bind 1 (3 * source.file.length + 10) (by omega)
        (resets.weaken (fun _ held => held.2.2) le_rfl) fun _ => ?_
      refine Completes.read fun reset => ?_
      intro state held
      rw [← held.1, held.2.1]
      exact completes_execute held.2.2.1 works state held.2
    · intro state held
      exact absurd (held.1.symm.trans held.2.1) same
  have enough := works.enough
  obtain ⟨_, last, ran, completed, -⟩ :=
    continues ⟨world, attempt.script⟩ ⟨rfl, ready⟩ works.working (by dsimp only; omega)
  exact ⟨last, ran, completed⟩

/-! Records that cannot be resumed -/

/-- The program never ends without error from such a state. -/
abbrev Stuck {α : Type} (pre : UploadWorld → Prop) (program : UploadM α) : Prop :=
  Ensures pre program (fun _ _ => False) (fun _ => True)

theorem ensures_keepingRecord
    (kept : ∀ world record, pre world → pre { world with record := change record })
    (saved : ∀ world, pre world → pre { world with saved := world.record })
    : Ensures pre (changeRecord around change) (fun _ => pre) (fun _ => True) := by
  refine Ensures.bind (@Ensures.update _ _ _ _ _ (fun _ => pre)
    fun world => kept world world.record) fun _ => ?_
  exact Ensures.bind (@Ensures.external _ _ _ _ _ _ (fun _ => pre) (fun _ _ => trivial)
    (fun _ _ => trivial) fun _ => saved) fun _ => Ensures.pure fun _ held => held

theorem ensures_call {apply : UploadWorld → UploadWorld}
    (kept : ∀ world, pre world → pre (apply world))
    : Ensures pre (external error apply) (fun _ => pre) (fun _ => True) :=
  Ensures.external (fun _ _ => trivial) (fun _ _ => trivial) fun _ => kept

theorem stuck_refuseClosed
    : Stuck (fun world => uploadId ∈ world.closed) (Attempt.refuseClosed uploadId error) := by
  refine Ensures.read fun current => ?_
  split
  · exact Ensures.throw fun _ _ => trivial
  · next open_ => exact Ensures.pure fun _ held => open_ (held.1 ▸ held.2)

/-- No part of a closed upload is sent. -/
theorem ensures_uploadParts_closed {fileSize : Nat} {objectKey localPath} (fuel : Nat)
    (rest : List UInt8) (completedParts : List Nat) (currentPart bytes : Nat)
    : Ensures (fun world => uploadId ∈ world.closed)
        (attempt.uploadParts uploadId fileSize objectKey localPath fuel rest completedParts
          currentPart bytes)
        (fun _ world => uploadId ∈ world.closed) (fun _ => True) := by
  cases fuel with
  | zero => exact Ensures.throw fun _ _ => trivial
  | succ fuel =>
    refine Ensures.bind (ensures_call fun _ closed => closed) fun size => ?_
    dsimp only
    split
    · exact Ensures.pure fun _ closed => closed
    · exact Ensures.bind stuck_refuseClosed fun _ world impossible => impossible.elim

theorem stuck_completeUpload {parts}
    : Stuck (fun world => uploadId ∈ world.closed) (attempt.completeUpload uploadId parts) :=
  Ensures.bind stuck_refuseClosed fun _ _ impossible => impossible.elim

theorem ensures_chooseUpload_blocked (samePath : checkpoint.localPath = source.localPath)
    : Ensures (fun world => world.record.uploadCheckpoint = some checkpoint
          ∧ ¬checkpoint.Continues source attempt.chunkSize world)
        (attempt.chooseUpload checkpoint.objectKey source.file.length)
        (fun choice world => Blocked attempt choice.1 choice.2.2.1 world) (fun _ => True) := by
  intro world starts
  obtain ⟨holds, stuck⟩ := starts
  rw [chooseUpload_from holds]
  have blocked := not_and.mp stuck samePath
  split at blocked
  · next whole =>
      have keeps : Ensures (fun state => Blocked attempt checkpoint.uploadId
            checkpoint.nextPart state)
          (pure (checkpoint.uploadId, checkpoint.completedParts, checkpoint.nextPart,
            checkpoint.bytesUploaded) : UploadM (Nat × List Nat × Nat × Nat))
          (fun choice world => Blocked attempt choice.1 choice.2.2.1 world) (fun _ => True) :=
        Ensures.pure fun _ held => held
      rw [if_pos whole]
      exact keeps world (not_not.mp fun free => blocked (not_blocked_iff.mp free))
  · next other =>
      have opens : Ensures (fun world => world.uploads ∈ world.closed) attempt.initiateUpload
          (fun uploadId world => uploadId ∈ world.closed) (fun _ => True) := by
        refine Ensures.read fun current => ?_
        refine Ensures.bind (@Ensures.external _ _ _ _ _ _
          (fun _ world => current.uploads ∈ world.closed) (fun _ _ => trivial)
          (fun _ _ => trivial) fun _ world starts => ?_)
          fun _ => Ensures.pure fun _ closed => closed
        exact starts.1 ▸ starts.2
      have chosen : Ensures (fun world => world.uploads ∈ world.closed)
          (do return (← attempt.initiateUpload, ([] : List Nat), 1, 0))
          (fun choice world => Blocked attempt choice.1 choice.2.2.1 world) (fun _ => True) :=
        Ensures.bind opens fun _ => Ensures.pure fun _ closed => .inl closed
      rw [if_neg other]
      exact chosen world (not_not.mp blocked)

theorem stuck_uploadFile
    : Stuck (fun world => world.record.uploadCheckpoint = some checkpoint
          ∧ ¬checkpoint.Continues source attempt.chunkSize world)
        (attempt.uploadFileWithCheckpoint source checkpoint.localPath checkpoint.objectKey) := by
  refine Ensures.bind (ensures_call fun _ held => held) fun _ => ?_
  by_cases samePath : checkpoint.localPath = source.localPath
  · rw [show source.fileAt checkpoint.localPath = some source.file from if_pos samePath]
    refine Ensures.bind (ensures_chooseUpload_blocked samePath) fun choice => ?_
    obtain ⟨uploadId, completedParts, startPart, resumedBytes⟩ := choice
    refine Ensures.bind (ensures_keepingRecord (fun _ _ held => held) fun _ held => held)
      fun _ => ?_
    refine Ensures.bind (ensures_call fun _ held => held) fun _ => ?_
    have starts : Ensures (Blocked attempt uploadId startPart)
        (attempt.calculateStartOffset startPart) (fun _ world => uploadId ∈ world.closed)
        (fun _ => True) := by
      unfold Attempt.calculateStartOffset
      split
      · exact Ensures.throw fun _ _ => trivial
      · split
        · exact Ensures.throw fun _ _ => trivial
        · next some_part inside =>
            exact Ensures.pure fun _ blocked =>
              (blocked.resolve_right fun other => other.elim some_part inside)
    have seeks {offset : Nat} : Ensures (fun world => uploadId ∈ world.closed)
        (attempt.seek offset) (fun _ world => uploadId ∈ world.closed) (fun _ => True) := by
      unfold Attempt.seek
      split
      · exact ensures_call fun _ closed => closed
      · exact Ensures.pure fun _ closed => closed
    refine Ensures.bind starts fun _ => Ensures.bind seeks fun _ => ?_
    exact Ensures.bind (ensures_uploadParts_closed _ _ _ _ _) fun _ => stuck_completeUpload
  · rw [show source.fileAt checkpoint.localPath = none from if_neg samePath]
    exact Ensures.throw fun _ _ => trivial

theorem stuck_execute
    : Stuck (fun world => world.record.uploadCheckpoint = some checkpoint
          ∧ ¬checkpoint.Continues source attempt.chunkSize world)
        (attempt.execute source checkpoint.localPath checkpoint.objectKey) := by
  have uploads : Ensures (fun world => world.record.uploadCheckpoint = some checkpoint
        ∧ ¬checkpoint.Continues source attempt.chunkSize world)
      (do attempt.uploadFileWithCheckpoint source checkpoint.localPath checkpoint.objectKey
          return (none : Option AkiDbError))
      (fun failure _ => failure ≠ none) (fun _ => True) :=
    Ensures.bind stuck_uploadFile fun _ _ impossible => impossible.elim
  refine Ensures.bind (Ensures.tryCatch uploads fun stop => ?_) fun failure => ?_
  · cases stop with
    | failed error => exact Ensures.pure fun _ _ => by simp
    | crashed => exact Ensures.throw fun _ _ => trivial
  · cases failure with
    | none =>
      intro world impossible
      exact absurd rfl impossible
    | some error =>
      exact Ensures.bind (ensures_keepingRecord (fun _ _ held => held) fun _ held => held)
        fun _ => Ensures.throw fun _ _ => trivial

theorem ready_of_finishes (finishes : attempt.Finishes source world)
    : world.record.state.isResumable = true
      ∧ ∃ checkpoint, Ready source attempt.chunkSize checkpoint world := by
  obtain ⟨last, ran, -⟩ := finishes
  by_contra unready
  have stuck : Stuck (fun state => state = world) (attempt.resume source) := by
    refine Ensures.read fun current => ?_
    split
    · next resumable =>
        have waits : Ensures (fun state => state = current ∧ state = world)
            (resetForRetry attempt.toSurroundings)
            (fun _ state => ¬∃ checkpoint, Ready source attempt.chunkSize checkpoint state)
            (fun _ => True) := by
          refine (Ensures.read fun _ => ?_ : Ensures
            (fun state => ¬∃ checkpoint, Ready source attempt.chunkSize checkpoint state)
            _ _ _).weaken fun state same => ?_
          · split
            · refine (Ensures.bind (@Ensures.update _ _ _ _ _ (fun _ state =>
                ¬∃ checkpoint, Ready source attempt.chunkSize checkpoint state)
                fun _ held => held.2) fun _ => ?_)
              exact Ensures.bind (ensures_call fun _ held => held)
                fun _ => Ensures.pure fun _ held => held
            · exact Ensures.pure fun _ held => held.2
          · obtain ⟨rfl, rfl⟩ := same
            exact fun ready => unready ⟨resumable, ready⟩
        refine Ensures.bind waits fun _ => ?_
        refine Ensures.read fun reset => ?_
        split
        · exact Ensures.throw fun _ _ => trivial
        · next checkpoint holds =>
            refine stuck_execute.weaken fun state held => ?_
            obtain ⟨rfl, unready⟩ := held
            exact ⟨holds, fun continues => unready ⟨checkpoint, holds, continues⟩⟩
    · exact Ensures.throw fun _ _ => trivial
  exact (stuck ⟨world, attempt.script⟩ rfl).1 () last ran

/-! After a crash -/

/-- After a crash in any state, an operation ends or is recovered and resumed to its end exactly
when it is completed, permanently failed, or recoverable.
Witness: a resumed upload ends exactly when its checkpoint continues.
-/
theorem crashed_operations_recover (config : RetryConfig) (source : SnapshotSource)
    (attempt : Attempt) (works : attempt.WorksFor source) (now : Nat) (world : UploadWorld)
    : let crashed := world.reload
      ((crashed.record.state.isCompleted = true
            ∨ permanentlyFailed config crashed.record = true
            ∨ recovers config now crashed.record = true)
          ∧ (recovers config now crashed.record = true → attempt.Finishes source crashed))
        ↔ crashed.record.state.isCompleted = true
          ∨ permanentlyFailed config crashed.record = true
          ∨ Recoverable config now source attempt.chunkSize crashed := by
  intro crashed
  have finishes : attempt.Finishes source crashed
      ↔ crashed.record.state.isResumable = true
        ∧ ∃ checkpoint, Ready source attempt.chunkSize checkpoint crashed :=
    ⟨ready_of_finishes, fun ready => ready.2.elim fun _ held =>
      finishes_of_ready ready.1 held works⟩
  rw [finishes]
  change _ ↔ _ ∨ _ ∨ ((crashed.record.state.isUploading = true
    ∨ shouldRetry config now crashed.record = true)
    ∧ ∃ checkpoint, Ready source attempt.chunkSize checkpoint crashed)
  generalize (∃ checkpoint, Ready source attempt.chunkSize checkpoint crashed) = ready
  generalize crashed.record = record
  obtain ⟨state, updatedAt, uploadCheckpoint⟩ := record
  cases state with
  | failed error retryCount lastAttempt originalState =>
    by_cases limit : config.maxRetries ≤ retryCount
    · simp [permanentlyFailed, recovers, shouldRetry, isInProgress, limit, Nat.not_lt.mpr limit]
    · have below := Nat.not_le.mp limit
      simp +contextual [permanentlyFailed, recovers, shouldRetry, isInProgress,
        isResumable, isCompleted, isUploading, limit,
        below]
  | _ =>
    simp [permanentlyFailed, recovers, shouldRetry, isInProgress,
      isResumable, isCompleted, isUploading]

def crashAfter (calls : Nat) : UploadWorld :=
  perform sampleSource (startOperation ⟨0, ""⟩)
    (.execute (sampleAttempt (List.replicate calls (.succeeds, minChunkSize)
      ++ [(.crashes false, 0)])))

/-- A crash after the first part: the operation is recovered and completed. -/
theorem crash_in_upload_recovers
    : (sampleAttempt (List.replicate 9 (.succeeds, minChunkSize))).Finishes sampleSource
        (crashAfter 7).reload := by
  have works : (sampleAttempt (List.replicate 9 (.succeeds, minChunkSize))).WorksFor
      sampleSource :=
    ⟨by unfold Working; decide +kernel, by decide +kernel⟩
  refine ((crashed_operations_recover ⟨3, [60]⟩ sampleSource _ works 0 (crashAfter 7)).mpr
    (.inr (.inr ⟨.inl (by decide +kernel), ?_⟩))).2 (by decide +kernel)
  exact ⟨_, rfl, by decide +kernel⟩

/-- Crashes before the upload, after the store has completed it, and after that is recorded. -/
theorem crashes_lose_operations
    : let config : RetryConfig := ⟨3, [60]⟩
      let resumes := fun world : UploadWorld =>
        (((sampleAttempt (List.replicate 9 (.succeeds, minChunkSize))).resume sampleSource).from
          ⟨world.reload, List.replicate 21 (.succeeds, minChunkSize)⟩).1.toBool
      recovers config 1000 (startOperation ⟨0, ""⟩).saved = false
        ∧ (recovers config 1000 (crashAfter 9).saved = true ∧ resumes (crashAfter 9) = false)
        ∧ (recovers config 1000 (crashAfter 10).saved = true
          ∧ (crashAfter 10).saved.state.isResumable = false
          ∧ resumes (crashAfter 10) = false) := by
  decide +kernel

end AkiDB.Snapshot
