import AkiDB.Library.Runs
import AkiDB.Snapshot.StateMachine

/-!
The resumable upload of a snapshot file: a resumed one starts where that many full chunks would
end.
-/

namespace AkiDB.Snapshot
open AkiDB.Common Effects Scripts SnapshotStateMachine List Ensures

def minChunkSize : Nat :=
  5 * 1024 * 1024

structure SnapshotSource where
  localPath : String
  objectKey : String
  file : List UInt8

def SnapshotSource.fileAt (source : SnapshotSource) (path : String) : Option (List UInt8) :=
  if path = source.localPath then some source.file else none

/-- One call of the executor: the chunk size, and the outcomes of the calls it makes. -/
structure Attempt extends Surroundings where
  chunkSize : Nat
  sanitized : minChunkSize ≤ chunkSize
  script : List (Outcome × Nat)

namespace Attempt

variable (attempt : Attempt) (source : SnapshotSource)

def calculateChunks (fileSize : Nat) : Nat :=
  if fileSize = 0 then 1 else (fileSize + attempt.chunkSize - 1) / attempt.chunkSize

def calculateStartOffset (startPart : Nat) : UploadM Nat :=
  if startPart = 0 then
    throw (.failed (.invalidParameter "Multipart checkpoint next_part must be >= 1"))
  else if 2 ^ 64 ≤ (startPart - 1) * attempt.chunkSize then
    throw (.failed (.invalidParameter "Multipart checkpoint start offset overflow"))
  else
    return (startPart - 1) * attempt.chunkSize

def initiateUpload : UploadM Nat := do
  let uploadId := (← read).uploads
  let _ ← external (.internal s!"Failed to initiate upload: {attempt.detail}") fun world =>
    { world with uploads := world.uploads + 1 }
  return uploadId

/-- The upload to go on with: its id, the parts completed, the next part and the bytes
uploaded. -/
def chooseUpload (objectKey : String) (fileSize : Nat)
    : UploadM (Nat × List Nat × Nat × Nat) := do
  match (← read).record.uploadCheckpoint with
  | some checkpoint =>
    if checkpoint.objectKey = objectKey ∧ checkpoint.totalBytes = fileSize then
      return (checkpoint.uploadId, checkpoint.completedParts, checkpoint.nextPart,
        checkpoint.bytesUploaded)
    else
      return (← attempt.initiateUpload, [], 1, 0)
  | none => return (← attempt.initiateUpload, [], 1, 0)

def refuseClosed (uploadId : Nat) (error : AkiDbError) : UploadM Unit := do
  if uploadId ∈ (← read).closed then throw (.failed error) else return ()

def storeBody (uploadId part : Nat) (body : List UInt8) (world : UploadWorld) : UploadWorld :=
  { world with
    bodies := fun upload number =>
      if upload = uploadId ∧ number = part then body else world.bodies upload number }

/-- The loop over the rest of the file; fuel for every call of the script is enough. -/
def uploadParts (uploadId fileSize : Nat) (objectKey localPath : String)
    : Nat → List UInt8 → List Nat → Nat → Nat → UploadM (List Nat)
  | 0, _, _, _, _ => throw .crashed
  | fuel + 1, rest, completedParts, currentPart, bytesUploaded => do
    let size ← external (.internal s!"Failed to read file: {attempt.detail}") id
    let body := rest.take (max 1 (min size attempt.chunkSize))
    if body.isEmpty then
      return completedParts
    refuseClosed uploadId (.internal s!"Part upload failed: {attempt.detail}")
    let _ ← external (.internal s!"Part upload request failed: {attempt.detail}")
      (storeBody uploadId currentPart body)
    let completedParts := completedParts ++ [currentPart]
    let bytesUploaded := bytesUploaded + body.length
    -- The part number is a 32-bit counter.
    let currentPart := (currentPart + 1) % 2 ^ 32
    updateUploadProgress attempt.toSurroundings completedParts.length bytesUploaded
      { uploadId, completedParts, nextPart := currentPart, bytesUploaded,
        totalBytes := fileSize, objectKey, localPath }
    uploadParts uploadId fileSize objectKey localPath fuel (rest.drop body.length)
      completedParts currentPart bytesUploaded

def completeUpload (uploadId : Nat) (completedParts : List Nat) : UploadM Unit := do
  refuseClosed uploadId (.internal s!"Failed to complete multipart upload: {attempt.detail}")
  let _ ← external (.internal s!"Failed to complete upload: {attempt.detail}") fun world =>
    { world with
      objects := world.objects ++ [completedParts.flatMap (world.bodies uploadId)]
      closed := uploadId :: world.closed }

def seek (startOffset : Nat) : UploadM Nat :=
  if 0 < startOffset then external (.internal s!"Failed to seek: {attempt.detail}") id
  else return 0

def uploadFileWithCheckpoint (localPath objectKey : String) : UploadM Unit := do
  let _ ← external (.internal s!"Failed to get file metadata: {attempt.detail}") id
  match source.fileAt localPath with
  | none => throw (.failed (.internal s!"Failed to get file metadata: {attempt.detail}"))
  | some file =>
    let (uploadId, completedParts, startPart, resumedBytes) ←
      attempt.chooseUpload objectKey file.length
    transitionToUploading attempt.toSurroundings (attempt.calculateChunks file.length) file.length
      { uploadId, completedParts, nextPart := startPart, bytesUploaded := resumedBytes,
        totalBytes := file.length, objectKey, localPath }
    let _ ← external (.internal s!"Failed to open file: {attempt.detail}") id
    let startOffset ← attempt.calculateStartOffset startPart
    let _ ← attempt.seek startOffset
    let completedParts ← attempt.uploadParts uploadId file.length objectKey localPath
      attempt.script.length (file.drop startOffset) completedParts startPart resumedBytes
    attempt.completeUpload uploadId completedParts

def execute (localPath objectKey : String) : UploadM Unit := do
  let failure ← tryCatch
    (do attempt.uploadFileWithCheckpoint source localPath objectKey
        return none)
    (fun
      | .failed error => return some error
      | .crashed => throw .crashed)
  match failure with
  | none =>
    transitionToVerifying attempt.toSurroundings
    transitionToCompleting attempt.toSurroundings
    completeOperation attempt.toSurroundings
  | some error =>
    failOperation attempt.toSurroundings error.display
    throw (.failed error)

def resume : UploadM Unit := do
  if (← read).record.state.isResumable then
    resetForRetry attempt.toSurroundings
    match (← read).record.uploadCheckpoint with
    | none => throw (.failed (.invalidParameter "No checkpoint data for resume"))
    | some checkpoint => attempt.execute source checkpoint.localPath checkpoint.objectKey
  else
    throw (.failed (.invalidParameter "Operation is not resumable"))

end Attempt

/-! Runs of one operation -/

inductive UploadAction where
  | execute (attempt : Attempt)
  | resume (attempt : Attempt)
  /-- A restart, or a caller that loads the record again. -/
  | reload

def UploadWorld.reload (world : UploadWorld) : UploadWorld :=
  { world with record := world.saved }

/-- What a call leaves: after a crash the record in memory is gone. -/
def UploadWorld.after (program : UploadM Unit) (script : List (Outcome × Nat))
    (world : UploadWorld) : UploadWorld :=
  match program.from ⟨world, script⟩ with
  | (.error .crashed, last) => last.state.reload
  | (_, last) => last.state

def perform (source : SnapshotSource) (world : UploadWorld) : UploadAction → UploadWorld
  | .execute attempt =>
    world.after (attempt.execute source source.localPath source.objectKey) attempt.script
  | .resume attempt => world.after (attempt.resume source) attempt.script
  | .reload => world.reload

/-- The upload starts at the byte its checkpoint reached, and the part numbers suffice. -/
def Attempt.Aligned (source : SnapshotSource) (attempt : Attempt) (world : UploadWorld) : Prop :=
  match world.record.uploadCheckpoint with
  | none => 1 + attempt.script.length < 2 ^ 32
  | some checkpoint =>
    min ((checkpoint.nextPart - 1) * attempt.chunkSize) source.file.length
      = checkpoint.bytesUploaded
    ∧ checkpoint.nextPart + attempt.script.length < 2 ^ 32

def UploadAction.Aligned (source : SnapshotSource) (world : UploadWorld) : UploadAction → Prop
  | .execute attempt | .resume attempt => attempt.Aligned source world
  | .reload => True

instance (source : SnapshotSource) (attempt : Attempt) (world : UploadWorld)
    : Decidable (attempt.Aligned source world) := by
  unfold Attempt.Aligned
  split <;> infer_instance

def UploadWorld.storedSize (world : UploadWorld) (checkpoint : UploadCheckpoint) : Nat :=
  (checkpoint.completedParts.map fun part =>
    (world.bodies checkpoint.uploadId part).length).sum

/-! Checkpoints that cover the file up to the byte they have reached -/

def UploadCheckpoint.extended (checkpoint : UploadCheckpoint) (body : List UInt8)
    : UploadCheckpoint :=
  { checkpoint with
    completedParts := checkpoint.completedParts ++ [checkpoint.nextPart]
    nextPart := checkpoint.nextPart + 1
    bytesUploaded := checkpoint.bytesUploaded + body.length }

structure Covers (source : SnapshotSource) (world : UploadWorld)
    (checkpoint : UploadCheckpoint) : Prop where
  initiated : checkpoint.uploadId < world.uploads
  numbered : checkpoint.completedParts = List.range' 1 (checkpoint.nextPart - 1)
  positive : 1 ≤ checkpoint.nextPart
  content :
    checkpoint.completedParts.flatMap (world.bodies checkpoint.uploadId)
      = source.file.take checkpoint.bytesUploaded
  bounded : checkpoint.bytesUploaded ≤ source.file.length
  whole : checkpoint.totalBytes = source.file.length
  sameKey : checkpoint.objectKey = source.objectKey
  samePath : checkpoint.localPath = source.localPath

/-- Both records have such checkpoints, the stored one is not ahead, completed uploads are the
file. -/
structure Kept (source : SnapshotSource) (world : UploadWorld) : Prop where
  record : ∀ checkpoint, world.record.uploadCheckpoint = some checkpoint →
    Covers source world checkpoint
  saved : ∀ checkpoint, world.saved.uploadCheckpoint = some checkpoint →
    Covers source world checkpoint
  behind : ∀ stored held, world.saved.uploadCheckpoint = some stored →
    world.record.uploadCheckpoint = some held → stored.uploadId = held.uploadId →
    stored.nextPart ≤ held.nextPart
  objects : ∀ object ∈ world.objects, object = source.file

variable {source : SnapshotSource} {world : UploadWorld} {attempt : Attempt}
variable {around : Surroundings}

variable {checkpoint : UploadCheckpoint}

theorem Covers.storedSize (covers : Covers source world checkpoint)
    : world.storedSize checkpoint = checkpoint.bytesUploaded := by
  have lengths := congrArg List.length covers.content
  rw [length_flatMap, length_take, min_eq_left covers.bounded] at lengths
  exact lengths

variable {uploadId : Nat} {body : List UInt8}

theorem Covers.storeBody {part : Nat} (covers : Covers source world checkpoint)
    (unlisted : checkpoint.uploadId = uploadId → checkpoint.nextPart ≤ part)
    : Covers source (Attempt.storeBody uploadId part body world) checkpoint := by
  refine { covers with content := ?_ }
  have same : checkpoint.completedParts.flatMap
      ((Attempt.storeBody uploadId part body world).bodies checkpoint.uploadId)
      = checkpoint.completedParts.flatMap (world.bodies checkpoint.uploadId) := by
    refine flatMap_congr fun number listed => ?_
    rw [covers.numbered, mem_range'_1] at listed
    refine if_neg fun both => ?_
    have := unlisted both.1
    omega
  exact same.trans covers.content

theorem Covers.extend (covers : Covers source world checkpoint)
    (sent : world.bodies checkpoint.uploadId checkpoint.nextPart = body)
    (from_rest : body <+: source.file.drop checkpoint.bytesUploaded)
    : Covers source world (checkpoint.extended body) := by
  have short := from_rest.length_le
  rw [length_drop] at short
  have next : checkpoint.nextPart = 1 + (checkpoint.nextPart - 1) :=
    (Nat.add_sub_cancel' covers.positive).symm
  refine
    { covers with
      numbered := ?_
      positive := Nat.le_add_left 1 _
      content := ?_
      bounded := Nat.add_le_of_le_sub' covers.bounded short }
  · dsimp only [UploadCheckpoint.extended]
    rw [covers.numbered, Nat.add_sub_cancel]
    conv_rhs => rw [next, Nat.add_comm 1, range'_concat]
    rw [Nat.one_mul, ← next]
  · dsimp only [UploadCheckpoint.extended]
    rw [flatMap_append, covers.content, flatMap_singleton, sent, take_add,
      prefix_iff_eq_take.mp from_rest]
    simp

theorem Covers.complete (covers : Covers source world checkpoint)
    (ended : source.file.drop checkpoint.bytesUploaded = [])
    : checkpoint.completedParts.flatMap (world.bodies checkpoint.uploadId) = source.file := by
  rw [covers.content, take_of_length_le (drop_eq_nil_iff.mp ended)]

namespace Kept

theorem start : Kept source (startOperation around) where
  record _ held := by cases held
  saved _ held := by cases held
  behind _ _ held := by cases held
  objects _ listed := by cases listed

section
variable (kept : Kept source world)
include kept

variable {record : SnapshotStateRecord}

theorem changed (same : ∀ checkpoint, record.uploadCheckpoint = some checkpoint →
      world.record.uploadCheckpoint = some checkpoint)
    : Kept source { world with record } where
  record checkpoint held :=
    { kept.record checkpoint (same checkpoint held) with }
  saved checkpoint held := { kept.saved checkpoint held with }
  behind stored held isStored isHeld := kept.behind stored held isStored (same held isHeld)
  objects := kept.objects

theorem save : Kept source { world with saved := world.record } where
  record checkpoint held := { kept.record checkpoint held with }
  saved checkpoint held := { kept.record checkpoint held with }
  behind stored held isStored isHeld _ := by
    cases Option.some.inj (isStored.symm.trans isHeld)
    exact le_rfl
  objects := kept.objects

theorem reload : Kept source world.reload where
  record checkpoint held := { kept.saved checkpoint held with }
  saved checkpoint held := { kept.saved checkpoint held with }
  behind stored held isStored isHeld _ := by
    cases Option.some.inj (isStored.symm.trans isHeld)
    exact le_rfl
  objects := kept.objects

variable {checkpoint : UploadCheckpoint}

theorem advance (holds : record.uploadCheckpoint = some checkpoint)
    (covers : Covers source world checkpoint)
    (ahead : ∀ stored, world.saved.uploadCheckpoint = some stored →
      stored.uploadId = checkpoint.uploadId → stored.nextPart ≤ checkpoint.nextPart)
    : Kept source { world with record } where
  record other held := by
    cases Option.some.inj (holds.symm.trans held)
    exact { covers with }
  saved other held := { kept.saved other held with }
  behind stored held isStored isHeld := by
    cases Option.some.inj (holds.symm.trans isHeld)
    exact ahead stored isStored
  objects := kept.objects

theorem storeBody {body} (holds : world.record.uploadCheckpoint = some checkpoint)
    : Kept source (Attempt.storeBody checkpoint.uploadId checkpoint.nextPart body world) where
  record other held := by
    cases Option.some.inj (holds.symm.trans held)
    exact (kept.record _ holds).storeBody fun _ => le_rfl
  saved other held := (kept.saved other held).storeBody (kept.behind other _ held holds)
  behind := kept.behind
  objects := kept.objects

theorem initiate
    : Kept source { world with uploads := world.uploads + 1 } where
  record checkpoint held :=
    { kept.record checkpoint held with
      initiated := Nat.lt_succ_of_lt (kept.record checkpoint held).initiated }
  saved checkpoint held :=
    { kept.saved checkpoint held with
      initiated := Nat.lt_succ_of_lt (kept.saved checkpoint held).initiated }
  behind := kept.behind
  objects := kept.objects

theorem complete {object closed} (whole : object = source.file)
    : Kept source { world with objects := world.objects ++ [object], closed } where
  record checkpoint held := { kept.record checkpoint held with }
  saved checkpoint held := { kept.saved checkpoint held with }
  behind := kept.behind
  objects other listed := by
    rcases mem_append.mp listed with earlier | last
    · exact kept.objects other earlier
    · exact (mem_singleton.mp last).trans whole

end

end Kept

/-! The calls keep them -/

variable {change : SnapshotStateRecord → SnapshotStateRecord} {pre : UploadWorld → Prop}

theorem ensures_changeRecord {post : UploadWorld → Prop}
    (changes : ∀ world, pre world → Kept source { world with record := change world.record })
    (ends : ∀ world, pre world →
      post { world with record := change world.record, saved := change world.record })
    : Ensures pre (changeRecord around change) (fun _ => post) (Kept source) := by
  refine bind (@Ensures.update _ _ pre _ _ (fun _ next => Kept source next ∧
      post { next with saved := next.record })
      fun state starts => ⟨changes state starts, ends state starts⟩) fun _ => ?_
  refine bind (external (fun _ held => held.1) (fun _ held => held.1.save)
    fun _ _ held => ?_) fun _ => pure fun _ ended => ended
  exact held.2

theorem ensures_transition
    (same : ∀ record checkpoint, (change record).uploadCheckpoint = some checkpoint →
      record.uploadCheckpoint = some checkpoint)
    : Ensures (Kept source) (changeRecord around change) (fun _ => Kept source) (Kept source) := by
  refine ensures_changeRecord (fun world kept => kept.changed (same world.record))
    fun world kept => ?_
  exact (kept.changed (same world.record)).save

/-- The loop's invariant: uploading, with a checkpoint of the parts sent so far. -/
structure Uploading (source : SnapshotSource) (checkpoint : UploadCheckpoint)
    (world : UploadWorld) : Prop where
  kept : Kept source world
  holds : world.record.uploadCheckpoint = some checkpoint
  state : ∃ chunks totalChunks bytes totalBytes startedAt,
    world.record.state = .uploading chunks totalChunks bytes totalBytes startedAt

theorem Uploading.storeBody (uploading : Uploading source checkpoint world)
    : Uploading source checkpoint
        (Attempt.storeBody checkpoint.uploadId checkpoint.nextPart body world) :=
  ⟨uploading.kept.storeBody uploading.holds, uploading.holds, uploading.state⟩

theorem Uploading.ahead (uploading : Uploading source checkpoint world) (stored : UploadCheckpoint)
    (isStored : world.saved.uploadCheckpoint = some stored)
    (same : stored.uploadId = checkpoint.uploadId) : stored.nextPart ≤ checkpoint.nextPart :=
  uploading.kept.behind stored checkpoint isStored uploading.holds same

theorem ensures_updateUploadProgress {chunks bytes : Nat} {checkpoint next}
    : Ensures (fun world => Uploading source checkpoint world ∧ Covers source world next
          ∧ next.uploadId = checkpoint.uploadId ∧ checkpoint.nextPart ≤ next.nextPart)
        (updateUploadProgress around chunks bytes next)
        (fun _ => Uploading source next) (Kept source) := by
  refine read fun current => ?_
  split
  · have advanced (world : UploadWorld) (record : SnapshotStateRecord)
        (held : Uploading source checkpoint world ∧ Covers source world next
          ∧ next.uploadId = checkpoint.uploadId ∧ checkpoint.nextPart ≤ next.nextPart)
        (holds : record.uploadCheckpoint = some next) : Kept source { world with record } := by
      obtain ⟨uploading, covers, sameUpload, later⟩ := held
      exact uploading.kept.advance holds covers fun stored isStored same =>
        (uploading.ahead stored isStored (same.trans sameUpload)).trans later
    refine ensures_changeRecord (fun world held => advanced world _ held.2 rfl)
      fun world held => ?_
    exact ⟨(advanced world _ held.2 rfl).save, rfl, _, _, _, _, _, rfl⟩
  · rename_i elsewhere
    refine pure fun world held => ?_
    obtain ⟨rfl, ⟨_, _, _, _, _, _, _, isUploading⟩, _⟩ := held
    exact (elsewhere _ _ _ _ _ isUploading).elim

theorem ensures_probe {error : AkiDbError} (kept : ∀ world, pre world → Kept source world)
    : Ensures pre (external error id) (fun _ => pre) (Kept source) :=
  external kept kept fun _ _ held => held

theorem ensures_refuseClosed {error} (kept : ∀ world, pre world → Kept source world)
    : Ensures pre (Attempt.refuseClosed uploadId error) (fun _ => pre) (Kept source) := by
  refine read fun current => ?_
  split
  · exact throw fun world held => kept world held.2
  · exact pure fun _ held => held.2

/-- One part sent and recorded. -/
theorem ensures_sendPart {error gone checkpoint body} {chunks : Nat}
    (from_rest : body <+: source.file.drop checkpoint.bytesUploaded)
    : Ensures (Uploading source checkpoint) (do
          Attempt.refuseClosed checkpoint.uploadId gone
          let _ ← external error (Attempt.storeBody checkpoint.uploadId checkpoint.nextPart body)
          updateUploadProgress around chunks (checkpoint.bytesUploaded + body.length)
            (checkpoint.extended body))
        (fun _ => Uploading source (checkpoint.extended body)) (Kept source) := by
  refine bind (ensures_refuseClosed fun _ uploading => uploading.kept) fun _ => ?_
  refine bind (external (fun _ uploading => uploading.kept)
    (fun _ uploading => uploading.storeBody.kept) fun _ world uploading => ?_)
    fun _ => @ensures_updateUploadProgress _ _ _ _ checkpoint _
  have stored : Uploading source checkpoint
      (Attempt.storeBody checkpoint.uploadId checkpoint.nextPart body world) :=
    uploading.storeBody
  have covers := stored.kept.record checkpoint stored.holds
  exact ⟨stored, covers.extend (if_pos ⟨rfl, rfl⟩) from_rest, rfl, Nat.le_succ _⟩

/-- The loop sends the rest of the file, part after part. -/
theorem ensures_uploadParts (fuel : Nat) (checkpoint : UploadCheckpoint)
    (whole : checkpoint.totalBytes = source.file.length)
    (room : checkpoint.nextPart + fuel < 2 ^ 32)
    : Ensures (Uploading source checkpoint)
        (attempt.uploadParts checkpoint.uploadId source.file.length checkpoint.objectKey
          checkpoint.localPath fuel (source.file.drop checkpoint.bytesUploaded)
          checkpoint.completedParts checkpoint.nextPart checkpoint.bytesUploaded)
        (fun parts world => Kept source world
          ∧ parts.flatMap (world.bodies checkpoint.uploadId) = source.file)
        (Kept source) := by
  induction fuel generalizing checkpoint with
  | zero => exact throw fun _ uploading => uploading.kept
  | succ fuel continues =>
    refine bind (ensures_probe fun _ uploading => uploading.kept) fun size => ?_
    generalize part_eq : (source.file.drop checkpoint.bytesUploaded).take
      (max 1 (min size attempt.chunkSize)) = body
    dsimp only
    split
    · rename_i ended
      refine pure fun world uploading => ⟨uploading.kept, ?_⟩
      refine (uploading.kept.record _ uploading.holds).complete ?_
      have nothing := take_eq_nil_iff.mp (part_eq.trans (List.isEmpty_iff.mp ended))
      exact nothing.resolve_left (Nat.ne_of_gt (le_max_left 1 _))
    · have number : (checkpoint.nextPart + 1) % 2 ^ 32 = checkpoint.nextPart + 1 :=
        Nat.mod_eq_of_lt (by omega)
      rw [number]
      have unsent : body <+: source.file.drop checkpoint.bytesUploaded :=
        part_eq ▸ take_prefix _ _
      have sends := @ensures_sendPart _ attempt.toSurroundings
        (.internal s!"Part upload request failed: {attempt.detail}")
        (.internal s!"Part upload failed: {attempt.detail}") _ _
        (checkpoint.completedParts ++ [checkpoint.nextPart]).length unsent
      have rounds := continues (checkpoint.extended body) whole (by
        dsimp only [UploadCheckpoint.extended]
        omega)
      rw [← whole] at rounds ⊢
      rw [drop_drop]
      have both := bind sends fun _ => rounds
      simp only [bind_assoc] at both
      exact both

def SnapshotSource.checkpointOf (source : SnapshotSource) (choice : Nat × List Nat × Nat × Nat)
    : UploadCheckpoint :=
  { uploadId := choice.1
    completedParts := choice.2.1
    nextPart := choice.2.2.1
    bytesUploaded := choice.2.2.2
    totalBytes := source.file.length
    objectKey := source.objectKey
    localPath := source.localPath }

/-- A checkpoint that an attempt may begin with. -/
structure Begins (source : SnapshotSource) (attempt : Attempt) (checkpoint : UploadCheckpoint)
    (world : UploadWorld) : Prop where
  kept : Kept source world
  covers : Covers source world checkpoint
  ahead : ∀ stored, world.saved.uploadCheckpoint = some stored →
    stored.uploadId = checkpoint.uploadId → stored.nextPart ≤ checkpoint.nextPart
  offset : min ((checkpoint.nextPart - 1) * attempt.chunkSize) source.file.length
    = checkpoint.bytesUploaded
  room : checkpoint.nextPart + attempt.script.length < 2 ^ 32

theorem Covers.checkpointOf_eq (covers : Covers source world checkpoint)
    : source.checkpointOf (checkpoint.uploadId, checkpoint.completedParts, checkpoint.nextPart,
        checkpoint.bytesUploaded) = checkpoint := by
  unfold SnapshotSource.checkpointOf
  rw [← covers.whole, ← covers.sameKey, ← covers.samePath]

theorem Begins.fresh (kept : Kept source world) (room : 1 + attempt.script.length < 2 ^ 32)
    : Begins source attempt (source.checkpointOf (world.uploads, [], 1, 0))
        { world with uploads := world.uploads + 1 } where
  kept := kept.initiate
  covers :=
    { initiated := Nat.lt_succ_self _
      numbered := rfl
      positive := le_rfl
      content := rfl
      bounded := Nat.zero_le _
      whole := rfl
      sameKey := rfl
      samePath := rfl }
  ahead stored isStored same :=
    ((kept.saved stored isStored).initiated.ne same).elim
  offset := by
    dsimp only [SnapshotSource.checkpointOf]
    rw [Nat.sub_self, Nat.zero_mul, Nat.zero_min]
  room := room

theorem ensures_initiateUpload (room : 1 + attempt.script.length < 2 ^ 32)
    : Ensures (Kept source) attempt.initiateUpload
        (fun uploadId => Begins source attempt (source.checkpointOf (uploadId, [], 1, 0)))
        (Kept source) := by
  refine read fun current => ?_
  refine bind (external (fun _ held => held.2) (fun _ held => held.2.initiate)
    fun _ world held => ?_) fun _ => pure fun _ begins => begins
  obtain ⟨rfl, kept⟩ := held
  exact Begins.fresh kept room

theorem ensures_chooseUpload
    : Ensures (fun world => Kept source world ∧ attempt.Aligned source world)
        (attempt.chooseUpload source.objectKey source.file.length)
        (fun choice => Begins source attempt (source.checkpointOf choice)) (Kept source) := by
  refine read fun current => ?_
  split
  · rename_i checkpoint holds
    split
    · refine pure fun world held => ?_
      obtain ⟨rfl, kept, aligned⟩ := held
      have covers := kept.record checkpoint holds
      rw [covers.checkpointOf_eq]
      unfold Attempt.Aligned at aligned
      rw [holds] at aligned
      exact ⟨kept, covers, fun stored isStored => kept.behind stored _ isStored holds,
        aligned.1, aligned.2⟩
    · rename_i differs
      intro world held
      obtain ⟨same, kept, _⟩ := held
      have covers := kept.record checkpoint (same ▸ holds)
      exact (differs ⟨covers.sameKey, covers.whole⟩).elim
  · rename_i none_eq
    intro world held
    obtain ⟨rfl, kept, aligned⟩ := held
    unfold Attempt.Aligned at aligned
    rw [none_eq] at aligned
    have initiates := bind (ensures_initiateUpload aligned) fun uploadId =>
      @Ensures.pure _ _ _ _ (fun choice => Begins source attempt (source.checkpointOf choice)) _
        (uploadId, [], 1, 0) fun _ begins => begins
    exact initiates world kept

theorem ensures_transitionToUploading {totalChunks totalBytes : Nat}
    : Ensures (Begins source attempt checkpoint)
        (transitionToUploading around totalChunks totalBytes checkpoint)
        (fun _ => Uploading source checkpoint) (Kept source) := by
  refine ensures_changeRecord
    (fun world begins => begins.kept.advance rfl begins.covers begins.ahead)
    fun world begins => ?_
  exact ⟨(begins.kept.advance rfl begins.covers begins.ahead).save, rfl, _, _, _, _, _, rfl⟩

theorem ensures_calculateStartOffset
    : Ensures (Uploading source checkpoint) (attempt.calculateStartOffset checkpoint.nextPart)
        (fun offset world => Uploading source checkpoint world
          ∧ offset = (checkpoint.nextPart - 1) * attempt.chunkSize) (Kept source) := by
  unfold Attempt.calculateStartOffset
  split
  · exact throw fun _ uploading => uploading.kept
  · split
    · exact throw fun _ uploading => uploading.kept
    · exact pure fun _ uploading => ⟨uploading, rfl⟩

theorem Begins.rest_eq (begins : Begins source attempt checkpoint world)
    : source.file.drop ((checkpoint.nextPart - 1) * attempt.chunkSize)
      = source.file.drop checkpoint.bytesUploaded := by
  rw [← begins.offset]
  rcases Nat.le_total ((checkpoint.nextPart - 1) * attempt.chunkSize) source.file.length
    with inside | beyond
  · rw [Nat.min_eq_left inside]
  · rw [Nat.min_eq_right beyond, drop_length, drop_eq_nil_iff.mpr beyond]

theorem ensures_completeUpload {parts}
    : Ensures (fun world => Kept source world
          ∧ parts.flatMap (world.bodies uploadId) = source.file)
        (attempt.completeUpload uploadId parts) (fun _ => Kept source) (Kept source) :=
  bind (ensures_refuseClosed fun _ held => held.1) fun _ =>
    bind (external (fun _ held => held.1) (fun _ held => held.1.complete held.2)
        fun _ _ held => held.1.complete held.2)
      fun _ => pure fun _ kept => kept

theorem ensures_seek {offset : Nat}
    : Ensures (Uploading source checkpoint) (attempt.seek offset)
        (fun _ => Uploading source checkpoint) (Kept source) := by
  unfold Attempt.seek
  split
  · exact ensures_probe fun _ uploading => uploading.kept
  · exact pure fun _ uploading => uploading

theorem ensures_uploadFileWithCheckpoint
    : Ensures (fun world => Kept source world ∧ attempt.Aligned source world)
        (attempt.uploadFileWithCheckpoint source source.localPath source.objectKey)
        (fun _ => Kept source) (Kept source) := by
  refine bind (ensures_probe fun _ held => held.1) fun _ => ?_
  rw [show source.fileAt source.localPath = some source.file from if_pos rfl]
  refine bind ensures_chooseUpload fun choice => ?_
  intro world begins
  have uploads := @ensures_uploadParts source attempt attempt.script.length _
    begins.covers.whole begins.room
  rw [← begins.rest_eq] at uploads
  refine bind ensures_transitionToUploading (fun _ => ?_) world begins
  refine bind (ensures_probe fun _ uploading => uploading.kept) fun _ => ?_
  refine bind ensures_calculateStartOffset fun offset => ?_
  intro opened held
  obtain ⟨uploading, rfl⟩ := held
  exact bind ensures_seek (fun _ => bind uploads fun _ => ensures_completeUpload) opened uploading

theorem ensures_execute
    : Ensures (fun world => Kept source world ∧ attempt.Aligned source world)
        (attempt.execute source source.localPath source.objectKey)
        (fun _ => Kept source) (Kept source) := by
  have attempts : Ensures (fun world => Kept source world ∧ attempt.Aligned source world)
      (do attempt.uploadFileWithCheckpoint source source.localPath source.objectKey
          return (none : Option AkiDbError))
      (fun _ => Kept source) (Kept source) :=
    bind ensures_uploadFileWithCheckpoint fun _ => pure fun _ kept => kept
  refine bind (tryCatch attempts fun stop => ?_) fun failure => ?_
  · cases stop with
    | failed error => exact pure fun _ kept => kept
    | crashed => exact throw fun _ kept => kept
  · cases failure with
    | none =>
      refine bind (ensures_transition fun _ _ same => same) fun _ => ?_
      refine bind (ensures_transition fun _ _ same => same) fun _ => ?_
      exact ensures_transition fun _ _ impossible => by cases impossible
    | some error =>
      refine bind (ensures_transition fun _ _ same => same) fun _ => ?_
      exact throw fun _ kept => kept

theorem ensures_resetForRetry
    : Ensures (fun world => Kept source world ∧ attempt.Aligned source world) (resetForRetry around)
        (fun _ world => Kept source world ∧ attempt.Aligned source world) (Kept source) := by
  refine read fun current => ?_
  split
  · rename_i originalState _
    have reset (world : UploadWorld) (kept : Kept source world)
        : Kept source
            { world with
              record := { world.record with state := originalState, updatedAt := around.now } } :=
      kept.changed fun _ same => same
    exact ensures_changeRecord (fun world held => reset world held.2.1)
      fun world held => ⟨(reset world held.2.1).save, held.2.2⟩
  · exact pure fun _ held => held.2

theorem ensures_resume
    : Ensures (fun world => Kept source world ∧ attempt.Aligned source world)
        (attempt.resume source) (fun _ => Kept source) (Kept source) := by
  refine read fun current => ?_
  split
  · refine bind (ensures_resetForRetry.weaken fun _ held => held.2) fun _ => ?_
    refine read fun reset => ?_
    split
    · exact throw fun _ held => held.2.1
    · rename_i checkpoint holds
      intro world held
      obtain ⟨same, kept, aligned⟩ := held
      have covers := kept.record checkpoint (same ▸ holds)
      rw [covers.samePath, covers.sameKey]
      exact ensures_execute world ⟨kept, aligned⟩
  · exact throw fun _ held => held.2.1

/-! Runs keep them -/

theorem Kept.after {program script}
    (ensures : Ensures pre program (fun _ => Kept source) (Kept source)) (starts : pre world)
    : Kept source (world.after program script) := by
  obtain ⟨ends, stops⟩ := ensures ⟨world, script⟩ starts
  unfold UploadWorld.after
  split
  · rename_i ran
    exact (stops _ _ ran).reload
  · rename_i result last _ ran
    cases result with
    | ok value => exact ends value last ran
    | error stop => exact stops stop last ran

/-- An aligned action keeps checkpoints and completed uploads right. -/
theorem Kept.perform {action} (kept : Kept source world) (aligned : action.Aligned source world)
    : Kept source (perform source world action) := by
  cases action with
  | execute attempt => exact Kept.after ensures_execute ⟨kept, aligned⟩
  | resume attempt => exact Kept.after ensures_resume ⟨kept, aligned⟩
  | reload => exact kept.reload

/-- In every run whose attempts start at the byte their checkpoint has reached, every completed
upload is the file.
Witness: both records keep covering the file.
-/
theorem completed_uploads_whole (source : SnapshotSource) (around : Surroundings)
    (actions : List UploadAction)
    (aligned : Runs.Along (perform source) (fun world action => action.Aligned source world)
      (startOperation around) actions)
    : let world := actions.foldl (perform source) (startOperation around)
      (∀ object ∈ world.objects, object = source.file)
      ∧ ∀ checkpoint, world.saved.uploadCheckpoint = some checkpoint →
        checkpoint.bytesUploaded = world.storedSize checkpoint := by
  intro world
  have kept : Kept source world :=
    Runs.Along.invariant (fun _ _ held aligned => held.perform aligned) aligned Kept.start
  exact ⟨kept.objects, fun checkpoint held => (kept.saved checkpoint held).storedSize.symm⟩

def sampleSource : SnapshotSource where
  localPath := "/snapshots/docs.snap"
  objectKey := "snapshots/docs.snap"
  file := [1, 2, 3]

def sampleAttempt (outcomes : List (Outcome × Nat)) : Attempt where
  now := 0
  detail := "connection reset"
  chunkSize := minChunkSize
  sanitized := le_rfl
  script := outcomes ++ List.replicate 12 (.succeeds, minChunkSize)

/-- Metadata, initiation, record and opening, a read, its part and the record, and a failing
read. -/
def interruptedRead (size : Nat) : List (Outcome × Nat) :=
  List.replicate 4 (.succeeds, 0)
    ++ [(.succeeds, size), (.succeeds, 0), (.succeeds, 0), (.fails false, 0)]

/-- The first read returns the whole file, and the resumed upload starts past its end. -/
theorem resumed_upload_whole
    : let ended := [UploadAction.execute (sampleAttempt (interruptedRead 3)),
        .resume (sampleAttempt [])].foldl (perform sampleSource) (startOperation ⟨0, ""⟩)
      ended.objects.length = 1 ∧ ∀ object ∈ ended.objects, object = [1, 2, 3] := by
  have first : (sampleAttempt (interruptedRead 3)).Aligned sampleSource
      (startOperation ⟨0, ""⟩) := by
    decide +kernel
  have second : (sampleAttempt []).Aligned sampleSource
      (perform sampleSource (startOperation ⟨0, ""⟩)
        (.execute (sampleAttempt (interruptedRead 3)))) := by
    decide +kernel
  exact ⟨by decide +kernel, (completed_uploads_whole sampleSource ⟨0, ""⟩
    [.execute (sampleAttempt (interruptedRead 3)), .resume (sampleAttempt [])]
    ⟨first, second, trivial⟩).1⟩

/-- The first read returns one byte of three; the resumed upload completes with that byte. -/
theorem short_read_truncates
    : ([UploadAction.execute (sampleAttempt (interruptedRead 1)),
        .resume (sampleAttempt [])].foldl (perform sampleSource)
          (startOperation ⟨0, ""⟩)).objects = [[1]] := by
  decide +kernel

end AkiDB.Snapshot
