import AkiDB.ServingState.Markers

/-!
Every reportable generation has the checkpoint that reports it, and when a staged one has none.
-/

namespace AkiDB.ServingState
open AkiDB.Common AkiDB.Contracts Checked AtomicBatch Unsigned

variable {store : ServingStateStore} {backend : Backend} {scope : KnowledgeScope}
  {operation : Operation} {change : Change} {checkpoints : List ReplicaCheckpoint}
  {operations : List Write} {generation : GenerationServingState}

theorem loadCheckpoint_of_none (accepted : scope.validate = .ok ()) {generationId}
    (absent : read backend (.checkpoint scope generationId) = none)
    : store.loadCheckpoint backend scope generationId = .ok none := by
  simp only [ServingStateStore.loadCheckpoint, bind_eq_ok, exists_unit, contractChecked_eq_ok]
  refine ⟨accepted, ?_⟩
  rw [show backend[checkpointKey scope generationId]? = none from absent]
  rfl

theorem loadCheckpoint_of_some (addressed : Addressed store backend)
    (accepted : scope.validate = .ok ()) {generationId checkpoint}
    (found : read backend (.checkpoint scope generationId) = some (.checkpoint checkpoint))
    : store.loadCheckpoint backend scope generationId = .ok (some checkpoint) := by
  obtain ⟨_, same, scopeEq, named, replica, valid⟩ :=
    addressed.checkpoint scope generationId _ found
  cases same
  simp only [ServingStateStore.loadCheckpoint, bind_eq_ok, exists_unit, contractChecked_eq_ok]
  refine ⟨accepted, ?_⟩
  rw [show backend[checkpointKey scope generationId]? = some (.checkpoint checkpoint) from found]
  simp only [decodeCheckpoint, bind_eq_ok, exists_unit, mapError_eq_ok, rejectIf_eq_ok,
    Except.ok.injEq, pure_eq_ok, not_not, not_or]
  exact ⟨checkpoint, rfl, valid, replica, ⟨scopeEq, named⟩, rfl⟩

def ReportsStored (store : ServingStateStore) (backend : Backend) : Prop :=
  ∀ scope generation, Retained backend scope generation → generation.state ≠ .staged →
    ∃ checkpoint, read backend (.checkpoint scope generation.id)
        = some (.checkpoint checkpoint)
      ∧ Reports store.replicaId generation checkpoint

theorem Commits.read_checkpoint_unreported
    (commits : Commits store backend operation change checkpoints operations) {role}
    (retained : change.after.generation role = some generation)
    (unreported : generation ∉ change.reported)
    : read (applyBatch backend operations) (.checkpoint operation.scope generation.id)
      = read backend (.checkpoint operation.scope generation.id) := by
  apply commits.read_checkpoint_untouched
  intro _ other otherReported sameId
  obtain ⟨otherRole, otherRetained⟩ := commits.transition.reported_mem otherReported
  have roles := commits.valid.distinct otherRole role _ _ otherRetained retained sameId
  rw [roles, retained] at otherRetained
  cases otherRetained
  exact unreported otherReported

theorem Commits.read_checkpoint_other
    (commits : Commits store backend operation change checkpoints operations)
    (other : scope ≠ operation.scope) (generationId : String)
    : read (applyBatch backend operations) (.checkpoint scope generationId)
      = read backend (.checkpoint scope generationId) :=
  commits.read_checkpoint_untouched fun same => absurd same other

/-- In every reachable store the reportable generations are reported. -/
theorem Reachable.reportsStored (reached : Reachable store backend)
    : ReportsStored store backend := by
  refine ReachableWhere.invariant ?_ ?_ reached
  · rintro scope generation ⟨record, role, stored, _⟩
    simp at stored
  · intro backend operation change checkpoints operations _ stored _ _ commits scope
      generation retained reportable
    by_cases same : scope = operation.scope
    · subst same
      obtain ⟨role, inAfter⟩ := commits.retained_iff.mp retained
      by_cases reported : generation ∈ change.reported
      · exact commits.read_checkpoint_reported reported
      · rw [commits.read_checkpoint_unreported inAfter reported]
        rcases commits.transition.origin inAfter with
          ⟨earlierRole, earlier, continued⟩ | ⟨_, _, _, _, rfl, _⟩
        · rcases continued.reported with changed | rfl
          · exact absurd changed reported
          · exact stored _ _ (commits.retained_before continued.found) reportable
        · exact absurd rfl reportable
    · rw [commits.read_checkpoint_other same]
      exact stored scope generation ((commits.retained_other same).mp retained) reportable

def StagedUnreported (backend : Backend) : Prop :=
  ∀ scope generation, Retained backend scope generation → generation.state = .staged →
    read backend (.checkpoint scope generation.id) = none

/-- The call stages an id that is not retained but has a stored checkpoint left behind. -/
def RestagesReported (backend : Backend) : Operation → Prop
  | .stageGeneration manifest _ _ =>
    ¬RetainedId backend manifest.scope manifest.generationId
    ∧ read backend (.checkpoint manifest.scope manifest.generationId) ≠ none
  | _ => False

theorem Commits.unreported_of_staged
    (commits : Commits store backend operation change checkpoints operations)
    (staged : generation.state = .staged)
    : generation ∉ change.reported := by
  intro reported
  obtain ⟨checkpoint, _, reports⟩ := commits.read_checkpoint_reported reported
  have reportable := reports.state
  rw [staged] at reportable
  cases reportable

/-- A commit reports no staged generation. -/
theorem StagedUnreported.step (unreported : StagedUnreported backend)
    (fresh : ¬RestagesReported backend operation)
    (commits : Commits store backend operation change checkpoints operations)
    : StagedUnreported (applyBatch backend operations) := by
  intro scope generation retained staged
  by_cases same : scope = operation.scope
  · subst same
    obtain ⟨role, inAfter⟩ := commits.retained_iff.mp retained
    have notReported := commits.unreported_of_staged staged
    rw [commits.read_checkpoint_unreported inAfter notReported]
    rcases commits.transition.origin inAfter with
      ⟨earlierRole, earlier, continued⟩ |
      ⟨manifest, manifestSha256, updatedAtMs, rfl, rfl, absent⟩
    · rcases continued.reported with changed | rfl
      · exact absurd changed notReported
      · exact unreported _ _ (commits.retained_before continued.found) staged
    · by_contra left
      apply fresh
      refine ⟨?_, left⟩
      rintro ⟨earlier, earlierRetained, named⟩
      obtain ⟨earlierRole, inBefore⟩ := commits.before_of_retained earlierRetained
      exact absent earlierRole earlier inBefore named
  · rw [commits.read_checkpoint_other same]
    exact unreported scope generation ((commits.retained_other same).mp retained) staged

/-- Along every run that stages no id with a checkpoint left behind, each retained generation agrees
with its checkpoint.
Witness: both halves are invariants of committed changes.
-/
theorem checkpoint_agrees {store : ServingStateStore} {backend : Backend}
    (reached : ReachableWhere store
      (fun backend operation => ¬RestagesReported backend operation) backend)
    {scope : KnowledgeScope} {record : ServingStateRecord}
    (loaded : store.load backend scope = .ok (some record)) {role : Role}
    {generation : GenerationServingState}
    (retained : record.generation role = some generation)
    : (generation.state = .staged → store.loadCheckpoint backend scope generation.id = .ok none)
      ∧ (generation.state ≠ .staged →
        ∃ checkpoint, store.loadCheckpoint backend scope generation.id = .ok (some checkpoint)
          ∧ replicaState generation.state = some checkpoint.state
          ∧ checkpoint.appliedSequence = generation.appliedSequence
          ∧ checkpoint.manifestSha256 = generation.manifestSha256
          ∧ checkpoint.lastError = generation.lastError) := by
  have unreported : StagedUnreported backend := by
    refine ReachableWhere.invariant ?_ ?_ reached
    · rintro scope generation ⟨record, role, stored, _⟩
      simp at stored
    · intro backend operation change checkpoints operations _ unreported fresh _ commits
      exact unreported.step fresh commits
  obtain ⟨accepted, ⟨_, impossible⟩ | ⟨_, stored, _, _, same⟩⟩ := loadUnlocked_eq_ok.mp loaded
  · cases impossible
  · cases same
    have held : Retained backend scope generation := ⟨record, role, stored, retained⟩
    refine ⟨?_, ?_⟩
    · intro staged
      exact loadCheckpoint_of_none accepted (unreported scope generation held staged)
    · intro reportable
      obtain ⟨checkpoint, found, reports⟩ :=
        reached.reachable.reportsStored scope generation held reportable
      exact ⟨checkpoint, loadCheckpoint_of_some reached.reachable.addressed accepted found,
        reports.state, reports.appliedSequence, reports.manifestSha256, reports.lastError⟩

theorem load_staged
    (loaded : (store.load backend scope).map (·.bind (·.staged)) = .ok (some generation))
    : ∃ record, store.load backend scope = .ok (some record)
        ∧ record.generation .staged = some generation := by
  cases called : store.load backend scope with
  | error error => simp [called, Except.map] at loaded
  | ok found =>
    cases found with
    | none => simp [called, Except.map] at loaded
    | some record =>
      simp only [called, Except.map, Option.bind_some, Except.ok.injEq] at loaded
      exact ⟨record, rfl, loaded⟩

/-- A generation that was staged, loaded, marked ready and revised has its checkpoint. -/
theorem checkpoint_agrees_sample
    : ∃ checkpoint, sampleStore.loadCheckpoint (revisedBackend sampleTail) sampleScope "g"
          = .ok (some checkpoint)
        ∧ replicaState .ready = some checkpoint.state
        ∧ checkpoint.appliedSequence = 2
        ∧ checkpoint.manifestSha256 = sampleSha256
        ∧ checkpoint.lastError = none := by
  have allowed : AllowedAlong sampleStore
      (fun backend operation => ¬RestagesReported backend operation) ∅
      (sampleRevision sampleTail) :=
    ⟨fun ⟨_, reported⟩ => reported (read_empty _), nofun, nofun, nofun, trivial⟩
  have loaded : (sampleStore.load (revisedBackend sampleTail) sampleScope).map
        (·.bind (·.staged))
      = .ok (some {
          manifest := sampleManifest "g", manifestSha256 := sampleSha256,
          appliedSequence := 2, state := .ready, lastError := none }) := by
    decide +kernel
  obtain ⟨record, called, retained⟩ := load_staged loaded
  exact (checkpoint_agrees (runAll_reachableWhere .refl allowed) called retained).2 nofun

/-- The restaged generation is staged, and the checkpoint of its earlier life still reported. -/
theorem restaged_checkpoint_left
    : Reachable sampleStore (runAll sampleStore ∅ restagedRun).2
      ∧ (∃ record, sampleStore.load (runAll sampleStore ∅ restagedRun).2 sampleScope
            = .ok (some record)
          ∧ record.generation .staged
            = some (.fresh (sampleManifest "g") sampleSha256))
      ∧ (sampleStore.loadCheckpoint (runAll sampleStore ∅ restagedRun).2 sampleScope "g").map
          (·.map fun checkpoint => (checkpoint.state, checkpoint.appliedSequence))
        = .ok (some (.ready, 2)) :=
  ⟨runAll_reachable sampleStore _, load_staged (by decide +kernel), by decide +kernel⟩

end AkiDB.ServingState
