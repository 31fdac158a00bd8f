import AkiDB.ServingState.Writes

/-! What each operation can write: one of eight transitions of its scope's record. -/

namespace AkiDB.ServingState
open AkiDB.Common AkiDB.Contracts Checked AtomicBatch Unsigned ServingStateStore

/-! The transitions of a record -/

/-- One change of a scope's record: the generations it reports, and the markers it records. -/
structure Change where
  before : ServingStateRecord
  after : ServingStateRecord
  reported : List GenerationServingState
  generationId : String
  markers : List MutationMarker

namespace GenerationServingState

def fresh (manifest : KnowledgeGenerationManifest) (manifestSha256 : String)
    : GenerationServingState := {
  manifest
  manifestSha256
  appliedSequence := manifest.baseSequence
  state := .staged
  lastError := none }

section
variable (generation : GenerationServingState)

def promoted : GenerationServingState :=
  { generation with state := .serving, lastError := none }

def demoted : GenerationServingState :=
  { generation with state := .ready, lastError := none }

def advanced (targetSequence : Nat)
    : GenerationServingState :=
  { generation with appliedSequence := targetSequence, lastError := none }

end

end GenerationServingState

def ServingStateRecord.revised (record : ServingStateRecord) (role : Role)
    (generation : GenerationServingState) (updatedAtMs : Nat) : ServingStateRecord :=
  { record.setGeneration role generation with updatedAtMs }

@[simp]
theorem ServingStateRecord.revised_scope (record : ServingStateRecord) (role : Role)
    (generation : GenerationServingState) (updatedAtMs : Nat)
    : (record.revised role generation updatedAtMs).scope = record.scope := by
  cases role <;> rfl

namespace Change

variable (before : ServingStateRecord)

/-- A generation is staged beside the active and the retained one; nothing is reported. -/
def stage (manifest : KnowledgeGenerationManifest)
    (manifestSha256 : String) (updatedAtMs : Nat) : Change := {
  before
  after := { before with staged := some (.fresh manifest manifestSha256), updatedAtMs }
  reported := []
  generationId := manifest.generationId
  markers := [] }

def restage (updatedAtMs : Nat)
    (next : GenerationServingState) (markers : List MutationMarker) : Change := {
  before
  after := { before with staged := some next, updatedAtMs }
  reported := [next]
  generationId := next.id
  markers }

def revise (role : Role) (generation : GenerationServingState)
    (targetSequence updatedAtMs : Nat) (markers : List MutationMarker) : Change := {
  before
  after := before.revised role (generation.advanced targetSequence) updatedAtMs
  reported := [generation.advanced targetSequence]
  generationId := generation.id
  markers }

def activate (staged : GenerationServingState)
    (updatedAtMs : Nat) : Change := {
  before
  after := { before with
    active := some staged.promoted
    previous := before.active.map (·.demoted)
    staged := none
    updatedAtMs }
  reported := (before.active.map (·.demoted)).toList ++ [staged.promoted]
  generationId := staged.id
  markers := [] }

def rollback (previous active : GenerationServingState)
    (updatedAtMs : Nat) : Change := {
  before
  after := { before with
    active := some previous.promoted
    previous := some active.demoted
    updatedAtMs }
  reported := [previous.promoted, active.demoted]
  generationId := previous.id
  markers := [] }

end Change

/-- The transition that an operation makes, with the guards that let it through. -/
inductive Transition (store : ServingStateStore) (backend : Backend)
    : Operation → Change → Prop where
  | stage {manifest : KnowledgeGenerationManifest} {manifestSha256 : String}
      {updatedAtMs : Nat} {before : ServingStateRecord}
      (accepted : manifest.validate store.environment.parseUrl = .ok ())
      (absent : ∀ role generation, before.generation role = some generation →
        generation.id ≠ manifest.generationId)
      (free : before.staged = none)
      : Transition store backend (.stageGeneration manifest manifestSha256 updatedAtMs)
          (.stage before manifest manifestSha256 updatedAtMs)
  | loadBundle {scope : KnowledgeScope} {generationId : String} {updatedAtMs : Nat}
      {before : ServingStateRecord} {staged : GenerationServingState}
      (found : before.staged = some staged) (named : staged.id = generationId)
      (state : staged.state = .staged)
      : Transition store backend (.markBundleLoaded scope generationId updatedAtMs)
          (.restage before updatedAtMs { staged with state := .catchingUp } [])
  | apply {mutation : KnowledgeMutation} {updatedAtMs : Nat} {before : ServingStateRecord}
      {staged : GenerationServingState}
      (accepted : mutation.validate store.environment.parseUrl = .ok ())
      (found : before.staged = some staged) (named : staged.id = mutation.generationId)
      (state : staged.state = .catchingUp)
      (next : mutation.sequence = staged.appliedSequence + 1)
      (bounded : mutation.sequence ≤ staged.manifest.targetSequence)
      (freeSequence : read backend
        (.sequence mutation.scope mutation.generationId mutation.sequence) = none)
      (freeIdentity : read backend
        (.identity mutation.scope mutation.generationId mutation.mutationId) = none)
      : Transition store backend (.applyMutation mutation updatedAtMs)
          (.restage before updatedAtMs { staged with appliedSequence := mutation.sequence }
            [markerOf store.environment mutation])
  | revise {scope : KnowledgeScope} {generationId manifestSha256 : String}
      {targetSequence : Nat} {mutations : List KnowledgeMutation} {updatedAtMs : Nat}
      {before : ServingStateRecord} {role : Role} {generation : GenerationServingState}
      (found : before.generation role = some generation)
      (named : generation.id = generationId)
      (state : generation.state = .ready ∨ generation.state = .serving)
      (reached : generation.manifest.targetSequence ≤ generation.appliedSequence)
      (advances : generation.appliedSequence < targetSequence)
      (beyond : generation.manifest.targetSequence < targetSequence)
      (length : mutations.length = targetSequence - generation.manifest.targetSequence)
      (tail : ∀ index mutation, mutations[index]? = some mutation →
        TailEntry store backend scope generationId generation.manifest.targetSequence
          generation.appliedSequence index mutation)
      : Transition store backend
          (.commitGenerationRevision scope generationId manifestSha256 targetSequence
            mutations updatedAtMs)
          (.revise before role generation targetSequence updatedAtMs
            ((newMutations backend scope generationId mutations).map (markerOf store.environment)))
  | ready {scope : KnowledgeScope} {generationId : String} {updatedAtMs : Nat}
      {before : ServingStateRecord} {staged : GenerationServingState}
      (found : before.staged = some staged) (named : staged.id = generationId)
      (state : staged.state = .catchingUp)
      (reached : staged.appliedSequence = staged.manifest.targetSequence)
      : Transition store backend (.markReady scope generationId updatedAtMs)
          (.restage before updatedAtMs { staged with state := .ready } [])
  | activate {scope : KnowledgeScope} {generationId : String} {updatedAtMs : Nat}
      {before : ServingStateRecord} {staged : GenerationServingState}
      (found : before.staged = some staged) (named : staged.id = generationId)
      (state : staged.state = .ready)
      : Transition store backend (.activate scope generationId updatedAtMs)
          (.activate before staged updatedAtMs)
  | rollback {scope : KnowledgeScope} {generationId : String} {updatedAtMs : Nat}
      {before : ServingStateRecord} {previous active : GenerationServingState}
      (foundPrevious : before.previous = some previous)
      (named : previous.id = generationId)
      (foundActive : before.active = some active)
      : Transition store backend (.rollback scope generationId updatedAtMs)
          (.rollback before previous active updatedAtMs)
  | fail {scope : KnowledgeScope} {generationId failure : String} {updatedAtMs : Nat}
      {before : ServingStateRecord} {staged : GenerationServingState}
      (accepted : AcceptedText failure maxFailureBytes)
      (found : before.staged = some staged) (named : staged.id = generationId)
      : Transition store backend (.failStaged scope generationId failure updatedAtMs)
          (.restage before updatedAtMs
            { staged with state := .failed, lastError := some failure } [])

/-- A batch that carries out a change of the scope's record, with its reports and its markers. -/
structure Commits (store : ServingStateStore) (backend : Backend) (operation : Operation)
    (change : Change) (checkpoints : List ReplicaCheckpoint) (operations : List Write)
    : Prop where
  transition : Transition store backend operation change
  starts : StartsFrom store backend operation.scope change.before
  valid : RecordValid store.environment.parseUrl store.replicaId change.after
  reports : ReportsAll store.replicaId change.reported change.after.updatedAtMs checkpoints
  operations_eq : operations
    = (changeWrites change.after checkpoints change.generationId change.markers).map
        SlotWrite.operation

/-! One inversion for each operation -/

variable {store : ServingStateStore} {backend : Backend} {updatedAtMs targetSequence : Nat}
  {operations : List Write} {scope : KnowledgeScope} {record : ServingStateRecord}
  {generationId manifestSha256 : String} {answer : Unit} {mutations : List KnowledgeMutation}
  {role : Role} {generation : GenerationServingState}

variable {operation : Operation} {checkpoint : ReplicaCheckpoint}

theorem Commits.of_restage {before next}
    (transition : Transition store backend operation (.restage before updatedAtMs next []))
    (starts : StartsFrom store backend operation.scope before)
    (built : checkpointFor store.replicaId next updatedAtMs = .ok checkpoint)
    (persisted : store.persistRecord { before with staged := some next, updatedAtMs }
      [checkpoint] = .ok operations)
    : Commits store backend operation (.restage before updatedAtMs next []) [checkpoint]
        operations := by
  obtain ⟨valid, _, same⟩ := persistRecord_eq_ok.mp persisted
  exact {
    transition
    starts
    valid
    reports := .cons built .nil
    operations_eq := same }

theorem startsFrom_loaded (store : ServingStateStore) (backend : Backend)
    (accepted : scope.validate = .ok ()) (timestamp : AcceptedTimestamp updatedAtMs) {loaded}
    (found : (read backend (.state scope) = none ∧ loaded = none)
      ∨ ∃ record, read backend (.state scope) = some (.state record)
          ∧ RecordValid store.environment.parseUrl store.replicaId record
          ∧ record.scope = scope ∧ loaded = some record)
    : StartsFrom store backend scope (loaded.getD (store.emptyRecord scope updatedAtMs)) := by
  rcases found with ⟨noRecord, rfl⟩ | ⟨record, stored, valid, scopeEq, rfl⟩
  · exact {
      stored := .inr ⟨noRecord, rfl, rfl, rfl⟩
      accepted
      scope := rfl
      valid := {
        schema := rfl
        scope := accepted
        timestamp
        replica := rfl
        generations := by intro role; cases role <;> exact fun _ => nofun
        distinct := by intro role; cases role <;> exact fun _ _ _ => nofun
        rollback := fun _ => rfl } }
  · exact { stored := .inl stored, accepted, valid, scope := scopeEq }

theorem absent_of_notPresent (absent : ¬(generationIsPresent record.active generationId
      ∨ generationIsPresent record.previous generationId)) (free : record.staged = none)
    : ∀ role generation, record.generation role = some generation →
        generation.id ≠ generationId := by
  intro role generation occupied same
  apply absent
  cases role with
  | active =>
    have atActive : record.active = some generation := occupied
    exact .inl (by simp [generationIsPresent, atActive, same])
  | previous =>
    have atPrevious : record.previous = some generation := occupied
    exact .inr (by simp [generationIsPresent, atPrevious, same])
  | staged => cases free.symm.trans occupied

theorem stageGeneration_write {manifest answer}
    (planned : store.stageGeneration backend manifest manifestSha256 updatedAtMs
      = .ok { batch := some operations, answer })
    : answer = .staged ∧ ∃ change checkpoints, Commits store backend
        (.stageGeneration manifest manifestSha256 updatedAtMs) change checkpoints
        operations := by
  simp only [stageGeneration, bind_eq_ok, exists_unit, contractChecked_eq_ok,
    validateTimestamp_iff, validateSha256_iff, rejectIf_eq_ok, loadUnlocked_eq_ok] at planned
  obtain ⟨accepted, timestamp, _, loaded, ⟨scopeAccepted, found⟩, absent, decided⟩ := planned
  have starts := startsFrom_loaded store backend scopeAccepted timestamp found
  generalize loaded.getD (store.emptyRecord manifest.scope updatedAtMs) = before at *
  cases free : before.staged with
  | some staged =>
    simp only [free, bind_eq_ok, exists_unit, pure_eq_ok, Decision.unchanged] at decided
    cases decided.2.2
  | none =>
    simp only [free, bind_eq_ok, persistRecord_eq_ok, pure_eq_ok, Decision.write,
      Decision.mk.injEq, Option.some.injEq] at decided
    obtain ⟨_, ⟨valid, _, rfl⟩, rfl, rfl⟩ := decided
    refine ⟨rfl, .stage before manifest manifestSha256 updatedAtMs, [], ?_⟩
    exact {
      transition := .stage accepted (absent_of_notPresent absent free) free
      starts
      valid
      reports := .nil
      operations_eq := rfl }

theorem markBundleLoaded_write
    (planned : store.markBundleLoaded backend scope generationId updatedAtMs
      = .ok { batch := some operations, answer })
    : ∃ change checkpoints, Commits store backend
        (.markBundleLoaded scope generationId updatedAtMs) change checkpoints operations := by
  simp only [markBundleLoaded, bind_eq_ok, exists_unit, stagedMut_eq_ok] at planned
  obtain ⟨_, before, loaded, staged, ⟨found, named⟩, decided⟩ := planned
  cases state : staged.state <;>
    simp only [state, bind_eq_ok, pure_eq_ok, Decision.unchanged, Decision.write,
      Decision.mk.injEq, Option.some.injEq, reduceCtorEq, false_and] at decided
  case staged =>
    obtain ⟨checkpoint, built, _, persisted, rfl, _⟩ := decided
    exact ⟨_, _, .of_restage (.loadBundle found named state) (.of_required loaded) built persisted⟩

theorem markReady_write (planned : store.markReady backend scope generationId updatedAtMs
      = .ok { batch := some operations, answer })
    : ∃ change checkpoints, Commits store backend
        (.markReady scope generationId updatedAtMs) change checkpoints operations := by
  simp only [markReady, bind_eq_ok, exists_unit, stagedMut_eq_ok] at planned
  obtain ⟨_, before, loaded, staged, ⟨found, named⟩, decided⟩ := planned
  cases state : staged.state <;>
    simp only [state, bind_eq_ok, exists_unit, rejectIf_eq_ok, not_not, pure_eq_ok,
      Decision.unchanged, Decision.write, Decision.mk.injEq, Option.some.injEq, reduceCtorEq,
      false_and] at decided
  case catchingUp =>
    obtain ⟨reached, checkpoint, built, _, persisted, rfl, _⟩ := decided
    exact ⟨_, _, .of_restage (.ready found named state reached) (.of_required loaded) built
      persisted⟩

theorem failStaged_write {failure}
    (planned : store.failStaged backend scope generationId failure updatedAtMs
      = .ok { batch := some operations, answer })
    : ∃ change checkpoints, Commits store backend
        (.failStaged scope generationId failure updatedAtMs) change checkpoints
        operations := by
  simp only [failStaged, bind_eq_ok, exists_unit, stagedMut_eq_ok, validateLocalText_iff] at planned
  obtain ⟨_, accepted, before, loaded, staged, ⟨found, named⟩, _, decided⟩ := planned
  split at decided
  · simp only [pure_eq_ok, Decision.unchanged, Decision.mk.injEq, reduceCtorEq,
      false_and] at decided
  · simp only [bind_eq_ok, pure_eq_ok, Decision.write, Decision.mk.injEq,
      Option.some.injEq] at decided
    obtain ⟨checkpoint, built, _, persisted, rfl, _⟩ := decided
    exact ⟨_, _, .of_restage (.fail accepted found named) (.of_required loaded) built persisted⟩

variable {mutation : KnowledgeMutation}

theorem recordNext_write {answer} (accepted : mutation.validate store.environment.parseUrl = .ok ())
    (freeSequence : read backend
      (.sequence mutation.scope mutation.generationId mutation.sequence) = none)
    (freeIdentity : read backend
      (.identity mutation.scope mutation.generationId mutation.mutationId) = none)
    (planned : store.recordNext backend mutation updatedAtMs
      = .ok { batch := some operations, answer })
    : answer = .applied ∧ ∃ change checkpoints, Commits store backend
        (.applyMutation mutation updatedAtMs) change checkpoints operations := by
  simp only [recordNext, bind_eq_ok, exists_unit, stagedMut_eq_ok,
    rejectIf_eq_ok, okOr_eq_ok, checkedAdd64_eq_some, persistRecord_eq_ok, not_not, pure_eq_ok,
    Decision.write, Decision.mk.injEq, Option.some.injEq] at planned
  obtain ⟨before, loaded, staged, ⟨found, named⟩, state, _, ⟨_, rfl⟩, next, bounded,
    checkpoint, built, _, ⟨valid, _, rfl⟩, rfl, rfl⟩ := planned
  have starts := StartsFrom.of_required loaded
  refine ⟨rfl, .restage before updatedAtMs
    { staged with appliedSequence := mutation.sequence }
    [markerOf store.environment mutation], [checkpoint], ?_⟩
  exact {
    transition := .apply accepted found named state next (by omega) freeSequence freeIdentity
    starts
    valid
    reports := .cons built .nil
    operations_eq := by
      have markers := changeWrites_markers
        { before with
          staged := some { staged with appliedSequence := mutation.sequence }, updatedAtMs }
        [checkpoint] mutation.generationId [markerOf store.environment mutation]
      rw [← named] at markers ⊢
      rw [show mutation.scope = before.scope from starts.scope.symm]
      exact markers }

theorem applyMutation_write {answer} (planned : store.applyMutation backend mutation updatedAtMs
      = .ok { batch := some operations, answer })
    : answer = .applied ∧ ∃ change checkpoints, Commits store backend
        (.applyMutation mutation updatedAtMs) change checkpoints operations := by
  simp only [applyMutation, bind_eq_ok, exists_unit, contractChecked_eq_ok] at planned
  obtain ⟨accepted, _, decided⟩ := planned
  split at decided
  · simp only [redelivered, bind_eq_ok, pure_eq_ok, Decision.unchanged,
      Decision.mk.injEq, reduceCtorEq, false_and, and_false, exists_false] at decided
  · next freeSequence =>
    split at decided
    · simp only [reusedIdentity, bind_eq_ok, reduceCtorEq, and_false, exists_false] at decided
    · next freeIdentity =>
      exact recordNext_write accepted freeSequence freeIdentity decided

variable {previous : Option GenerationServingState} {displaced : List ReplicaCheckpoint}

theorem displaceActive_previous {parse : String → Option Url} {replicaId}
    (valid : RecordValid parse replicaId record)
    (displacedAs : store.displaceActive record updatedAtMs = .ok (previous, displaced))
    : previous = record.active.map (·.demoted) := by
  unfold displaceActive at displacedAs
  split at displacedAs
  · next noActive =>
    cases displacedAs
    rw [valid.rollback noActive, noActive]
    rfl
  · next active atActive =>
    simp only [bind_eq_ok, pure_eq_ok, Prod.mk.injEq] at displacedAs
    obtain ⟨_, _, rfl, _⟩ := displacedAs
    rw [atActive]
    rfl

theorem displaceActive_reports
    (displacedAs : store.displaceActive record updatedAtMs = .ok (previous, displaced))
    : ReportsAll store.replicaId (record.active.map (·.demoted)).toList updatedAtMs
        displaced := by
  unfold displaceActive at displacedAs
  split at displacedAs
  · next noActive =>
    cases displacedAs
    rw [noActive]
    exact .nil
  · next active atActive =>
    simp only [bind_eq_ok, pure_eq_ok, Prod.mk.injEq] at displacedAs
    obtain ⟨former, built, _, rfl⟩ := displacedAs
    rw [atActive]
    exact .cons built .nil

theorem activate_write (planned : store.activate backend scope generationId updatedAtMs
      = .ok { batch := some operations, answer })
    : ∃ change checkpoints, Commits store backend
        (.activate scope generationId updatedAtMs) change checkpoints operations := by
  simp only [activate, bind_eq_ok, exists_unit] at planned
  obtain ⟨_, before, loaded, decided⟩ := planned
  have starts := StartsFrom.of_required loaded
  split at decided
  · simp only [pure_eq_ok, Decision.unchanged, Decision.mk.injEq, reduceCtorEq,
      false_and] at decided
  · simp only [bind_eq_ok, exists_unit, okOr_eq_ok, ensureGeneration, rejectIf_eq_ok, not_not,
      Prod.exists, persistRecord_eq_ok, pure_eq_ok, Decision.write, Decision.mk.injEq,
      Option.some.injEq] at decided
    obtain ⟨staged, found, named, state, previous, displaced, displacedAs, checkpoint, built,
      _, ⟨valid, _, rfl⟩, rfl, _⟩ := decided
    obtain rfl := displaceActive_previous starts.valid displacedAs
    refine ⟨.activate before staged updatedAtMs, displaced ++ [checkpoint], ?_⟩
    exact {
      transition := .activate found named state
      starts
      valid
      reports := List.rel_append (displaceActive_reports displacedAs) (.cons built .nil)
      operations_eq := rfl }

theorem rollback_write (planned : store.rollback backend scope generationId updatedAtMs
      = .ok { batch := some operations, answer })
    : ∃ change checkpoints, Commits store backend
        (.rollback scope generationId updatedAtMs) change checkpoints operations := by
  simp only [rollback, bind_eq_ok, exists_unit] at planned
  obtain ⟨_, before, loaded, decided⟩ := planned
  split at decided
  · simp only [pure_eq_ok, Decision.unchanged, Decision.mk.injEq, reduceCtorEq,
      false_and] at decided
  · simp only [bind_eq_ok, exists_unit, okOr_eq_ok, ensureGeneration, rejectIf_eq_ok, not_not,
      persistRecord_eq_ok, pure_eq_ok, Decision.write, Decision.mk.injEq,
      Option.some.injEq] at decided
    obtain ⟨previous, foundPrevious, named, active, foundActive, targetCheckpoint, builtTarget,
      formerCheckpoint, builtFormer, _, ⟨valid, _, rfl⟩, rfl, _⟩ := decided
    refine ⟨.rollback before previous active updatedAtMs, [targetCheckpoint, formerCheckpoint], ?_⟩
    exact {
      transition := .rollback foundPrevious named foundActive
      starts := .of_required loaded
      valid
      reports := .cons builtTarget (.cons builtFormer .nil)
      operations_eq := rfl }

/-! Sealed revisions -/

/-- A sealed revision that passes every check before the mutations of its tail are read. -/
structure RevisionOpened (store : ServingStateStore) (backend : Backend)
    (scope : KnowledgeScope) (generationId manifestSha256 : String) (targetSequence : Nat)
    (mutations : List KnowledgeMutation) (updatedAtMs : Nat) (record : ServingStateRecord)
    (role : Role) (generation : GenerationServingState) : Prop where
  digest : isSha256 manifestSha256
  timestamp : AcceptedTimestamp updatedAtMs
  safe : targetSequence ≤ maxSafeJsonInteger
  loaded : store.loadRequiredUnlocked backend scope = .ok record
  found : record.generation role = some generation
  named : generation.id = generationId
  sameManifest : generation.manifestSha256 = manifestSha256
  state : generation.state = .ready ∨ generation.state = .serving
  current : generation.appliedSequence ≤ targetSequence
  beyond : generation.manifest.targetSequence < targetSequence
  length : mutations.length = targetSequence - generation.manifest.targetSequence

structure RevisionAccepted (store : ServingStateStore) (backend : Backend)
    (scope : KnowledgeScope) (generationId manifestSha256 : String) (targetSequence : Nat)
    (mutations : List KnowledgeMutation) (updatedAtMs : Nat) (record : ServingStateRecord)
    (role : Role) (generation : GenerationServingState) : Prop
    extends RevisionOpened store backend scope generationId manifestSha256 targetSequence
      mutations updatedAtMs record role generation where
  tail : ∀ index mutation, mutations[index]? = some mutation →
    TailEntry store backend scope generationId generation.manifest.targetSequence
      generation.appliedSequence index mutation

/-- The batch of an accepted revision that advances its generation. -/
structure RevisionWrites (store : ServingStateStore) (backend : Backend)
    (mutations : List KnowledgeMutation) (targetSequence updatedAtMs : Nat)
    (record : ServingStateRecord) (role : Role) (generation : GenerationServingState)
    (checkpoint : ReplicaCheckpoint) (operations : List Write) : Prop where
  advances : generation.appliedSequence ≠ targetSequence
  built : checkpointFor store.replicaId (generation.advanced targetSequence) updatedAtMs
    = .ok checkpoint
  valid : RecordValid store.environment.parseUrl store.replicaId
    (record.revised role (generation.advanced targetSequence) updatedAtMs)
  operations_eq : operations
    = (changeWrites (record.revised role (generation.advanced targetSequence) updatedAtMs)
        [checkpoint] generation.id
        ((newMutations backend record.scope generation.id mutations).map
          (markerOf store.environment))).map SlotWrite.operation

theorem revisionOperations_eq (record : ServingStateRecord) (role : Role)
    (generation next : GenerationServingState) (mutations : List KnowledgeMutation)
    (updatedAtMs : Nat) (checkpoint : ReplicaCheckpoint)
    : (changeWrites (record.revised role next updatedAtMs) [checkpoint] "" []).map
          SlotWrite.operation
        ++ ((newMutations backend record.scope generation.id mutations).map
            (markerOf store.environment)).flatMap
            (markerOperations record.scope generation.id)
      = (changeWrites (record.revised role next updatedAtMs) [checkpoint] generation.id
          ((newMutations backend record.scope generation.id mutations).map
            (markerOf store.environment))).map SlotWrite.operation := by
  rw [← changeWrites_markers _ _ generation.id, ServingStateRecord.revised_scope]

theorem RevisionOpened.of_checks (digest : isSha256 manifestSha256)
    (timestamp : AcceptedTimestamp updatedAtMs) (safe : ¬targetSequence > maxSafeJsonInteger)
    (loaded : store.loadRequiredUnlocked backend scope = .ok record)
    (found : generationByIdMut record generationId = .ok (role, generation))
    (sameManifest : ¬generation.manifestSha256 ≠ manifestSha256)
    (state : ¬(generation.state = .staged ∨ generation.state = .catchingUp
      ∨ generation.state = .failed)) (bounds : ¬(targetSequence < generation.appliedSequence
      ∨ targetSequence ≤ generation.manifest.targetSequence))
    (length : ¬mutations.length ≠ targetSequence - generation.manifest.targetSequence)
    : RevisionOpened store backend scope generationId manifestSha256 targetSequence mutations
        updatedAtMs record role generation := by
  obtain ⟨atRole, named⟩ := generationByIdMut_found found
  exact {
    digest, timestamp, loaded, named
    safe := by omega
    found := atRole
    sameManifest := not_not.mp sameManifest
    state := by
      revert state
      cases generation.state <;> simp
    current := by omega
    beyond := by omega
    length := not_not.mp length }

/-- An opened revision is decided by its tail. -/
theorem RevisionOpened.commit_eq
    (opened : RevisionOpened store backend scope generationId manifestSha256 targetSequence
      mutations updatedAtMs record role generation)
    : store.commitGenerationRevision backend scope generationId manifestSha256 targetSequence
        mutations updatedAtMs
      = (do
        let markers ← store.checkRevisionTail backend scope generationId
          generation.manifest.targetSequence generation.appliedSequence 0 mutations
        if generation.appliedSequence = targetSequence then
          pure (.unchanged .duplicate)
        else do
          let checkpoint ← checkpointFor store.replicaId (generation.advanced targetSequence)
            updatedAtMs
          let operations ← store.persistRecord
            (record.revised role (generation.advanced targetSequence) updatedAtMs) [checkpoint]
          pure (.write (operations ++ markers) .applied)) := by
  obtain rfl := opened.sameManifest
  have starts := StartsFrom.of_required opened.loaded
  have found : generationByIdMut record generationId = .ok (role, generation) := by
    rw [← opened.named]
    exact generationByIdMut_of_generation starts.valid opened.found
  have safe : ¬targetSequence > maxSafeJsonInteger := Nat.not_lt.mpr opened.safe
  have state : ¬(generation.state = .staged ∨ generation.state = .catchingUp
      ∨ generation.state = .failed) := by
    rcases opened.state with state | state <;> simp [state]
  have bounds : ¬(targetSequence < generation.appliedSequence
      ∨ targetSequence ≤ generation.manifest.targetSequence) := by
    have current := opened.current
    have beyond := opened.beyond
    omega
  simp only [commitGenerationRevision, starts.accepted,
    validateSha256_iff.mpr opened.digest, validateTimestamp_iff.mpr opened.timestamp,
    opened.loaded, found, ok_bind, rejectIf, safe, state, bounds,
    opened.length, ne_eq, not_true_eq_false, if_false]
  rfl

theorem commitGenerationRevision_eq_ok {decision}
    : store.commitGenerationRevision backend scope generationId manifestSha256 targetSequence
        mutations updatedAtMs = .ok decision
      ↔ ∃ record role generation,
          RevisionAccepted store backend scope generationId manifestSha256 targetSequence
            mutations updatedAtMs record role generation
          ∧ ((generation.appliedSequence = targetSequence ∧ decision = .unchanged .duplicate)
            ∨ ∃ checkpoint operations,
                RevisionWrites store backend mutations targetSequence updatedAtMs record role
                  generation checkpoint operations
                ∧ decision = .write operations .applied) := by
  constructor
  · intro committed
    simp only [commitGenerationRevision, bind_eq_ok, exists_unit,
      contractChecked_eq_ok, validateSha256_iff, validateTimestamp_iff, rejectIf_eq_ok,
      Prod.exists, checkRevisionTail_eq_ok] at committed
    obtain ⟨_, digest, timestamp, safe, record, loaded, role, generation, found, sameManifest,
      state, bounds, length, _, ⟨tail, rfl⟩, decided⟩ := committed
    have opened := RevisionOpened.of_checks digest timestamp safe loaded found sameManifest
      state bounds length
    have starts := StartsFrom.of_required loaded
    refine ⟨record, role, generation, ⟨opened, fun index mutation atIndex => by
      simpa using tail index mutation atIndex⟩, ?_⟩
    split at decided
    · next same => exact .inl ⟨same, (pure_eq_ok.mp decided).symm⟩
    · next advances =>
      simp only [bind_eq_ok, persistRecord_eq_ok, pure_eq_ok] at decided
      obtain ⟨checkpoint, built, _, ⟨valid, _, rfl⟩, rfl⟩ := decided
      refine .inr ⟨checkpoint, _, ⟨advances, built, valid, ?_⟩, rfl⟩
      rw [← opened.named, ← starts.scope]
      exact revisionOperations_eq record role generation _ mutations updatedAtMs checkpoint
  · rintro ⟨record, role, generation, accepted, decided⟩
    have starts := StartsFrom.of_required accepted.loaded
    rw [accepted.commit_eq]
    simp only [bind_eq_ok, checkRevisionTail_eq_ok]
    refine ⟨_, ⟨fun index mutation atIndex => by
      simpa using accepted.tail index mutation atIndex, rfl⟩, ?_⟩
    rcases decided with ⟨same, rfl⟩ | ⟨checkpoint, operations, writes, rfl⟩
    · rw [if_pos same]
      rfl
    · rw [if_neg writes.advances]
      simp only [bind_eq_ok, persistRecord_eq_ok, pure_eq_ok]
      refine ⟨checkpoint, writes.built, _, ⟨writes.valid, ?_, rfl⟩, ?_⟩
      · intro other member
        rw [List.mem_singleton.mp member]
        exact (checkpointFor_reports writes.built).valid
      · rw [writes.operations_eq, ← accepted.named, ← starts.scope]
        apply congrArg (Decision.write · ApplyMutationOutcome.applied)
        exact revisionOperations_eq record role generation _ mutations updatedAtMs checkpoint

theorem RevisionWrites.commits
    (writes : RevisionWrites store backend mutations targetSequence updatedAtMs record role
      generation checkpoint operations)
    (accepted : RevisionAccepted store backend scope generationId manifestSha256
      targetSequence mutations updatedAtMs record role generation)
    : Commits store backend
        (.commitGenerationRevision scope generationId manifestSha256 targetSequence mutations
          updatedAtMs)
        (.revise record role generation targetSequence updatedAtMs
          ((newMutations backend scope generationId mutations).map (markerOf store.environment)))
        [checkpoint] operations := by
  have starts := StartsFrom.of_required accepted.loaded
  have current := accepted.current
  have advances := writes.advances
  exact {
    transition := .revise accepted.found accepted.named accepted.state
      ((starts.valid.generations role generation accepted.found).reached accepted.state)
      (by omega) accepted.beyond accepted.length accepted.tail
    starts
    valid := writes.valid
    reports := .cons writes.built .nil
    operations_eq := by
      rw [← accepted.named, ← starts.scope]
      exact writes.operations_eq }

theorem commitGenerationRevision_write {answer}
    (planned : store.commitGenerationRevision backend scope generationId manifestSha256
      targetSequence mutations updatedAtMs = .ok { batch := some operations, answer })
    : answer = .applied ∧ ∃ change checkpoints, Commits store backend
        (.commitGenerationRevision scope generationId manifestSha256 targetSequence mutations
          updatedAtMs) change checkpoints operations := by
  obtain ⟨record, role, generation, accepted, ⟨_, impossible⟩ | ⟨checkpoint, _, writes, same⟩⟩ :=
    commitGenerationRevision_eq_ok.mp planned
  · cases impossible
  · cases same
    exact ⟨rfl, _, _, writes.commits accepted⟩

/-! Calls -/

theorem map_eq_ok_write {α : Type} {planned : ServingStateResult (Decision α)}
    {convert : α → Response} {answer : Response}
    : planned.map (Decision.map convert) = .ok { batch := some operations, answer }
      ↔ ∃ own, planned = .ok { batch := some operations, answer := own }
          ∧ answer = convert own := by
  cases planned with
  | error _ => simp [Except.map]
  | ok decision =>
    cases decision
    simp [Except.map, Decision.map, eq_comm]

/-- An operation that writes commits one transition. -/
theorem plan_write {answer : Response}
    (planned : store.plan backend operation = .ok { batch := some operations, answer })
    : (answer = .staging .staged ∨ answer = .mutation .applied ∨ answer = .done)
      ∧ ∃ change checkpoints, Commits store backend operation change checkpoints operations := by
  cases operation with
  | stageGeneration manifest manifestSha256 updatedAtMs =>
    obtain ⟨own, called, rfl⟩ := map_eq_ok_write.mp planned
    obtain ⟨rfl, commits⟩ := stageGeneration_write called
    exact ⟨.inl rfl, commits⟩
  | markBundleLoaded scope generationId updatedAtMs =>
    obtain ⟨own, called, rfl⟩ := map_eq_ok_write.mp planned
    exact ⟨.inr (.inr rfl), markBundleLoaded_write called⟩
  | applyMutation mutation updatedAtMs =>
    obtain ⟨own, called, rfl⟩ := map_eq_ok_write.mp planned
    obtain ⟨rfl, commits⟩ := applyMutation_write called
    exact ⟨.inr (.inl rfl), commits⟩
  | commitGenerationRevision scope generationId manifestSha256 targetSequence mutations
      updatedAtMs =>
      obtain ⟨own, called, rfl⟩ := map_eq_ok_write.mp planned
      obtain ⟨rfl, commits⟩ := commitGenerationRevision_write called
      exact ⟨.inr (.inl rfl), commits⟩
  | markReady scope generationId updatedAtMs =>
    obtain ⟨own, called, rfl⟩ := map_eq_ok_write.mp planned
    exact ⟨.inr (.inr rfl), markReady_write called⟩
  | activate scope generationId updatedAtMs =>
    obtain ⟨own, called, rfl⟩ := map_eq_ok_write.mp planned
    exact ⟨.inr (.inr rfl), activate_write called⟩
  | rollback scope generationId updatedAtMs =>
    obtain ⟨own, called, rfl⟩ := map_eq_ok_write.mp planned
    exact ⟨.inr (.inr rfl), rollback_write called⟩
  | failStaged scope generationId failure updatedAtMs =>
    obtain ⟨own, called, rfl⟩ := map_eq_ok_write.mp planned
    exact ⟨.inr (.inr rfl), failStaged_write called⟩
  | load scope =>
    simp only [plan] at planned
    cases loaded : store.load backend scope <;>
      simp [loaded, Except.map, Decision.unchanged] at planned
  | loadCheckpoint scope generationId =>
    simp only [plan] at planned
    cases loaded : store.loadCheckpoint backend scope generationId <;>
      simp [loaded, Except.map, Decision.unchanged] at planned
  | verifyAppliedMutation mutation =>
    simp only [plan] at planned
    cases verified : store.verifyAppliedMutation backend mutation <;>
      simp [verified, Except.map, Decision.unchanged] at planned

theorem execute_cases (store : ServingStateStore) (backend : Backend) (operation : Operation)
    (fault : Option AkiDbError)
    : (store.execute backend operation fault).2 = backend
      ∨ ∃ answer change checkpoints operations, fault = none
          ∧ store.execute backend operation fault
            = (.ok answer, applyBatch backend operations)
          ∧ (answer = .staging .staged ∨ answer = .mutation .applied ∨ answer = .done)
          ∧ Commits store backend operation change checkpoints operations := by
  unfold execute
  split
  · exact .inl rfl
  · exact .inl rfl
  · next operations answer planned =>
    split
    · exact .inl rfl
    · obtain ⟨shape, change, checkpoints, commits⟩ := plan_write planned
      exact .inr ⟨answer, change, checkpoints, operations, rfl, rfl, shape, commits⟩

end AkiDB.ServingState
