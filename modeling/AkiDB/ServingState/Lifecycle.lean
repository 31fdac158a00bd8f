import AkiDB.ServingState.Markers

/-! The lifecycle of a scope along runs, and which keys a call can touch. -/

namespace AkiDB.ServingState
open AkiDB.Common AkiDB.Contracts AtomicBatch ByteFraming

section
variable (backend : Backend)

section
variable (scope : KnowledgeScope)

def activeId : Option String :=
  match read backend (.state scope) with
  | some (.state record) => record.active.map (·.id)
  | _ => none

/-- The call activates the staged generation of that id, which is ready and caught up. -/
def ActivatesReady (generationId : String)
    (operation : Operation) : Prop :=
  ∃ updatedAtMs record staged, operation = .activate scope generationId updatedAtMs
    ∧ read backend (.state scope) = some (.state record)
    ∧ record.staged = some staged
    ∧ staged.id = generationId
    ∧ staged.state = .ready
    ∧ staged.manifest.targetSequence ≤ staged.appliedSequence

def RollsBack (generationId : String)
    (operation : Operation) : Prop :=
  ∃ updatedAtMs record previous, operation = .rollback scope generationId updatedAtMs
    ∧ read backend (.state scope) = some (.state record)
    ∧ record.previous = some previous
    ∧ previous.id = generationId

end

end

variable {store : ServingStateStore} {backend : Backend} {scope : KnowledgeScope}
  {operation : Operation} {change : Change} {checkpoints : List ReplicaCheckpoint}
  {operations : List Write} {earlier later : GenerationServingState} {fault : Option AkiDbError}

theorem StartsFrom.activeId_eq {record} (starts : StartsFrom store backend scope record)
    : activeId backend scope = record.active.map (·.id) := by
  unfold activeId
  rcases starts.stored with stored | ⟨absent, noActive, _⟩
  · rw [stored]
  · rw [absent, noActive]
    rfl

theorem Commits.activeId_cases
    (commits : Commits store backend operation change checkpoints operations)
    : change.after.active.map (·.id) = change.before.active.map (·.id)
      ∨ ∃ generationId, change.after.active.map (·.id) = some generationId
          ∧ (ActivatesReady backend operation.scope generationId operation
            ∨ RollsBack backend operation.scope generationId operation) := by
  obtain ⟨transition, starts, _, _, _⟩ := commits
  cases transition with
  | stage => exact .inl rfl
  | loadBundle => exact .inl rfl
  | apply => exact .inl rfl
  | ready => exact .inl rfl
  | fail => exact .inl rfl
  | @revise _ _ _ _ _ _ before role generation found =>
    left
    cases role with
    | active =>
      have atActive : before.active = some generation := found
      exact (congrArg (Option.map (·.id)) atActive).symm
    | previous => rfl
    | staged => rfl
  | @activate _ _ updatedAtMs before staged found named state =>
    have atStaged : before.generation .staged = some staged := found
    refine .inr ⟨staged.id, rfl, .inl ⟨updatedAtMs, before, staged, ?_,
      starts.stored_of_generation atStaged, found, rfl, state, ?_⟩⟩
    · rw [named]
      rfl
    · exact (starts.valid.generations .staged staged atStaged).reached (.inl state)
  | @rollback _ _ updatedAtMs before previous active foundPrevious named =>
    have atPrevious : before.generation .previous = some previous := foundPrevious
    refine .inr ⟨previous.id, rfl, .inr ⟨updatedAtMs, before, previous, ?_,
      starts.stored_of_generation atPrevious, foundPrevious, rfl⟩⟩
    rw [named]
    rfl

theorem Commits.activeId_after
    (commits : Commits store backend operation change checkpoints operations)
    (scope : KnowledgeScope)
    : activeId (applyBatch backend operations) scope
      = if scope = operation.scope then change.after.active.map (·.id)
        else activeId backend scope := by
  unfold activeId
  rw [commits.read_state scope]
  split_ifs <;> rfl

/-- One call through which a generation id stays in its scope's record. -/
def RetainingStep (store : ServingStateStore) (scope : KnowledgeScope)
    (generationId : String) (before after : Backend) : Prop :=
  (∃ operation fault, after = (store.execute before operation fault).2)
  ∧ RetainedId before scope generationId
  ∧ RetainedId after scope generationId

theorem Commits.continues (commits : Commits store backend operation change checkpoints operations)
    (addressed : Addressed store backend) (earlierRetained : Retained backend scope earlier)
    (laterRetained : Retained (applyBatch backend operations) scope later)
    (sameId : earlier.id = later.id)
    : Continues earlier later := by
  by_cases here : scope = operation.scope
  · subst here
    obtain ⟨role, found⟩ := commits.retained_iff.mp laterRetained
    rcases commits.transition.origin found with ⟨_, former, continued⟩ | ⟨_, _, _, _, _, absent⟩
    · have formerRetained := commits.retained_before continued.found
      have formerId := continued.continues.id_eq
      have same := earlierRetained.unique addressed formerRetained (sameId.trans formerId)
      rw [same]
      exact continued.continues
    · obtain ⟨formerRole, before⟩ := commits.before_of_retained earlierRetained
      exact absurd sameId (absent formerRole earlier before)
  · have laterBefore := (commits.retained_other here).mp laterRetained
    rw [earlierRetained.unique addressed laterBefore sameId]
    exact .refl later

theorem execute_continues (addressed : Addressed store backend)
    (earlierRetained : Retained backend scope earlier)
    (laterRetained : Retained (store.execute backend operation fault).2 scope later)
    (sameId : earlier.id = later.id)
    : Continues earlier later := by
  rcases execute_cases store backend operation fault with
    same | ⟨_, _, _, _, _, executed, _, commits⟩
  · rw [same] at laterRetained
    rw [earlierRetained.unique addressed laterRetained sameId]
    exact .refl later
  · rw [executed] at laterRetained
    exact commits.continues addressed earlierRetained laterRetained sameId

/-- Along a run through which an id stays retained, its generation is continued. -/
theorem continues_along {after} (reached : Reachable store backend) {generationId}
    (run : Relation.ReflTransGen (RetainingStep store scope generationId) backend after)
    (earlierRetained : Retained backend scope earlier) (laterRetained : Retained after scope later)
    (earlierNamed : earlier.id = generationId) (laterNamed : later.id = generationId)
    : Reachable store after ∧ Continues earlier later := by
  induction run generalizing later with
  | refl =>
    have same := earlierRetained.unique reached.addressed laterRetained
      (earlierNamed.trans laterNamed.symm)
    rw [same]
    exact ⟨reached, .refl later⟩
  | tail _ step ih =>
    obtain ⟨⟨operation, fault, rfl⟩, ⟨middle, middleRetained, middleNamed⟩, _⟩ := step
    obtain ⟨middleReached, toMiddle⟩ := ih middleRetained middleNamed
    refine ⟨middleReached.step trivial fault, toMiddle.trans ?_⟩
    exact execute_continues middleReached.addressed middleRetained laterRetained
      (middleNamed.trans laterNamed.symm)

/-- The answers of calls that decide to write nothing although they could have written. -/
def Declines : ServingStateResult Response → Prop
  | .error _ => True
  | .ok (.staging .alreadyStaged) => True
  | .ok (.mutation .duplicate) => True
  | .ok _ => False

/-- What holds of one call, and of every run that follows it, in a reached store. -/
structure LifecycleKept (store : ServingStateStore) (backend : Backend) : Prop where
  active : ∀ operation fault scope,
    activeId (store.execute backend operation fault).2 scope ≠ activeId backend scope →
    ∃ generationId answer, (store.execute backend operation fault).1 = .ok answer
      ∧ activeId (store.execute backend operation fault).2 scope = some generationId
      ∧ (ActivatesReady backend scope generationId operation
        ∨ RollsBack backend scope generationId operation)
  retained : ∀ scope generationId after,
    Relation.ReflTransGen (RetainingStep store scope generationId) backend after →
    ∀ earlier later, Retained backend scope earlier → Retained after scope later →
      earlier.id = generationId → later.id = generationId →
      later.manifest = earlier.manifest
      ∧ later.manifestSha256 = earlier.manifestSha256
      ∧ earlier.appliedSequence ≤ later.appliedSequence
  declined : ∀ operation fault, Declines (store.execute backend operation fault).1 →
    (store.execute backend operation fault).2 = backend
  otherScopes : ∀ operation fault scope key, scope ≠ operation.scope → KeyOfScope scope key →
    (store.execute backend operation fault).2[key]? = backend[key]?

theorem execute_activeId (changed : activeId (store.execute backend operation fault).2 scope
      ≠ activeId backend scope)
    : ∃ generationId answer, (store.execute backend operation fault).1 = .ok answer
        ∧ activeId (store.execute backend operation fault).2 scope = some generationId
        ∧ (ActivatesReady backend scope generationId operation
          ∨ RollsBack backend scope generationId operation) := by
  rcases execute_cases store backend operation fault with
    same | ⟨answer, change, _, _, _, executed, _, commits⟩
  · exact absurd (congrArg (activeId · scope) same) changed
  · rw [executed] at changed ⊢
    simp only [commits.activeId_after] at changed ⊢
    by_cases here : scope = operation.scope
    · subst here
      rw [if_pos rfl, commits.starts.activeId_eq] at changed
      rcases commits.activeId_cases with same | ⟨generationId, activated, cause⟩
      · exact absurd same changed
      · exact ⟨generationId, answer, rfl, by rw [if_pos rfl, activated], cause⟩
    · rw [if_neg here] at changed
      exact absurd rfl changed

theorem execute_declined (declines : Declines (store.execute backend operation fault).1)
    : (store.execute backend operation fault).2 = backend := by
  rcases execute_cases store backend operation fault with
    same | ⟨answer, _, _, _, _, executed, shape, _⟩
  · exact same
  · rw [executed] at declines
    rcases shape with rfl | rfl | rfl <;> cases declines

theorem Commits.write_scope
    (commits : Commits store backend operation change checkpoints operations) {write}
    (member : write ∈ changeWrites change.after checkpoints change.generationId change.markers)
    : write.1.scope = operation.scope := by
  rcases mem_changeWrites.mp member with rfl | ⟨_, _, rfl⟩ | ⟨_, _, rfl⟩ | ⟨_, _, rfl⟩ <;>
    exact commits.after_scope

/-- A call on one scope leaves every key of another scope alone. -/
theorem execute_otherScopes (other : scope ≠ operation.scope) {key : Bytes}
    (belongs : KeyOfScope scope key)
    : (store.execute backend operation fault).2[key]? = backend[key]? := by
  rcases execute_cases store backend operation fault with
    same | ⟨_, change, _, operations, _, executed, _, commits⟩
  · rw [same]
  · rw [executed, commits.applied_eq]
    exact writeSlots_otherScope commits.short (fun _ => commits.write_scope) other belongs

/-- In every reached store the lifecycle of each scope is kept, whatever is called next.
Witness: a call commits at most one transition.
-/
theorem lifecycle_kept {store : ServingStateStore} {backend : Backend}
    (reached : Reachable store backend)
    : LifecycleKept store backend where
  active := fun _ _ _ changed => execute_activeId changed
  retained := by
    intro scope generationId after run earlier later earlierRetained laterRetained
      earlierNamed laterNamed
    obtain ⟨_, continues⟩ := continues_along reached run earlierRetained laterRetained
      earlierNamed laterNamed
    exact ⟨continues.manifest, continues.manifestSha256, continues.appliedSequence⟩
  declined := fun _ _ declines => execute_declined declines
  otherScopes := fun _ _ _ _ other belongs => execute_otherScopes other belongs

/-- A ready generation that is then activated. -/
theorem lifecycle_kept_sample
    : LifecycleKept sampleStore readyBackend
      ∧ activeId readyBackend sampleScope = none
      ∧ activeId (sampleStore.execute readyBackend
          (.activate sampleScope "g" 4) none).2 sampleScope = some "g" :=
  ⟨lifecycle_kept (runAll_reachable sampleStore (sampleReady "g" 1)), by decide +kernel,
    by decide +kernel⟩

end AkiDB.ServingState
