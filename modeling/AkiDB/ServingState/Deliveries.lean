import AkiDB.ServingState.Lifecycle

/-!
Runs of calls on many scopes, with faults: each scope is served as if it were alone, and each
mutation is applied once.
-/

namespace AkiDB.ServingState
open AkiDB.Common AkiDB.Contracts Checked AtomicBatch Unsigned List ServingStateStore

/-- Calls in a row, each with the fault that the backend reports, and the answer of each. -/
def serveAll (store : ServingStateStore) : Backend → List (Operation × Option AkiDbError)
    → List (KnowledgeScope × ServingStateResult Response) × Backend
  | backend, [] => ([], backend)
  | backend, (operation, fault) :: rest =>
    let (answer, next) := store.execute backend operation fault
    let (answers, final) := serveAll store next rest
    ((operation.scope, answer) :: answers, final)

/-! Scopes -/

/-- Two stores that hold the same under the keys of a scope. -/
def AgreeOn (scope : KnowledgeScope) (left right : Backend) : Prop :=
  ∀ key, KeyOfScope scope key → left[key]? = right[key]?

section
variable {store : ServingStateStore} {scope : KnowledgeScope} {left right : Backend}
  {operation : Operation}

/-- A call decides by what the keys of its scope hold. -/
theorem AgreeOn.plan (agree : AgreeOn operation.scope left right)
    : store.plan left operation = store.plan right operation := by
  generalize named : operation.scope = scope at agree
  have record : left[stateKey scope]? = right[stateKey scope]? := agree _ ⟨_, _, rfl⟩
  have reported (generationId) : left[checkpointKey scope generationId]?
      = right[checkpointKey scope generationId]? := agree _ ⟨_, _, rfl⟩
  have atSequence (generationId sequence) : left[mutationSequenceKey scope generationId sequence]?
      = right[mutationSequenceKey scope generationId sequence]? := agree _ ⟨_, _, rfl⟩
  have atIdentity (generationId id) : left[mutationIdentityKey scope generationId id]?
      = right[mutationIdentityKey scope generationId id]? := agree _ ⟨_, _, rfl⟩
  have loads : store.loadUnlocked left scope = store.loadUnlocked right scope := by
    unfold loadUnlocked
    rw [record]
  have tail (generationId base current offset mutations)
      : store.checkRevisionTail left scope generationId base current offset mutations
        = store.checkRevisionTail right scope generationId base current offset mutations := by
    induction mutations generalizing offset with
    | nil => rfl
    | cons mutation rest ih =>
      simp only [checkRevisionTail, checkRevisionMutation, readMarker, ih, atSequence, atIdentity]
  -- Every read of an operation is one of these.
  cases operation <;> cases named <;>
    simp only [ServingStateStore.plan, stageGeneration, markBundleLoaded, applyMutation,
      redelivered, recordNext, commitGenerationRevision, markReady, activate, rollback, failStaged,
      load, loadCheckpoint, verifyAppliedMutation, readMarker, loadRequiredUnlocked, loads, tail,
      reported, atSequence, atIdentity, Operation.scope] at *

theorem AgreeOn.execute (agree : AgreeOn operation.scope left right) (fault : Option AkiDbError)
    : (store.execute left operation fault).1 = (store.execute right operation fault).1
      ∧ AgreeOn operation.scope (store.execute left operation fault).2
        (store.execute right operation fault).2 := by
  unfold ServingStateStore.execute
  rw [agree.plan]
  split
  · exact ⟨rfl, agree⟩
  · exact ⟨rfl, agree⟩
  · split
    · exact ⟨rfl, agree⟩
    · exact ⟨rfl, fun key belongs => applyBatch_congr_at fun _ => agree key belongs⟩

/-- Calls of other scopes change neither the answers to a scope nor what it holds. -/
theorem AgreeOn.serveAll (agree : AgreeOn scope left right)
    (calls : List (Operation × Option AkiDbError))
    : (serveAll store left calls).1.filter (·.1 = scope)
        = (serveAll store right (calls.filter (·.1.scope = scope))).1
      ∧ AgreeOn scope (serveAll store left calls).2
        (serveAll store right (calls.filter (·.1.scope = scope))).2 := by
  induction calls generalizing left right with
  | nil => exact ⟨rfl, agree⟩
  | cons call rest ih =>
    obtain ⟨operation, fault⟩ := call
    by_cases own : operation.scope = scope
    · subst own
      obtain ⟨answers, after⟩ := @AgreeOn.execute store _ _ _ agree fault
      obtain ⟨later, final⟩ := ih after
      rw [filter_cons_of_pos (by simp)]
      refine ⟨?_, final⟩
      simp only [ServingState.serveAll, answers, filter_cons, decide_true, if_true, later]
    · rw [filter_cons_of_neg (by simpa using own)]
      have after : AgreeOn scope (store.execute left operation fault).2 right :=
        fun key belongs => (execute_otherScopes (Ne.symm own) belongs).trans (agree key belongs)
      refine ⟨?_, (ih after).2⟩
      rw [← (ih after).1]
      simp only [ServingState.serveAll, filter_cons, own, decide_false, Bool.false_eq_true,
        if_false]

end

/-- In every run a scope gets the answers, and is left with the rows, of the run of its own calls.
Witness: a call reads and writes only keys of its own scope.
-/
theorem scopes_served_alone (store : ServingStateStore) (backend : Backend)
    (calls : List (Operation × Option AkiDbError)) (scope : KnowledgeScope)
    : (serveAll store backend calls).1.filter (·.1 = scope)
        = (serveAll store backend (calls.filter (·.1.scope = scope))).1
      ∧ ∀ key, KeyOfScope scope key → (serveAll store backend calls).2[key]?
        = (serveAll store backend (calls.filter (·.1.scope = scope))).2[key]? :=
  AgreeOn.serveAll (fun _ _ => rfl) calls

/-! Redelivery -/

section
variable {store : ServingStateStore} {backend : Backend} {mutation : KnowledgeMutation}
  {marker : MutationMarker} {updatedAtMs : Nat}

theorem RecordedMutation.serveAll
    (recorded : RecordedMutation store backend mutation.scope mutation.generationId mutation marker)
    (inRange : mutation.sequence < range64) (calls : List (Operation × Option AkiDbError))
    : RecordedMutation store (serveAll store backend calls).2 mutation.scope mutation.generationId
        mutation marker := by
  induction calls generalizing backend with
  | nil => exact recorded
  | cons call rest ih =>
    obtain ⟨operation, fault⟩ := call
    refine @ih (store.execute backend operation fault).2 ?_
    rcases execute_cases store backend operation fault with
      same | ⟨_, _, _, _, _, executed, _, commits⟩
    · exact same.symm ▸ recorded
    · rw [executed]
      exact { recorded with
        sequence := commits.read_sequence_kept inRange recorded.sequence
        identity := commits.read_identity_kept recorded.identity }

theorem applyMutation_unchanged {answer}
    (planned : store.applyMutation backend mutation updatedAtMs = .ok { batch := none, answer })
    : answer = .duplicate := by
  simp only [applyMutation, bind_eq_ok] at planned
  obtain ⟨_, _, _, _, decided⟩ := planned
  split at decided
  · simp only [redelivered, bind_eq_ok, pure_eq_ok, Decision.unchanged, Decision.mk.injEq]
      at decided
    grind
  · split at decided
    · simp only [reusedIdentity, bind_eq_ok, reduceCtorEq, and_false, exists_false] at decided
    · simp only [recordNext, bind_eq_ok, pure_eq_ok, Decision.write, Decision.mk.injEq,
        reduceCtorEq, false_and, and_false, exists_false] at decided

/-- An applied mutation holds its sequence number and its id. -/
theorem recorded_of_applied
    (applied : (store.execute backend (.applyMutation mutation updatedAtMs) none).1
      = .ok (.mutation .applied))
    : mutation.sequence < range64 ∧ RecordedMutation store
        (store.execute backend (.applyMutation mutation updatedAtMs) none).2 mutation.scope
        mutation.generationId mutation (markerOf store.environment mutation) := by
  simp only [execute, plan] at applied ⊢
  cases called : store.applyMutation backend mutation updatedAtMs with
  | error error => simp [called, Except.map] at applied
  | ok decision =>
    rw [called] at applied
    obtain ⟨_ | operations, answer⟩ := decision
    · cases applyMutation_unchanged called
      cases applied
    · obtain ⟨_, change, checkpoints, commits⟩ := applyMutation_write called
      cases commits.transition with
      | apply accepted _ named =>
        have facts := KnowledgeMutation.accepted_of_validate accepted
        have member := mem_singleton_self (markerOf store.environment mutation)
        have atSequence := commits.read_sequence_recorded member
        have atIdentity := commits.read_identity_recorded (fun _ left _ right _ =>
          (mem_singleton.mp left).trans (mem_singleton.mp right).symm) member
        exact ⟨facts.inRange, {
          sequence := named ▸ atSequence
          identity := named ▸ atIdentity
          valid := validateMarker_markerOf _ facts
          mutationId := rfl
          mutationSha256 := rfl }⟩

end

/-- Once a mutation is applied, every delivery for its place is answered from its marker and
writes nothing, whatever calls come between.
Witness: a marker is written to free slots and never replaced.
-/
theorem applied_once {store : ServingStateStore} {backend : Backend}
    {mutation other : KnowledgeMutation} {appliedAt updatedAtMs : Nat}
    (applied : (store.execute backend (.applyMutation mutation appliedAt) none).1
      = .ok (.mutation .applied))
    (calls : List (Operation × Option AkiDbError)) (fault : Option AkiDbError)
    (place : other.scope = mutation.scope ∧ other.generationId = mutation.generationId
      ∧ other.sequence = mutation.sequence)
    (accepted : other.validate store.environment.parseUrl = .ok ())
    (timestamp : validateTimestamp "updated_at_ms" updatedAtMs = .ok ())
    : let after := (serveAll store
        (store.execute backend (.applyMutation mutation appliedAt) none).2 calls).2
      store.execute after (.applyMutation other updatedAtMs) fault
        = (if mutation.mutationId ≠ other.mutationId then
            .error (.sequenceConflict other.sequence mutation.mutationId other.mutationId)
          else if mutationFingerprint store.environment mutation
              ≠ mutationFingerprint store.environment other then
            .error (.mutationContentConflict other.mutationId)
          else .ok (.mutation .duplicate), after) := by
  intro after
  obtain ⟨inRange, recorded⟩ := recorded_of_applied applied
  have kept : RecordedMutation store after _ _ _ _ := recorded.serveAll inRange calls
  clear_value after
  obtain ⟨atSequence, atIdentity, valid, sameId, sameDigest⟩ := kept
  have decoded : decodeMarker (.marker (markerOf store.environment mutation))
      = .ok (markerOf store.environment mutation) := by
    rw [decodeMarker, valid]
    rfl
  have checked := contractChecked_eq_ok.mpr accepted
  rw [← place.1, ← place.2.1] at atSequence atIdentity
  rw [← place.2.2] at atSequence
  simp only [read, Slot.key] at atSequence atIdentity
  simp only [execute, plan, applyMutation, checked, timestamp, ok_bind, atSequence, redelivered,
    decoded, sameId, sameDigest, atIdentity, okOr, rejectIf, ne_eq, not_true_eq_false, if_false]
  split_ifs <;> rfl

/-- Another mutation for the place of the applied one is a conflict. -/
theorem applied_once_sample
    : let applied := runAll sampleStore ∅ [.stageGeneration
        { sampleManifest "g" with targetSequence := 1 } sampleSha256 1,
        .markBundleLoaded sampleScope "g" 2]
      let after := (serveAll sampleStore (sampleStore.execute applied.2
        (.applyMutation (sampleMutation "m" 1) 3) none).2 [(.markReady sampleScope "g" 4, none)]).2
      sampleStore.execute after (.applyMutation (sampleMutation "n" 1) 5) none
        = (.error (.sequenceConflict 1 "m" "n"), after) :=
  applied_once (by decide +kernel) _ none ⟨rfl, rfl, rfl⟩ (by decide +kernel) (by decide +kernel)

end AkiDB.ServingState
