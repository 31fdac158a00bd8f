import AkiDB.ServingState.Transitions

/-!
The record that each transition leaves is valid again, so its writer never rejects it.
-/

namespace AkiDB.ServingState
open AkiDB.Contracts

variable {parse : String → Option Url} {replicaId : String} {record : ServingStateRecord}
  {role : Role} {generation : GenerationServingState} {updatedAtMs : Nat} {scope : KnowledgeScope}

theorem RecordValid.revised (valid : RecordValid parse replicaId record) {next}
    (found : record.generation role = some generation) (sameId : next.id = generation.id)
    (nextValid : GenerationValid parse record.scope role next)
    (timestamp : AcceptedTimestamp updatedAtMs)
    : RecordValid parse replicaId (record.revised role next updatedAtMs) := by
  have revisedAt : ∀ other later,
      (record.revised role next updatedAtMs).generation other = some later →
      (other = role ∧ later = next) ∨ (other ≠ role ∧ record.generation other = some later) := by
    intro other later retained
    cases other <;> cases role <;>
      first
      | exact .inl ⟨rfl, (Option.some.inj retained).symm⟩
      | exact .inr ⟨nofun, retained⟩
  -- each generation of the new record has the id of the old one in its role
  have idAt : ∀ other later, (record.revised role next updatedAtMs).generation other = some later →
      ∃ earlier, record.generation other = some earlier ∧ earlier.id = later.id := by
    intro other later retained
    rcases revisedAt other later retained with ⟨rfl, rfl⟩ | ⟨_, kept⟩
    · exact ⟨generation, found, sameId.symm⟩
    · exact ⟨later, kept, rfl⟩
  exact {
    schema := by cases role <;> exact valid.schema
    scope := by rw [ServingStateRecord.revised_scope]; exact valid.scope
    timestamp
    replica := by cases role <;> exact valid.replica
    generations := by
      intro other later retained
      rw [ServingStateRecord.revised_scope]
      rcases revisedAt other later retained with ⟨rfl, rfl⟩ | ⟨_, kept⟩
      · exact nextValid
      · exact valid.generations other later kept
    distinct := by
      intro left right leftLater rightLater leftRetained rightRetained same
      obtain ⟨leftEarlier, leftFound, leftId⟩ := idAt left leftLater leftRetained
      obtain ⟨rightEarlier, rightFound, rightId⟩ := idAt right rightLater rightRetained
      exact valid.distinct left right leftEarlier rightEarlier leftFound rightFound
        (by rw [leftId, rightId, same])
    rollback := by
      intro absent
      cases role with
      | active => cases absent
      | previous => cases (valid.rollback absent).symm.trans found
      | staged => exact valid.rollback absent }

/-- Staging keeps a record valid. -/
theorem RecordValid.stage {store : ServingStateStore}
    (valid : RecordValid store.environment.parseUrl store.replicaId record)
    {manifest : KnowledgeGenerationManifest} {manifestSha256 : String}
    (accepted : manifest.validate store.environment.parseUrl = .ok ())
    (digest : isSha256 manifestSha256) (timestamp : AcceptedTimestamp updatedAtMs)
    (sameScope : record.scope = manifest.scope)
    (absent : ∀ role generation, record.generation role = some generation →
      generation.id ≠ manifest.generationId)
    : RecordValid store.environment.parseUrl store.replicaId
        { record with staged := some (.fresh manifest manifestSha256), updatedAtMs } := by
  have facts := KnowledgeGenerationManifest.accepted_of_validate accepted
  have staged : GenerationValid store.environment.parseUrl record.scope .staged
      (.fresh manifest manifestSha256) := {
    manifest := accepted
    digest
    scope := sameScope.symm
    base := Nat.le_refl _
    safe := facts.baseSequence
    reached := by rintro (impossible | impossible) <;> cases impossible
    fresh := fun _ => rfl
    failure := nofun
    healthy := fun _ => rfl
    admitted := nofun }
  exact {
    schema := valid.schema
    scope := valid.scope
    timestamp
    replica := valid.replica
    generations := by
      intro role generation retained
      cases role with
      | active => exact valid.generations .active generation retained
      | previous => exact valid.generations .previous generation retained
      | staged =>
        cases retained
        exact staged
    distinct := by
      intro left right leftGeneration rightGeneration leftFound rightFound same
      cases left <;> cases right
      case staged.staged => rfl
      case active.staged =>
        cases rightFound
        exact absurd same (absent .active leftGeneration leftFound)
      case previous.staged =>
        cases rightFound
        exact absurd same (absent .previous leftGeneration leftFound)
      case staged.active =>
        cases leftFound
        exact absurd same.symm (absent .active rightGeneration rightFound)
      case staged.previous =>
        cases leftFound
        exact absurd same.symm (absent .previous rightGeneration rightFound)
      all_goals exact valid.distinct _ _ leftGeneration rightGeneration leftFound rightFound same
    rollback := valid.rollback }

theorem GenerationValid.promoted (valid : GenerationValid parse scope role generation)
    (ready : generation.state = .ready)
    : GenerationValid parse scope .active generation.promoted := {
  manifest := valid.manifest
  digest := valid.digest
  scope := valid.scope
  base := valid.base
  safe := valid.safe
  reached := fun _ => valid.reached (.inl ready)
  fresh := nofun
  failure := nofun
  healthy := fun _ => rfl
  admitted := rfl }

theorem GenerationValid.advanced (valid : GenerationValid parse scope role generation)
    (state : generation.state = .ready ∨ generation.state = .serving) {targetSequence : Nat}
    (current : generation.appliedSequence ≤ targetSequence)
    (safe : targetSequence ≤ maxSafeJsonInteger)
    : GenerationValid parse scope role (generation.advanced targetSequence) := {
  manifest := valid.manifest
  digest := valid.digest
  scope := valid.scope
  base := valid.base.trans current
  safe := safe
  reached := fun _ => (valid.reached state).trans current
  fresh := fun staged => by
    rcases state with state | state <;> cases state.symm.trans staged
  failure := fun failed => by
    rcases state with state | state <;> cases state.symm.trans failed
  healthy := fun _ => rfl
  admitted := valid.admitted }

theorem GenerationValid.demoted (valid : GenerationValid parse scope .active generation)
    : GenerationValid parse scope .previous generation.demoted := {
  manifest := valid.manifest
  digest := valid.digest
  scope := valid.scope
  base := valid.base
  safe := valid.safe
  reached := fun _ => valid.reached (.inr valid.admitted)
  fresh := nofun
  failure := nofun
  healthy := fun _ => rfl
  admitted := rfl }

theorem RecordValid.activate (valid : RecordValid parse replicaId record) {staged}
    (found : record.staged = some staged) (ready : staged.state = .ready)
    (timestamp : AcceptedTimestamp updatedAtMs)
    : RecordValid parse replicaId (Change.activate record staged updatedAtMs).after := by
  have atStaged : record.generation .staged = some staged := found
  exact {
    schema := valid.schema
    scope := valid.scope
    timestamp
    replica := valid.replica
    generations := by
      intro role generation retained
      cases role with
      | active =>
        cases retained
        exact (valid.generations .staged staged atStaged).promoted ready
      | previous =>
        obtain ⟨active, atActive, rfl⟩ := Option.map_eq_some_iff.mp retained
        exact (valid.generations .active active atActive).demoted
      | staged => cases retained
    distinct := by
      intro left right leftGeneration rightGeneration leftFound rightFound same
      cases left <;> cases right
      case active.active | previous.previous => rfl
      case active.previous =>
        cases leftFound
        obtain ⟨active, atActive, rfl⟩ := Option.map_eq_some_iff.mp rightFound
        cases valid.distinct .staged .active staged active atStaged atActive same
      case previous.active =>
        cases rightFound
        obtain ⟨active, atActive, rfl⟩ := Option.map_eq_some_iff.mp leftFound
        cases valid.distinct .active .staged active staged atActive atStaged same
      case staged.active | staged.previous | staged.staged => cases leftFound
      case active.staged | previous.staged => cases rightFound
    rollback := nofun }

end AkiDB.ServingState
