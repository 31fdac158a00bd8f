import AkiDB.ServingState.Runs

/-! How a change treats each generation of its record: continued, newly staged, or retired. -/

namespace AkiDB.ServingState
open AkiDB.Common AkiDB.Contracts AtomicBatch Unsigned List Option

/-- The same immutable generation, not behind where it was. -/
structure Continues (earlier later : GenerationServingState) : Prop where
  manifest : later.manifest = earlier.manifest
  manifestSha256 : later.manifestSha256 = earlier.manifestSha256
  appliedSequence : earlier.appliedSequence ≤ later.appliedSequence

theorem Continues.refl (generation : GenerationServingState)
    : Continues generation generation :=
  ⟨rfl, rfl, Nat.le_refl _⟩

variable {earlier later : GenerationServingState} {backend : Backend} {operation : Operation}
  {change : Change} {role : Role} {store : ServingStateStore}

theorem Continues.id_eq (continues : Continues earlier later)
    : later.id = earlier.id :=
  congrArg KnowledgeGenerationManifest.generationId continues.manifest

theorem Continues.trans {first second third} (left : Continues first second)
    (right : Continues second third)
    : Continues first third := {
  manifest := right.manifest.trans left.manifest
  manifestSha256 := right.manifestSha256.trans left.manifestSha256
  appliedSequence := Nat.le_trans left.appliedSequence right.appliedSequence }

/-- After the change the sequence has a marker: one that it records, or one that was there. -/
def Marks (backend : Backend) (operation : Operation) (change : Change)
    (generationId : String) (sequence : Nat) : Prop :=
  (change.generationId = generationId ∧ ∃ marker ∈ change.markers, marker.sequence = sequence)
  ∨ read backend (.sequence operation.scope generationId sequence) ≠ none

/-- A generation continues one of the old record: reported if changed, marked where it advances. -/
structure Continued (backend : Backend) (operation : Operation) (change : Change)
    (role : Role) (earlier later : GenerationServingState) : Prop where
  found : change.before.generation role = some earlier
  continues : Continues earlier later
  reported : later ∈ change.reported ∨ later = earlier
  marked : ∀ sequence, earlier.appliedSequence < sequence →
    sequence ≤ later.appliedSequence → Marks backend operation change later.id sequence

/-- A generation of the new record continues an old one, or is the one that the change stages. -/
def Originates (backend : Backend) (operation : Operation) (change : Change)
    (later : GenerationServingState) : Prop :=
  (∃ role earlier, Continued backend operation change role earlier later)
  ∨ ∃ manifest manifestSha256 updatedAtMs,
      operation = .stageGeneration manifest manifestSha256 updatedAtMs
      ∧ later = .fresh manifest manifestSha256
      ∧ ∀ role earlier, change.before.generation role = some earlier → earlier.id ≠ later.id

theorem Originates.unchanged {generation} (found : change.before.generation role = some generation)
    : Originates backend operation change generation :=
  .inl ⟨role, generation, {
    found
    continues := .refl generation
    reported := .inr rfl
    marked := fun sequence beyond reached => by omega }⟩

theorem Originates.reported (found : change.before.generation role = some earlier)
    (manifest : later.manifest = earlier.manifest)
    (manifestSha256 : later.manifestSha256 = earlier.manifestSha256)
    (same : later.appliedSequence = earlier.appliedSequence) (reported : later ∈ change.reported)
    : Originates backend operation change later :=
  .inl ⟨role, earlier, {
    found
    continues := ⟨manifest, manifestSha256, Nat.le_of_eq same.symm⟩
    reported := .inl reported
    marked := fun sequence beyond reached => by omega }⟩

variable {before : ServingStateRecord} {updatedAtMs : Nat} {next : GenerationServingState}
variable {markers : List MutationMarker}

/-- Restaging leaves the other roles alone. -/
theorem originates_of_restage
    (staged : Originates backend operation (.restage before updatedAtMs next markers) next)
    (retained : (Change.restage before updatedAtMs next markers).after.generation role
      = some later)
    : Originates backend operation (.restage before updatedAtMs next markers) later := by
  cases role with
  | active =>
    have atActive : before.generation .active = some later := retained
    exact .unchanged atActive
  | previous =>
    have atPrevious : before.generation .previous = some later := retained
    exact .unchanged atPrevious
  | staged =>
    cases retained
    exact staged

/-- Every generation kept continues an earlier one or was staged. -/
theorem Transition.origin (transition : Transition store backend operation change)
    (retained : change.after.generation role = some later)
    : Originates backend operation change later := by
  cases transition with
  | @stage manifest manifestSha256 updatedAtMs before accepted absent free =>
    cases role with
    | active =>
      have atActive : before.generation .active = some later := retained
      exact .unchanged atActive
    | previous =>
      have atPrevious : before.generation .previous = some later := retained
      exact .unchanged atPrevious
    | staged =>
      cases retained
      exact .inr ⟨manifest, manifestSha256, updatedAtMs, rfl, rfl, absent⟩
  | @loadBundle _ _ _ before staged found =>
    have atStaged : before.generation .staged = some staged := found
    refine originates_of_restage ?_ retained
    exact .reported atStaged rfl rfl rfl mem_cons_self
  | @apply mutation updatedAtMs before staged accepted found named state next =>
    refine originates_of_restage (.inl ⟨.staged, staged, ?_⟩) retained
    exact {
      found
      continues := ⟨rfl, rfl, by simp only; omega⟩
      reported := .inl mem_cons_self
      marked := by
        intro sequence beyond reached
        have only : sequence = mutation.sequence := by
          simp only at reached
          omega
        exact .inl ⟨rfl, _, mem_cons_self, only.symm⟩ }
  | @ready _ _ _ before staged found =>
    have atStaged : before.generation .staged = some staged := found
    refine originates_of_restage ?_ retained
    exact .reported atStaged rfl rfl rfl mem_cons_self
  | @fail _ _ _ _ before staged _ found =>
    have atStaged : before.generation .staged = some staged := found
    refine originates_of_restage ?_ retained
    exact .reported atStaged rfl rfl rfl mem_cons_self
  | @revise scope generationId _ targetSequence mutations updatedAtMs before advancedRole
      generation found named state reachedTarget advances beyondBase length tail =>
      by_cases same : role = advancedRole
      · subst same
        have advanced : later = generation.advanced targetSequence := by
          cases role <;> exact (some.inj retained).symm
        subst advanced
        refine .inl ⟨role, generation, {
          found
          continues := ⟨rfl, rfl, Nat.le_of_lt advances⟩
          reported := .inl mem_cons_self
          marked := ?_ }⟩
        -- the mutation at the sequence's offset is recorded by the tail or was before
        intro sequence beyond reached
        have bound : sequence ≤ targetSequence := reached
        have inTail : sequence - generation.manifest.targetSequence - 1
            < mutations.length := by omega
        have atIndex := getElem?_eq_getElem inTail
        generalize mutations[sequence - generation.manifest.targetSequence - 1] = mutation
          at atIndex
        have entry := tail _ mutation atIndex
        have sequenceEq : mutation.sequence = sequence := by
          have := entry.sequence
          omega
        rcases entry.known with fresh | ⟨marker, recorded⟩
        · refine .inl ⟨rfl, markerOf store.environment mutation, ?_, sequenceEq⟩
          refine mem_map_of_mem (mem_filter.mpr ⟨mem_of_getElem? atIndex, ?_⟩)
          simp [fresh.sequence]
        · refine .inr ?_
          have taken := recorded.sequence
          rw [sequenceEq, ← named] at taken
          simp [Operation.scope, GenerationServingState.advanced, taken]
      · have kept : before.generation role = some later := by
          cases role <;> cases advancedRole <;>
            first
            | exact absurd rfl same
            | exact retained
        exact .unchanged kept
  | @activate scope generationId updatedAtMs before staged found named state =>
    cases role with
    | active =>
      cases retained
      have atStaged : before.generation .staged = some staged := found
      exact .reported atStaged rfl rfl rfl (mem_append_right _ mem_cons_self)
    | previous =>
      obtain ⟨active, atActive, rfl⟩ := map_eq_some_iff.mp retained
      have inActive : before.generation .active = some active := atActive
      exact .reported inActive rfl rfl rfl (mem_append_left _ (mem_toList.mpr retained))
    | staged => cases retained
  | @rollback scope generationId updatedAtMs before previous active foundPrevious named
      foundActive =>
      cases role with
      | active =>
        cases retained
        have atPrevious : before.generation .previous = some previous := foundPrevious
        exact .reported atPrevious rfl rfl rfl mem_cons_self
      | previous =>
        cases retained
        have atActive : before.generation .active = some active := foundActive
        exact .reported atActive rfl rfl rfl (mem_cons_of_mem _ mem_cons_self)
      | staged =>
        have atStaged : before.generation .staged = some later := retained
        exact .unchanged atStaged

/-- Restaging continues every generation. -/
theorem keeps_of_restage {staged} (found : before.staged = some staged)
    (continues : Continues staged next) (retained : before.generation role = some earlier)
    : ∃ role' later,
        (Change.restage before updatedAtMs next markers).after.generation role' = some later
        ∧ Continues earlier later := by
  cases role with
  | active => exact ⟨.active, earlier, retained, .refl earlier⟩
  | previous => exact ⟨.previous, earlier, retained, .refl earlier⟩
  | staged =>
    have same : staged = earlier := some.inj (found.symm.trans retained)
    subst same
    exact ⟨.staged, next, rfl, continues⟩

/-- A change continues every generation before it, except a rollback target that is displaced. -/
theorem Transition.keeps (transition : Transition store backend operation change)
    (retained : change.before.generation role = some earlier)
    : (∃ role' later, change.after.generation role' = some later ∧ Continues earlier later)
      ∨ (role = .previous
          ∧ ∃ scope generationId updatedAtMs,
              operation = .activate scope generationId updatedAtMs) := by
  cases transition with
  | @stage manifest manifestSha256 updatedAtMs before accepted absent free =>
    cases role with
    | active => exact .inl ⟨.active, earlier, retained, .refl earlier⟩
    | previous => exact .inl ⟨.previous, earlier, retained, .refl earlier⟩
    | staged => cases free.symm.trans retained
  | loadBundle found named state =>
    refine .inl (keeps_of_restage found ?_ retained)
    exact ⟨rfl, rfl, Nat.le_refl _⟩
  | apply accepted found named state next bounded =>
    refine .inl (keeps_of_restage found ?_ retained)
    exact ⟨rfl, rfl, by simp only; omega⟩
  | ready found named state reached =>
    refine .inl (keeps_of_restage found ?_ retained)
    exact ⟨rfl, rfl, Nat.le_refl _⟩
  | fail accepted found named =>
    refine .inl (keeps_of_restage found ?_ retained)
    exact ⟨rfl, rfl, Nat.le_refl _⟩
  | @revise _ _ _ targetSequence _ updatedAtMs before advancedRole generation found named
      state _ advances =>
      by_cases same : role = advancedRole
      · subst same
        have generations : generation = earlier :=
          some.inj (found.symm.trans retained)
        subst generations
        exact .inl ⟨role, generation.advanced targetSequence, by cases role <;> rfl,
          ⟨rfl, rfl, Nat.le_of_lt advances⟩⟩
      · refine .inl ⟨role, earlier, ?_, .refl earlier⟩
        cases role <;> cases advancedRole <;>
          first
          | exact absurd rfl same
          | exact retained
  | @activate scope generationId updatedAtMs before staged found named state =>
    cases role with
    | active =>
      refine .inl ⟨.previous, earlier.demoted, ?_, ⟨rfl, rfl, Nat.le_refl _⟩⟩
      exact map_eq_some_iff.mpr ⟨earlier, retained, rfl⟩
    | previous => exact .inr ⟨rfl, scope, generationId, updatedAtMs, rfl⟩
    | staged =>
      have same : staged = earlier := some.inj (found.symm.trans retained)
      subst same
      exact .inl ⟨.active, staged.promoted, rfl, ⟨rfl, rfl, Nat.le_refl _⟩⟩
  | @rollback scope generationId updatedAtMs before previous active foundPrevious named
      foundActive =>
      cases role with
      | active =>
        have same : active = earlier := some.inj (foundActive.symm.trans retained)
        subst same
        exact .inl ⟨.previous, active.demoted, rfl, ⟨rfl, rfl, Nat.le_refl _⟩⟩
      | previous =>
        have same : previous = earlier :=
          some.inj (foundPrevious.symm.trans retained)
        subst same
        exact .inl ⟨.active, previous.promoted, rfl, ⟨rfl, rfl, Nat.le_refl _⟩⟩
      | staged => exact .inl ⟨.staged, earlier, retained, .refl earlier⟩

theorem Transition.records_applied (transition : Transition store backend operation change) {marker}
    (recorded : marker ∈ change.markers)
    : ∃ role generation, change.after.generation role = some generation
        ∧ generation.id = change.generationId
        ∧ marker.sequence ≤ generation.appliedSequence := by
  cases transition with
  | apply =>
    obtain rfl := mem_singleton.mp recorded
    exact ⟨.staged, _, rfl, rfl, Nat.le_refl _⟩
  | @revise _ _ _ targetSequence _ updatedAtMs before role generation found named state
      _ advances beyond length tail =>
      obtain ⟨mutation, member, rfl⟩ := mem_map.mp recorded
      obtain ⟨index, atIndex⟩ := getElem?_of_mem (mem_filter.mp member).1
      have sequence := (tail index mutation atIndex).sequence
      have bound := (List.getElem?_eq_some_iff.mp atIndex).1
      refine ⟨role, generation.advanced targetSequence, by cases role <;> rfl, rfl, ?_⟩
      simp only [markerOf, GenerationServingState.advanced]
      omega
  | _ => cases recorded

def Retained (backend : Backend) (scope : KnowledgeScope)
    (generation : GenerationServingState) : Prop :=
  ∃ record role, read backend (.state scope) = some (.state record)
    ∧ record.generation role = some generation

def RetainedId (backend : Backend) (scope : KnowledgeScope) (generationId : String) : Prop :=
  ∃ generation, Retained backend scope generation ∧ generation.id = generationId

variable {scope : KnowledgeScope}

theorem Retained.valid (addressed : Addressed store backend) {generation}
    (retained : Retained backend scope generation)
    : ∃ role, GenerationValid store.environment.parseUrl scope role generation := by
  obtain ⟨record, role, stored, found⟩ := retained
  obtain ⟨_, same, scopeEq, valid⟩ := addressed.state scope _ stored
  cases same
  rw [← scopeEq]
  exact ⟨role, valid.generations role generation found⟩

theorem Retained.unique (addressed : Addressed store backend) {left right}
    (leftRetained : Retained backend scope left) (rightRetained : Retained backend scope right)
    (same : left.id = right.id)
    : left = right := by
  obtain ⟨record, role, stored, found⟩ := leftRetained
  obtain ⟨record', role', stored', found'⟩ := rightRetained
  rw [stored] at stored'
  cases stored'
  obtain ⟨_, recordEq, _, valid⟩ := addressed.state scope _ stored
  cases recordEq
  have roles := valid.distinct role role' left right found found' same
  subst roles
  exact some.inj (found.symm.trans found')

namespace Commits

variable {store : ServingStateStore} {backend : Backend} {operation : Operation}
  {change : Change} {checkpoints : List ReplicaCheckpoint} {operations : List Write}

variable {generation : GenerationServingState}

section
variable (commits : Commits store backend operation change checkpoints operations)
include commits

theorem retained_iff
    : Retained (applyBatch backend operations) operation.scope generation
      ↔ ∃ role, change.after.generation role = some generation := by
  have stored := commits.read_state operation.scope
  rw [if_pos rfl] at stored
  constructor
  · rintro ⟨record, role, found, retained⟩
    rw [stored] at found
    cases found
    exact ⟨role, retained⟩
  · rintro ⟨role, retained⟩
    exact ⟨change.after, role, stored, retained⟩

theorem retained_other {scope} (other : scope ≠ operation.scope)
    : Retained (applyBatch backend operations) scope generation
      ↔ Retained backend scope generation := by
  have stored := commits.read_state scope
  rw [if_neg other] at stored
  simp only [Retained, stored]

theorem retained_before
    {role : Role} (found : change.before.generation role = some generation)
    : Retained backend operation.scope generation :=
  ⟨change.before, role, commits.starts.stored_of_generation found, found⟩

theorem before_of_retained
    (retained : Retained backend operation.scope generation)
    : ∃ role, change.before.generation role = some generation := by
  obtain ⟨record, role, stored, found⟩ := retained
  rcases commits.starts.stored with same | ⟨absent, _⟩
  · rw [stored] at same
    cases same
    exact ⟨role, found⟩
  · rw [stored] at absent
    cases absent

end

end Commits

end AkiDB.ServingState
