import AkiDB.ServingState.Transitions
import Mathlib.Logic.Relation

/-! Runs of a serving-state store: each slot holds a valid value of its own kind and identity. -/

namespace AkiDB.ServingState
open AkiDB.Common AkiDB.Contracts Checked AtomicBatch Unsigned List

/-! Runs -/

/-- One call of an allowed operation, with whatever fault the backend reports. -/
def StepWhere (store : ServingStateStore) (allowed : Backend → Operation → Prop)
    (before after : Backend) : Prop :=
  ∃ operation fault, allowed before operation
    ∧ after = (store.execute before operation fault).2

def ReachableWhere (store : ServingStateStore) (allowed : Backend → Operation → Prop)
    (backend : Backend) : Prop :=
  Relation.ReflTransGen (StepWhere store allowed) ∅ backend

/-- The stores that any calls reach from an empty backend. -/
def Reachable (store : ServingStateStore) (backend : Backend) : Prop :=
  ReachableWhere store (fun _ _ => True) backend

variable {store : ServingStateStore} {allowed : Backend → Operation → Prop} {backend : Backend}
  {operation : Operation} {change : Change}

theorem ReachableWhere.reachable (reached : ReachableWhere store allowed backend)
    : Reachable store backend :=
  Relation.ReflTransGen.mono
    (fun _ _ ⟨operation, fault, _, after⟩ => ⟨operation, fault, trivial, after⟩) _ _ reached

theorem ReachableWhere.step (reached : ReachableWhere store allowed backend)
    (permitted : allowed backend operation) (fault : Option AkiDbError)
    : ReachableWhere store allowed (store.execute backend operation fault).2 :=
  reached.tail ⟨operation, fault, permitted, rfl⟩

theorem Reachable.executed {after} (reached : Reachable store backend) {fault answer}
    (executed : store.execute backend operation fault = (answer, after))
    : Reachable store after := by
  refine reached.tail ⟨operation, fault, trivial, ?_⟩
  rw [executed]

/-- A property of the empty store that every committed change keeps holds along every run.
Witness: a call commits one change at most.
-/
theorem ReachableWhere.invariant {property : Backend → Prop} (initial : property ∅)
    (preserved : ∀ backend operation change checkpoints operations,
      ReachableWhere store allowed backend → property backend → allowed backend operation →
      (store.execute backend operation none).2 = applyBatch backend operations →
      Commits store backend operation change checkpoints operations →
      property (applyBatch backend operations)) (reached : ReachableWhere store allowed backend)
    : property backend := by
  induction reached with
  | refl => exact initial
  | tail earlier step ih =>
    obtain ⟨operation, fault, permitted, rfl⟩ := step
    rcases execute_cases store _ operation fault with
      same | ⟨_, _, _, _, rfl, executed, _, commits⟩
    · rw [same]
      exact ih
    · rw [executed]
      exact preserved _ _ _ _ _ earlier ih permitted (congrArg Prod.snd executed) commits

/-- Several calls in a row without faults, with the answer of each. -/
def runAll (store : ServingStateStore) : Backend → List Operation
    → List (ServingStateResult Response) × Backend
  | backend, [] => ([], backend)
  | backend, operation :: rest =>
    let (answer, next) := store.execute backend operation none
    let (answers, final) := runAll store next rest
    (answer :: answers, final)

/-- Each call of a row is allowed in the store that the earlier ones leave. -/
def AllowedAlong (store : ServingStateStore) (allowed : Backend → Operation → Prop)
    : Backend → List Operation → Prop
  | _, [] => True
  | backend, operation :: rest =>
    allowed backend operation
    ∧ AllowedAlong store allowed (store.execute backend operation none).2 rest

theorem runAll_reachableWhere (reached : ReachableWhere store allowed backend) {operations}
    (permitted : AllowedAlong store allowed backend operations)
    : ReachableWhere store allowed (runAll store backend operations).2 := by
  induction operations generalizing backend with
  | nil => exact reached
  | cons operation rest ih => exact ih (reached.step permitted.1 none) permitted.2

theorem runAll_reachable (store : ServingStateStore) (operations : List Operation)
    : Reachable store (runAll store ∅ operations).2 := by
  apply runAll_reachableWhere .refl
  generalize (∅ : Backend) = backend
  induction operations generalizing backend with
  | nil => trivial
  | cons operation rest ih => exact ⟨trivial, ih _⟩

/-! What a transition records -/

theorem Transition.after_scope (transition : Transition store backend operation change)
    : change.after.scope = change.before.scope := by
  cases transition with
  | revise => exact ServingStateRecord.revised_scope ..
  | _ => rfl

/-- A recorded marker is of an accepted mutation of the generation whose slots were free. -/
structure RecordsMutation (store : ServingStateStore) (backend : Backend)
    (scope : KnowledgeScope) (generationId : String) (marker : MutationMarker)
    (mutation : KnowledgeMutation) : Prop where
  marker_eq : marker = markerOf store.environment mutation
  accepted : mutation.Accepted
  sameGeneration : mutation.generationId = generationId
  freeSequence : read backend (.sequence scope generationId marker.sequence) = none
  freeIdentity : read backend (.identity scope generationId marker.mutationId) = none

theorem newMutation_of_mem {scope generationId} {baseSequence currentSequence : Nat} {mutations}
    (tail : ∀ index mutation, mutations[index]? = some mutation →
      TailEntry store backend scope generationId baseSequence currentSequence index mutation)
    {mutation} (member : mutation ∈ newMutations backend scope generationId mutations)
    : NewMutation backend scope generationId currentSequence mutation
      ∧ mutation.Accepted ∧ mutation.generationId = generationId := by
  obtain ⟨inTail, unrecorded⟩ := mem_filter.mp member
  obtain ⟨index, atIndex⟩ := getElem?_of_mem inTail
  have entry := tail index mutation atIndex
  refine ⟨?_, KnowledgeMutation.accepted_of_validate entry.accepted, entry.sameGeneration⟩
  rcases entry.known with fresh | ⟨marker, recorded⟩
  · exact fresh
  · simp [recorded.sequence] at unrecorded

theorem Transition.records (transition : Transition store backend operation change) {marker}
    (recorded : marker ∈ change.markers)
    : ∃ mutation, RecordsMutation store backend operation.scope change.generationId marker
        mutation := by
  cases transition with
  | apply accepted found named state next bounded freeSequence freeIdentity =>
    obtain rfl := mem_singleton.mp recorded
    rw [← named] at freeSequence freeIdentity
    exact ⟨_, rfl, KnowledgeMutation.accepted_of_validate accepted, named.symm,
      freeSequence, freeIdentity⟩
  | revise found named state reached advances beyond length tail =>
    obtain ⟨mutation, member, rfl⟩ := mem_map.mp recorded
    obtain ⟨fresh, accepted, sameGeneration⟩ := newMutation_of_mem tail member
    subst named
    exact ⟨mutation, rfl, accepted, sameGeneration, fresh.sequence, fresh.identity⟩
  | _ => cases recorded

theorem Transition.markers_unique (transition : Transition store backend operation change)
    {left right} (leftMember : left ∈ change.markers) (rightMember : right ∈ change.markers)
    (same : left.sequence = right.sequence)
    : left = right := by
  cases transition with
  | apply =>
    rw [mem_singleton.mp leftMember, mem_singleton.mp rightMember]
  | revise found named state reached advances beyond length tail =>
    obtain ⟨leftMutation, leftNew, rfl⟩ := mem_map.mp leftMember
    obtain ⟨rightMutation, rightNew, rfl⟩ := mem_map.mp rightMember
    obtain ⟨leftIndex, atLeft⟩ := getElem?_of_mem (mem_filter.mp leftNew).1
    obtain ⟨rightIndex, atRight⟩ := getElem?_of_mem (mem_filter.mp rightNew).1
    have leftSequence := (tail leftIndex leftMutation atLeft).sequence
    have rightSequence := (tail rightIndex rightMutation atRight).sequence
    have indices : leftIndex = rightIndex := by
      simp only [markerOf] at same
      omega
    rw [indices, atRight] at atLeft
    cases atLeft
    rfl
  | _ => cases leftMember

theorem Transition.reported_mem (transition : Transition store backend operation change)
    {generation} (reported : generation ∈ change.reported)
    : ∃ role, change.after.generation role = some generation := by
  cases transition with
  | stage => cases reported
  | @revise _ _ _ _ _ _ _ role =>
    obtain rfl := mem_singleton.mp reported
    exact ⟨role, by cases role <;> rfl⟩
  | @activate _ _ _ before staged =>
    rcases mem_append.mp reported with displaced | promoted
    · exact ⟨.previous, Option.mem_toList.mp displaced⟩
    · obtain rfl := mem_singleton.mp promoted
      exact ⟨.active, rfl⟩
  | rollback =>
    rcases mem_cons.mp reported with rfl | former
    · exact ⟨.active, rfl⟩
    · obtain rfl := mem_singleton.mp former
      exact ⟨.previous, rfl⟩
  | _ =>
    obtain rfl := mem_singleton.mp reported
    exact ⟨.staged, rfl⟩

/-! Slots after a committed change -/

theorem mem_changeWrites {record checkpoints generationId markers write}
    : write ∈ changeWrites record checkpoints generationId markers
      ↔ write = (.state record.scope, .state record)
        ∨ (∃ checkpoint ∈ checkpoints, write
            = (.checkpoint record.scope checkpoint.generationId, .checkpoint checkpoint))
        ∨ (∃ marker ∈ markers, write
            = (.sequence record.scope generationId marker.sequence, .marker marker))
        ∨ ∃ marker ∈ markers, write
            = (.identity record.scope generationId marker.mutationId, .marker marker) := by
  simp only [changeWrites, cons_append, mem_cons, mem_append, mem_map,
    mem_flatMap, not_mem_nil, or_false]
  constructor
  · rintro (rfl | ⟨checkpoint, member, rfl⟩ | ⟨marker, member, rfl | rfl⟩)
    · exact .inl rfl
    · exact .inr (.inl ⟨checkpoint, member, rfl⟩)
    · exact .inr (.inr (.inl ⟨marker, member, rfl⟩))
    · exact .inr (.inr (.inr ⟨marker, member, rfl⟩))
  · rintro (rfl | ⟨checkpoint, member, rfl⟩ | ⟨marker, member, rfl⟩ | ⟨marker, member, rfl⟩)
    · exact .inl rfl
    · exact .inr (.inl ⟨checkpoint, member, rfl⟩)
    · exact .inr (.inr ⟨marker, member, .inl rfl⟩)
    · exact .inr (.inr ⟨marker, member, .inr rfl⟩)

namespace Commits

variable {store : ServingStateStore} {backend : Backend} {operation : Operation}
  {change : Change} {checkpoints : List ReplicaCheckpoint} {operations : List Write}
  (commits : Commits store backend operation change checkpoints operations)
include commits

theorem after_scope : change.after.scope = operation.scope :=
  commits.transition.after_scope.trans commits.starts.scope

variable {checkpoint : ReplicaCheckpoint}

theorem built_of_mem (member : checkpoint ∈ checkpoints)
    : ∃ generation ∈ change.reported,
        checkpointFor store.replicaId generation change.after.updatedAtMs
          = .ok checkpoint :=
  mem_of_partner commits.reports member

theorem reports_of_mem (member : checkpoint ∈ checkpoints)
    : ∃ generation ∈ change.reported, Reports store.replicaId generation checkpoint := by
  obtain ⟨generation, reported, built⟩ := commits.built_of_mem member
  exact ⟨generation, reported, checkpointFor_reports built⟩

theorem short
    : ∀ write ∈ changeWrites change.after checkpoints change.generationId change.markers,
        write.1.Short := by
  have accepted : change.after.scope.validate = .ok () := commits.valid.scope
  intro write member
  rcases mem_changeWrites.mp member with
    rfl | ⟨checkpoint, written, rfl⟩ | ⟨marker, recorded, rfl⟩ | ⟨marker, recorded, rfl⟩
  · exact accepted
  · obtain ⟨generation, _, reports⟩ := commits.reports_of_mem written
    have valid := reports.valid
    simp only [ReplicaCheckpoint.validate, seq_eq_ok] at valid
    exact ⟨accepted, validateIdentifier_size valid.2.2.2.1⟩
  · obtain ⟨mutation, records⟩ := commits.transition.records recorded
    refine ⟨accepted, ?_, ?_⟩
    · rw [← records.sameGeneration]
      exact records.accepted.generationId
    · rw [records.marker_eq]
      exact records.accepted.inRange
  · obtain ⟨mutation, records⟩ := commits.transition.records recorded
    refine ⟨accepted, ?_, ?_⟩
    · rw [← records.sameGeneration]
      exact records.accepted.generationId
    · rw [records.marker_eq]
      exact validateIdentifier_size records.accepted.mutationId

theorem applied_eq : applyBatch backend operations
      = writeSlots backend
          (changeWrites change.after checkpoints change.generationId change.markers) := by
  rw [commits.operations_eq]
  rfl

theorem read_state (scope : KnowledgeScope)
    : read (applyBatch backend operations) (.state scope)
      = if scope = operation.scope then some (.state change.after)
        else read backend (.state scope) := by
  rw [commits.applied_eq]
  split
  · next same =>
    rw [same, ← commits.after_scope]
    apply read_writeSlots_written commits.short (.state _) trivial (mem_changeWrites.mpr (.inl rfl))
    intro write member sameSlot
    rcases mem_changeWrites.mp member with
      rfl | ⟨_, _, rfl⟩ | ⟨_, _, rfl⟩ | ⟨_, _, rfl⟩
    · rfl
    all_goals cases sameSlot
  · next other =>
    apply read_writeSlots_untouched commits.short (.state scope) trivial
    intro write member sameSlot
    rcases mem_changeWrites.mp member with
      rfl | ⟨_, _, rfl⟩ | ⟨_, _, rfl⟩ | ⟨_, _, rfl⟩
    · cases sameSlot
      exact other commits.after_scope
    all_goals cases sameSlot

variable {scope : KnowledgeScope} {generationId : String} {value : StoredValue}

theorem read_checkpoint_cases
    (found : read (applyBatch backend operations) (.checkpoint scope generationId)
      = some value)
    : (∃ checkpoint ∈ checkpoints, scope = operation.scope
          ∧ checkpoint.generationId = generationId ∧ value = .checkpoint checkpoint)
      ∨ read backend (.checkpoint scope generationId) = some value := by
  rw [commits.applied_eq] at found
  rcases read_writeSlots_cases commits.short (.checkpoint _ _) trivial found with
    written | ⟨_, before⟩
  · rcases mem_changeWrites.mp written with
      same | ⟨checkpoint, member, same⟩ | ⟨_, _, same⟩ | ⟨_, _, same⟩ <;> cases same
    exact .inl ⟨checkpoint, member, commits.after_scope, rfl, rfl⟩
  · exact .inr before

theorem read_checkpoint_untouched (unreported : scope = operation.scope →
      ∀ generation ∈ change.reported, generation.id ≠ generationId)
    : read (applyBatch backend operations) (.checkpoint scope generationId)
      = read backend (.checkpoint scope generationId) := by
  rw [commits.applied_eq]
  apply read_writeSlots_untouched commits.short (.checkpoint _ _) trivial
  intro write member sameSlot
  rcases mem_changeWrites.mp member with
    rfl | ⟨checkpoint, written, rfl⟩ | ⟨_, _, rfl⟩ | ⟨_, _, rfl⟩ <;> cases sameSlot
  obtain ⟨generation, reported, reports⟩ := commits.reports_of_mem written
  exact unreported commits.after_scope generation reported reports.generationId.symm

theorem read_checkpoint_reported {generation} (reported : generation ∈ change.reported)
    : ∃ checkpoint, read (applyBatch backend operations)
          (.checkpoint operation.scope generation.id) = some (.checkpoint checkpoint)
        ∧ Reports store.replicaId generation checkpoint := by
  obtain ⟨checkpoint, member, built⟩ := partner_of_mem commits.reports reported
  have reports := checkpointFor_reports built
  have written : (.checkpoint change.after.scope checkpoint.generationId,
      .checkpoint checkpoint) ∈ changeWrites change.after checkpoints change.generationId
        change.markers :=
    mem_changeWrites.mpr (.inr (.inl ⟨checkpoint, member, rfl⟩))
  refine ⟨checkpoint, ?_, reports⟩
  rw [commits.applied_eq, ← commits.after_scope, ← reports.generationId]
  apply read_writeSlots_written commits.short _ (commits.short _ written).inRange written
  intro write writeMember sameSlot
  rcases mem_changeWrites.mp writeMember with
    rfl | ⟨other, otherMember, rfl⟩ | ⟨_, _, rfl⟩ | ⟨_, _, rfl⟩
  case inr.inl =>
    simp only [Slot.checkpoint.injEq, true_and] at sameSlot
    obtain ⟨otherGeneration, otherReported, otherBuilt⟩ := commits.built_of_mem otherMember
    have otherReports := checkpointFor_reports otherBuilt
    obtain ⟨role, retained⟩ := commits.transition.reported_mem reported
    obtain ⟨otherRole, otherRetained⟩ := commits.transition.reported_mem otherReported
    have ids : otherGeneration.id = generation.id := by
      rw [← otherReports.generationId, sameSlot, reports.generationId]
    have roles := commits.valid.distinct otherRole role _ _ otherRetained retained ids
    rw [roles, retained] at otherRetained
    cases otherRetained
    cases built.symm.trans otherBuilt
    rfl
  all_goals cases sameSlot

theorem read_sequence_cases {sequence : Nat} (inRange : sequence < range64)
    (found : read (applyBatch backend operations) (.sequence scope generationId sequence)
      = some value)
    : (∃ marker ∈ change.markers, scope = operation.scope
          ∧ generationId = change.generationId ∧ marker.sequence = sequence
          ∧ value = .marker marker)
      ∨ read backend (.sequence scope generationId sequence) = some value := by
  rw [commits.applied_eq] at found
  rcases read_writeSlots_cases commits.short (.sequence _ _ _) inRange found with
    written | ⟨_, before⟩
  · rcases mem_changeWrites.mp written with
      same | ⟨_, _, same⟩ | ⟨marker, member, same⟩ | ⟨_, _, same⟩ <;> cases same
    exact .inl ⟨marker, member, commits.after_scope, rfl, rfl, rfl⟩
  · exact .inr before

variable {mutationId : String}

theorem read_identity_cases
    (found : read (applyBatch backend operations) (.identity scope generationId mutationId)
      = some value)
    : (∃ marker ∈ change.markers, scope = operation.scope
          ∧ generationId = change.generationId ∧ marker.mutationId = mutationId
          ∧ value = .marker marker)
      ∨ read backend (.identity scope generationId mutationId) = some value := by
  rw [commits.applied_eq] at found
  rcases read_writeSlots_cases commits.short (.identity _ _ _) trivial found with
    written | ⟨_, before⟩
  · rcases mem_changeWrites.mp written with
      same | ⟨_, _, same⟩ | ⟨_, _, same⟩ | ⟨marker, member, same⟩ <;> cases same
    exact .inl ⟨marker, member, commits.after_scope, rfl, rfl, rfl⟩
  · exact .inr before

variable {marker : MutationMarker}

theorem read_sequence_recorded (recorded : marker ∈ change.markers)
    : read (applyBatch backend operations)
        (.sequence operation.scope change.generationId marker.sequence)
      = some (.marker marker) := by
  have written : (.sequence change.after.scope change.generationId marker.sequence,
      .marker marker) ∈ changeWrites change.after checkpoints change.generationId change.markers :=
    mem_changeWrites.mpr (.inr (.inr (.inl ⟨marker, recorded, rfl⟩)))
  rw [commits.applied_eq, ← commits.after_scope]
  apply read_writeSlots_written commits.short _ (commits.short _ written).inRange written
  intro write member sameSlot
  rcases mem_changeWrites.mp member with
    rfl | ⟨_, _, rfl⟩ | ⟨other, otherRecorded, rfl⟩ | ⟨_, _, rfl⟩
  case inr.inr.inl =>
    simp only [Slot.sequence.injEq, true_and] at sameSlot
    rw [commits.transition.markers_unique otherRecorded recorded sameSlot]
  all_goals cases sameSlot

theorem read_identity_recorded (distinct : ∀ left ∈ change.markers, ∀ right ∈ change.markers,
      left.mutationId = right.mutationId → left = right) (recorded : marker ∈ change.markers)
    : read (applyBatch backend operations)
        (.identity operation.scope change.generationId marker.mutationId)
      = some (.marker marker) := by
  have written : (.identity change.after.scope change.generationId marker.mutationId,
      .marker marker) ∈ changeWrites change.after checkpoints change.generationId change.markers :=
    mem_changeWrites.mpr (.inr (.inr (.inr ⟨marker, recorded, rfl⟩)))
  rw [commits.applied_eq, ← commits.after_scope]
  apply read_writeSlots_written commits.short _ (commits.short _ written).inRange written
  intro write member sameSlot
  rcases mem_changeWrites.mp member with
    rfl | ⟨_, _, rfl⟩ | ⟨_, _, rfl⟩ | ⟨other, otherRecorded, rfl⟩
  case inr.inr.inr =>
    simp only [Slot.identity.injEq, true_and] at sameSlot
    rw [distinct other otherRecorded marker recorded sameSlot]
  all_goals cases sameSlot

theorem read_sequence_kept {sequence : Nat} (inRange : sequence < range64)
    (found : read backend (.sequence scope generationId sequence) = some value)
    : read (applyBatch backend operations) (.sequence scope generationId sequence)
      = some value := by
  rw [commits.applied_eq, ← found]
  apply read_writeSlots_untouched commits.short (.sequence _ _ _) inRange
  intro write member sameSlot
  rcases mem_changeWrites.mp member with
    rfl | ⟨_, _, rfl⟩ | ⟨marker, recorded, rfl⟩ | ⟨_, _, rfl⟩ <;> cases sameSlot
  obtain ⟨mutation, records⟩ := commits.transition.records recorded
  have free := records.freeSequence
  rw [← commits.after_scope, found] at free
  cases free

theorem read_identity_kept
    (found : read backend (.identity scope generationId mutationId) = some value)
    : read (applyBatch backend operations) (.identity scope generationId mutationId)
      = some value := by
  rw [commits.applied_eq, ← found]
  apply read_writeSlots_untouched commits.short (.identity _ _ _) trivial
  intro write member sameSlot
  rcases mem_changeWrites.mp member with
    rfl | ⟨_, _, rfl⟩ | ⟨_, _, rfl⟩ | ⟨marker, recorded, rfl⟩ <;> cases sameSlot
  obtain ⟨mutation, records⟩ := commits.transition.records recorded
  have free := records.freeIdentity
  rw [← commits.after_scope, found] at free
  cases free

end Commits

/-! Every slot holds a value of its own -/

/-- Each slot holds a valid value of its kind that carries the slot's own identity. -/
structure Addressed (store : ServingStateStore) (backend : Backend) : Prop where
  state : ∀ scope value, read backend (.state scope) = some value →
    ∃ record, value = .state record ∧ record.scope = scope
      ∧ RecordValid store.environment.parseUrl store.replicaId record
  checkpoint : ∀ scope generationId value,
    read backend (.checkpoint scope generationId) = some value →
    ∃ checkpoint, value = .checkpoint checkpoint ∧ checkpoint.scope = scope
      ∧ checkpoint.generationId = generationId ∧ checkpoint.replicaId = store.replicaId
      ∧ checkpoint.validate = .ok ()
  sequence : ∀ scope generationId sequence value, sequence < range64 →
    read backend (.sequence scope generationId sequence) = some value →
    ∃ marker, value = .marker marker ∧ marker.sequence = sequence
      ∧ validateMarker marker = .ok ()
  identity : ∀ scope generationId mutationId value,
    read backend (.identity scope generationId mutationId) = some value →
    ∃ marker, value = .marker marker ∧ marker.mutationId = mutationId
      ∧ validateMarker marker = .ok ()

/-- Every reachable store is addressed. -/
theorem Reachable.addressed (reached : Reachable store backend) : Addressed store backend := by
  refine ReachableWhere.invariant ?_ ?_ reached
  · constructor <;> simp
  · intro backend operation change checkpoints operations _ addressed _ _ commits
    constructor
    · intro scope value found
      rw [commits.read_state] at found
      split at found
      · next same =>
        cases found
        exact ⟨_, rfl, by rw [commits.after_scope, same], commits.valid⟩
      · exact addressed.state scope value found
    · intro scope generationId value found
      rcases commits.read_checkpoint_cases found with
        ⟨checkpoint, written, rfl, rfl, rfl⟩ | before
      · obtain ⟨generation, reported, reports⟩ := commits.reports_of_mem written
        obtain ⟨role, retained⟩ := commits.transition.reported_mem reported
        have scopeEq := (commits.valid.generations role generation retained).scope
        exact ⟨checkpoint, rfl,
          by rw [reports.scope, scopeEq, commits.after_scope], rfl, reports.replica,
          reports.valid⟩
      · exact addressed.checkpoint scope generationId value before
    · intro scope generationId sequence value inRange found
      rcases commits.read_sequence_cases inRange found with
        ⟨marker, recorded, rfl, rfl, rfl, rfl⟩ | before
      · obtain ⟨mutation, records⟩ := commits.transition.records recorded
        refine ⟨marker, rfl, rfl, ?_⟩
        rw [records.marker_eq]
        exact validateMarker_markerOf store.environment records.accepted
      · exact addressed.sequence scope generationId sequence value inRange before
    · intro scope generationId mutationId value found
      rcases commits.read_identity_cases found with
        ⟨marker, recorded, rfl, rfl, rfl, rfl⟩ | before
      · obtain ⟨mutation, records⟩ := commits.transition.records recorded
        refine ⟨marker, rfl, rfl, ?_⟩
        rw [records.marker_eq]
        exact validateMarker_markerOf store.environment records.accepted
      · exact addressed.identity scope generationId mutationId value before

end AkiDB.ServingState
