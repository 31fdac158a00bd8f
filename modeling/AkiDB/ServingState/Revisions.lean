import AkiDB.ServingState.Markers
import AkiDB.ServingState.Preservation

/-! Laws of sealed revisions: tails in two steps, and committed tails that are committed again. -/

namespace AkiDB.ServingState
open AkiDB.Common AkiDB.Contracts AtomicBatch ByteFraming Checked Unsigned List ServingStateRecord

section
variable {store : ServingStateStore} {backend : Backend} {scope : KnowledgeScope}
  {generationId manifestSha256 : String} {targetSequence : Nat}
  {mutations : List KnowledgeMutation} {updatedAtMs : Nat} {record : ServingStateRecord}
  {role : Role} {generation : GenerationServingState}

/-! Two changes of one record -/

def markerWrites (scope : KnowledgeScope) (generationId : String)
    (markers : List MutationMarker) : List SlotWrite :=
  markers.flatMap fun marker =>
    [(.sequence scope generationId marker.sequence, .marker marker),
      (.identity scope generationId marker.mutationId, .marker marker)]

theorem changeWrites_eq_append (record : ServingStateRecord)
    (checkpoints : List ReplicaCheckpoint) (generationId : String)
    (markers : List MutationMarker)
    : changeWrites record checkpoints generationId markers
      = changeWrites record checkpoints generationId []
        ++ markerWrites record.scope generationId markers := by
  simp [changeWrites, markerWrites]

theorem changeWrites_twice
    {backend first last firstReports lastReports generationId firstMarkers lastMarkers}
    (short : ∀ write ∈ changeWrites first firstReports generationId firstMarkers, write.1.Short)
    (sameScope : last.scope = first.scope)
    (covered : ∀ report ∈ firstReports, ∃ again ∈ lastReports,
      again.generationId = report.generationId)
    : writeSlots (writeSlots backend (changeWrites first firstReports generationId firstMarkers))
        (changeWrites last lastReports generationId lastMarkers)
      = writeSlots backend
          (changeWrites last lastReports generationId (firstMarkers ++ lastMarkers)) := by
  have markersAppend : markerWrites last.scope generationId (firstMarkers ++ lastMarkers)
      = markerWrites first.scope generationId firstMarkers
        ++ markerWrites last.scope generationId lastMarkers := by
    rw [markerWrites, flatMap_append, sameScope]
    rfl
  unfold writeSlots
  rw [changeWrites_eq_append last lastReports generationId lastMarkers,
    changeWrites_eq_append last lastReports generationId (firstMarkers ++ lastMarkers),
    markersAppend, ← append_assoc, map_append, map_append, applyBatch_append,
    applyBatch_append, map_append,
    changeWrites_eq_append first firstReports generationId firstMarkers, map_append,
    applyBatch_rewrite]
  · intro operation member
    obtain ⟨write, written, rfl⟩ := mem_map.mp member
    have sameKey : ∀ {slot : Slot} {value : StoredValue}, write.1 = slot →
        (slot, value) ∈ changeWrites last lastReports generationId [] →
        ∃ again ∈ (changeWrites last lastReports generationId []).map SlotWrite.operation,
          again.key = (SlotWrite.operation write).key :=
      fun here rewritten => ⟨_, mem_map_of_mem rewritten, congrArg Slot.key here.symm⟩
    rcases mem_changeWrites.mp written with
      rfl | ⟨report, reported, rfl⟩ | ⟨_, impossible, _⟩ | ⟨_, impossible, _⟩
    · exact sameKey (congrArg Slot.state sameScope.symm) (mem_changeWrites.mpr (.inl rfl))
    · obtain ⟨again, inLast, sameId⟩ := covered report reported
      refine sameKey ?_ (mem_changeWrites.mpr (.inr (.inl ⟨again, inLast, rfl⟩)))
      rw [sameScope, sameId]
    all_goals cases impossible
  · intro operation member other otherMember same
    obtain ⟨write, written, rfl⟩ := mem_map.mp member
    obtain ⟨again, rewritten, rfl⟩ := mem_map.mp otherMember
    have isShort : write.1.Short := short write (by
      rw [changeWrites_eq_append]
      exact mem_append_right _ written)
    have sameSlot : again.1.InRange → again.1 = write.1 :=
      fun inRange => Slot.key_inj inRange isShort same.symm
    obtain ⟨marker, _, isMarker⟩ := mem_flatMap.mp written
    simp only [mem_cons, not_mem_nil, or_false] at isMarker
    rcases mem_changeWrites.mp rewritten with
      rfl | ⟨_, _, rfl⟩ | ⟨_, impossible, _⟩ | ⟨_, impossible, _⟩
    · rcases isMarker with rfl | rfl <;> cases sameSlot trivial
    · rcases isMarker with rfl | rfl <;> cases sameSlot trivial
    all_goals cases impossible

/-! Successful calls -/

theorem execute_commit_iff {answer after}
    : store.execute backend (.commitGenerationRevision scope generationId manifestSha256
        targetSequence mutations updatedAtMs) none = (.ok answer, after)
      ↔ ∃ record role generation,
          RevisionAccepted store backend scope generationId manifestSha256 targetSequence
            mutations updatedAtMs record role generation
          ∧ ((generation.appliedSequence = targetSequence
              ∧ answer = .mutation .duplicate ∧ after = backend)
            ∨ ∃ checkpoint operations,
                RevisionWrites store backend mutations targetSequence updatedAtMs record role
                  generation checkpoint operations
                ∧ answer = .mutation .applied ∧ after = applyBatch backend operations) := by
  simp only [ServingStateStore.execute, ServingStateStore.plan]
  constructor
  · intro executed
    cases planned : store.commitGenerationRevision backend scope generationId manifestSha256
        targetSequence mutations updatedAtMs with
    | error error =>
      rw [planned] at executed
      cases executed
    | ok decision =>
      rw [planned] at executed
      obtain ⟨record, role, generation, accepted, ⟨same, rfl⟩ | ⟨_, _, writes, rfl⟩⟩ :=
        commitGenerationRevision_eq_ok.mp planned
      · cases executed
        exact ⟨record, role, generation, accepted, .inl ⟨same, rfl, rfl⟩⟩
      · cases executed
        exact ⟨record, role, generation, accepted, .inr ⟨_, _, writes, rfl, rfl⟩⟩
  · rintro ⟨record, role, generation, accepted, ⟨same, rfl, rfl⟩ | ⟨_, _, writes, rfl, rfl⟩⟩
    · rw [commitGenerationRevision_eq_ok.mpr ⟨record, role, generation, accepted, .inl ⟨same, rfl⟩⟩]
      rfl
    · rw [commitGenerationRevision_eq_ok.mpr
        ⟨record, role, generation, accepted, .inr ⟨_, _, writes, rfl⟩⟩]
      rfl

variable {mutation : KnowledgeMutation} {later : Nat}

theorem RevisionAccepted.placed
    (accepted : RevisionAccepted store backend scope generationId manifestSha256
      targetSequence mutations updatedAtMs record role generation) (member : mutation ∈ mutations)
    : mutation.Accepted ∧ generation.manifest.targetSequence < mutation.sequence
      ∧ mutation.sequence ≤ targetSequence := by
  obtain ⟨index, atIndex⟩ := getElem?_of_mem member
  have entry := accepted.tail index mutation atIndex
  have bound := (List.getElem?_eq_some_iff.mp atIndex).1
  have length := accepted.length
  have sequence := entry.sequence
  exact ⟨KnowledgeMutation.accepted_of_validate entry.accepted, by omega, by omega⟩

theorem RevisionAccepted.inTail
    (accepted : RevisionAccepted store backend scope generationId manifestSha256
      targetSequence mutations updatedAtMs record role generation) (member : mutation ∈ mutations)
    : NewMutation backend scope generationId generation.appliedSequence mutation
      ∨ ∃ marker, RecordedMutation store backend scope generationId mutation marker := by
  obtain ⟨index, atIndex⟩ := getElem?_of_mem member
  exact (accepted.tail index mutation atIndex).known

/-! The store after a revision -/

@[simp]
theorem ServingStateRecord.revised_generation (record : ServingStateRecord) (role : Role)
    (next : GenerationServingState) (updatedAtMs : Nat)
    : (record.revised role next updatedAtMs).generation role = some next := by
  cases role <;> rfl

theorem ServingStateRecord.revised_revised (record : ServingStateRecord) (role : Role)
    (next last : GenerationServingState) (updatedAtMs later : Nat)
    : (record.revised role next updatedAtMs).revised role last later
      = record.revised role last later := by
  cases role <;> rfl

variable {checkpoint : ReplicaCheckpoint} {operations : List Write}
  (accepted : RevisionAccepted store backend scope generationId manifestSha256 targetSequence
    mutations updatedAtMs record role generation)
  (writes : RevisionWrites store backend mutations targetSequence updatedAtMs record role
    generation checkpoint operations)
include accepted writes

theorem RevisionWrites.loaded_after
    : store.loadRequiredUnlocked (applyBatch backend operations) scope
      = .ok (record.revised role (generation.advanced targetSequence) updatedAtMs) := by
  have starts := StartsFrom.of_required accepted.loaded
  have stored := ((writes.commits accepted).read_state scope).trans (if_pos rfl)
  refine loadRequiredUnlocked_eq_ok.mpr ⟨starts.accepted, stored, writes.valid, ?_⟩
  rw [revised_scope, starts.scope]

theorem RevisionWrites.read_beyond {sequence : Nat} (beyond : targetSequence < sequence)
    (inRange : sequence < range64)
    : read (applyBatch backend operations) (.sequence scope generationId sequence)
      = read backend (.sequence scope generationId sequence) := by
  have commits := writes.commits accepted
  cases before : read backend (.sequence scope generationId sequence) with
  | some value => exact commits.read_sequence_kept inRange before
  | none =>
    cases after : read (applyBatch backend operations) (.sequence scope generationId sequence) with
    | none => rfl
    | some value =>
      rcases commits.read_sequence_cases inRange after with
        ⟨marker, recorded, _, _, sequenceEq, _⟩ | kept
      · obtain ⟨mutation, member, rfl⟩ := mem_map.mp recorded
        have bound := (accepted.placed (mem_filter.mp member).1).2.2
        simp only [markerOf] at sequenceEq
        omega
      · cases before.symm.trans kept

theorem RevisionWrites.marked_after (member : mutation ∈ mutations)
    : read (applyBatch backend operations) (.sequence scope generationId mutation.sequence)
      ≠ none := by
  have commits := writes.commits accepted
  rcases accepted.inTail member with fresh | ⟨marker, recorded⟩
  · have isNew : mutation ∈ newMutations backend scope generationId mutations :=
      mem_filter.mpr ⟨member, by rw [fresh.sequence]; rfl⟩
    have found := commits.read_sequence_recorded (mem_map_of_mem isNew)
    have named : (Change.revise record role generation targetSequence updatedAtMs
        ((newMutations backend scope generationId mutations).map
          (markerOf store.environment))).generationId = generationId := accepted.named
    rw [named] at found
    exact found ▸ nofun
  · rw [commits.read_sequence_kept (accepted.placed member).1.inRange recorded.sequence]
    nofun

section
variable {nextTarget nextUpdatedAtMs : Nat} {rest : List KnowledgeMutation}

theorem RevisionWrites.next_starts {tail nextRecord} {nextRole : Role} {nextGeneration}
    (next : RevisionAccepted store (applyBatch backend operations) scope generationId
      manifestSha256 nextTarget tail nextUpdatedAtMs nextRecord nextRole nextGeneration)
    : nextRecord = record.revised role (generation.advanced targetSequence) updatedAtMs
      ∧ nextRole = role ∧ nextGeneration = generation.advanced targetSequence := by
  have sameRecord := next.loaded.symm.trans (writes.loaded_after accepted)
  cases sameRecord
  have found := revised_generation record role (generation.advanced targetSequence) updatedAtMs
  have sameRole := writes.valid.distinct nextRole role nextGeneration _ next.found found
    (next.named.trans accepted.named.symm)
  subst sameRole
  exact ⟨rfl, rfl, Option.some.inj (next.found.symm.trans found)⟩

theorem RevisionWrites.accepted_at_once
    (addressed : Addressed store (applyBatch backend operations))
    (next : RevisionAccepted store (applyBatch backend operations) scope generationId
      manifestSha256 nextTarget (mutations ++ rest) nextUpdatedAtMs
      (record.revised role (generation.advanced targetSequence) updatedAtMs) role
      (generation.advanced targetSequence))
    : RevisionAccepted store backend scope generationId manifestSha256 nextTarget
        (mutations ++ rest) nextUpdatedAtMs record role generation := by
  have commits := writes.commits accepted
  have current := accepted.current
  have target : targetSequence ≤ nextTarget := next.current
  refine {
    digest := accepted.digest
    timestamp := next.timestamp
    safe := next.safe
    loaded := accepted.loaded
    found := accepted.found
    named := accepted.named
    sameManifest := accepted.sameManifest
    state := accepted.state
    current := current.trans target
    beyond := next.beyond
    length := next.length
    tail := ?_ }
  intro index mutation atIndex
  by_cases early : index < mutations.length
  · rw [getElem?_append_left early] at atIndex
    exact accepted.tail index mutation atIndex
  · have entry := next.tail index mutation atIndex
    have facts := KnowledgeMutation.accepted_of_validate entry.accepted
    have later : targetSequence < mutation.sequence := by
      have sequence := entry.sequence
      have length := accepted.length
      have beyond := accepted.beyond
      simp only [GenerationServingState.advanced] at sequence
      omega
    refine ⟨entry.toTailPlaced, ?_⟩
    rcases entry.known with fresh | ⟨marker, recorded⟩
    · refine .inl ⟨?_, ?_, by omega⟩
      · rw [← writes.read_beyond accepted later facts.inRange]
        exact fresh.sequence
      · cases before : read backend (.identity scope generationId mutation.mutationId) with
        | none => rfl
        | some value =>
          cases fresh.identity.symm.trans (commits.read_identity_kept before)
    · refine .inr ⟨marker, ?_, ?_, recorded.valid, recorded.mutationId, recorded.mutationSha256⟩
      · rw [← writes.read_beyond accepted later facts.inRange]
        exact recorded.sequence
      · rcases commits.read_identity_cases recorded.identity with
          ⟨written, isRecorded, _, _, _, same⟩ | before
        · -- a marker written by the first call has an earlier sequence than its slot's
          cases same
          obtain ⟨_, same, sequenceEq, _⟩ :=
            addressed.sequence _ _ _ _ facts.inRange recorded.sequence
          cases same
          obtain ⟨former, member, rfl⟩ := mem_map.mp isRecorded
          have bound := (accepted.placed (mem_filter.mp member).1).2.2
          simp only [markerOf] at sequenceEq
          omega
        · exact before

theorem RevisionWrites.newMutations_after (beyond : ∀ mutation ∈ rest,
      targetSequence < mutation.sequence ∧ mutation.sequence < range64)
    : newMutations (applyBatch backend operations) scope generationId (mutations ++ rest)
      = newMutations backend scope generationId rest := by
  unfold newMutations
  rw [filter_append, filter_eq_nil_iff.mpr, nil_append]
  · apply filter_congr
    intro mutation member
    rw [writes.read_beyond accepted (beyond mutation member).1 (beyond mutation member).2]
  · intro mutation member unmarked
    exact writes.marked_after accepted member (Option.isNone_iff_eq_none.mp unmarked)

theorem RevisionWrites.written_at_once {nextCheckpoint nextOperations}
    (beyond : ∀ mutation ∈ rest, targetSequence < mutation.sequence ∧ mutation.sequence < range64)
    (target : targetSequence ≤ nextTarget)
    (next : RevisionWrites store (applyBatch backend operations) (mutations ++ rest)
      nextTarget nextUpdatedAtMs
      (record.revised role (generation.advanced targetSequence) updatedAtMs) role
      (generation.advanced targetSequence) nextCheckpoint nextOperations)
    : ∃ wholeOperations,
        RevisionWrites store backend (mutations ++ rest) nextTarget nextUpdatedAtMs record
          role generation nextCheckpoint wholeOperations
        ∧ applyBatch backend wholeOperations
          = applyBatch (applyBatch backend operations) nextOperations := by
  have commits := writes.commits accepted
  have starts := StartsFrom.of_required accepted.loaded
  have current := accepted.current
  have advances := writes.advances
  refine ⟨_, ⟨by omega, next.built, ?_, rfl⟩, ?_⟩
  · have valid := next.valid
    rw [revised_revised] at valid
    exact valid
  · obtain rfl := accepted.named
    obtain rfl := starts.scope
    have sameId : (generation.advanced targetSequence).id = generation.id := rfl
    have appended : newMutations backend record.scope generation.id (mutations ++ rest)
        = newMutations backend record.scope generation.id mutations
          ++ newMutations backend record.scope generation.id rest :=
      filter_append ..
    rw [next.operations_eq, revised_revised, sameId,
      revised_scope, writes.newMutations_after accepted beyond,
      commits.applied_eq, appended, map_append]
    refine (changeWrites_twice commits.short ?_ ?_).symm
    · rw [commits.after_scope, revised_scope]
      rfl
    · intro report reported
      refine ⟨nextCheckpoint, mem_singleton_self _, ?_⟩
      rw [mem_singleton.mp reported, (checkpointFor_reports next.built).generationId,
        (checkpointFor_reports writes.built).generationId]
      rfl

end

/-! A tail again -/

theorem RevisionWrites.recorded_after (distinct : (mutations.map (·.mutationId)).Nodup)
    (member : mutation ∈ mutations)
    : ∃ marker, RecordedMutation store (applyBatch backend operations) scope generationId
        mutation marker := by
  have commits := writes.commits accepted
  have facts := (accepted.placed member).1
  rcases accepted.inTail member with fresh | ⟨marker, recorded⟩
  · have isNew : mutation ∈ newMutations backend scope generationId mutations :=
      mem_filter.mpr ⟨member, by rw [fresh.sequence]; rfl⟩
    have isRecorded := mem_map_of_mem (f := markerOf store.environment) isNew
    have atSequence := commits.read_sequence_recorded isRecorded
    have atIdentity := commits.read_identity_recorded
      (commits.transition.markers_distinct distinct) isRecorded
    simp only [Change.revise, Operation.scope, accepted.named] at atSequence atIdentity
    exact ⟨markerOf store.environment mutation, {
      sequence := atSequence
      identity := atIdentity
      valid := validateMarker_markerOf store.environment facts
      mutationId := rfl
      mutationSha256 := rfl }⟩
  · exact ⟨marker, {
      sequence := commits.read_sequence_kept facts.inRange recorded.sequence
      identity := commits.read_identity_kept recorded.identity
      valid := recorded.valid
      mutationId := recorded.mutationId
      mutationSha256 := recorded.mutationSha256 }⟩

omit accepted writes

theorem nodup_of_recorded (addressed : Addressed store backend) {baseSequence : Nat}
    (placed : ∀ index mutation, mutations[index]? = some mutation →
      TailPlaced store scope generationId baseSequence index mutation)
    (recorded : ∀ mutation ∈ mutations,
      ∃ marker, RecordedMutation store backend scope generationId mutation marker)
    : (mutations.map (·.mutationId)).Nodup := by
  rw [List.Nodup, pairwise_map, pairwise_iff_getElem]
  intro left right leftBound rightBound before same
  have sequenceOf : ∀ index (bound : index < mutations.length),
      ∃ marker, RecordedMutation store backend scope generationId mutations[index] marker
        ∧ marker.sequence = baseSequence + index + 1 := by
    intro index bound
    obtain ⟨marker, records⟩ := recorded mutations[index] (getElem_mem bound)
    have entry := placed index mutations[index] (getElem?_eq_getElem bound)
    have facts := KnowledgeMutation.accepted_of_validate entry.accepted
    obtain ⟨_, isMarker, sequenceEq, _⟩ :=
      addressed.sequence _ _ _ _ facts.inRange records.sequence
    cases isMarker
    exact ⟨marker, records, sequenceEq.trans entry.sequence⟩
  obtain ⟨leftMarker, leftRecords, leftSequence⟩ := sequenceOf left leftBound
  obtain ⟨rightMarker, rightRecords, rightSequence⟩ := sequenceOf right rightBound
  have oneSlot := leftRecords.identity
  rw [same, rightRecords.identity] at oneSlot
  cases oneSlot
  omega

theorem RevisionOpened.duplicate_iff
    (opened : RevisionOpened store backend scope generationId manifestSha256 targetSequence
      mutations updatedAtMs record role generation)
    (atTarget : generation.appliedSequence = targetSequence)
    (placed : ∀ index mutation, mutations[index]? = some mutation →
      TailPlaced store scope generationId generation.manifest.targetSequence index mutation)
    : store.execute backend (.commitGenerationRevision scope generationId manifestSha256
        targetSequence mutations updatedAtMs) none = (.ok (.mutation .duplicate), backend)
      ↔ ∀ mutation ∈ mutations,
          ∃ marker, RecordedMutation store backend scope generationId mutation marker := by
  rw [execute_commit_iff]
  constructor
  · rintro ⟨_, _, _, accepted, ⟨same, _⟩ | ⟨_, _, _, impossible, _⟩⟩ mutation member
    · rcases accepted.inTail member with fresh | recorded
      · have beyond := fresh.beyond
        have bound := (accepted.placed member).2.2
        omega
      · exact recorded
    · cases impossible
  · intro recorded
    refine ⟨record, role, generation, ⟨opened, ?_⟩, .inl ⟨atTarget, rfl, rfl⟩⟩
    intro index mutation atIndex
    exact ⟨placed index mutation atIndex, .inr (recorded mutation (mem_of_getElem? atIndex))⟩

/-! Other times -/

/-- A stored value without the time of the call that wrote it. -/
def StoredValue.untimed : StoredValue → StoredValue
  | .state stored => .state { stored with updatedAtMs := 0 }
  | .checkpoint stored => .checkpoint { stored with updatedAtMs := 0 }
  | .marker stored => .marker stored

/-- Two stores hold the same values at every key, apart from the times of their calls. -/
def SameButTimes (left right : Backend) : Prop :=
  ∀ key : Bytes, left[key]?.map StoredValue.untimed = right[key]?.map StoredValue.untimed

theorem SameButTimes.of_eq {left right} (same : left = right)
    : SameButTimes left right := by
  intro key
  rw [same]

theorem checkpointFor_retimed {replicaId} (timestamp : AcceptedTimestamp later)
    (built : checkpointFor replicaId generation updatedAtMs = .ok checkpoint)
    : checkpointFor replicaId generation later
      = .ok { checkpoint with updatedAtMs := later } := by
  simp only [checkpointFor, bind_eq_ok, okOr_eq_ok, exists_unit, contractChecked_eq_ok,
    pure_eq_ok] at built ⊢
  obtain ⟨state, reportable, valid, rfl⟩ := built
  refine ⟨state, reportable, ?_, rfl⟩
  have accepted : Contracts.validateTimestamp "updated_at_ms" later = .ok () := by
    simp only [Contracts.validateTimestamp, validateSafeJsonInteger, seq_eq_ok, rejectIf_eq_ok]
    exact ⟨Nat.pos_iff_ne_zero.mp timestamp.1, Nat.not_lt.mpr timestamp.2⟩
  simp only [ReplicaCheckpoint.validate, seq_eq_ok] at valid ⊢
  obtain ⟨schema, inScope, replica, named, digest, sequence, _, evidence⟩ := valid
  exact ⟨schema, inScope, replica, named, digest, sequence, accepted, evidence⟩

theorem RevisionWrites.retimed
    (accepted : RevisionAccepted store backend scope generationId manifestSha256
      targetSequence mutations updatedAtMs record role generation)
    (writes : RevisionWrites store backend mutations targetSequence updatedAtMs record role
      generation checkpoint operations) (timestamp : AcceptedTimestamp later)
    : ∃ laterOperations,
        RevisionWrites store backend mutations targetSequence later record role generation
          { checkpoint with updatedAtMs := later } laterOperations
        ∧ SameButTimes (applyBatch backend laterOperations) (applyBatch backend operations) := by
  have starts := StartsFrom.of_required accepted.loaded
  have valid := starts.valid.generations role generation accepted.found
  refine ⟨_, ⟨writes.advances, checkpointFor_retimed timestamp writes.built, ?_, rfl⟩, ?_⟩
  · refine starts.valid.revised accepted.found ?_
      (valid.advanced accepted.state accepted.current accepted.safe) timestamp
    rfl
  · intro key
    rw [writes.operations_eq]
    apply applyBatch_related
      (fun left right => left.map StoredValue.untimed = right.map StoredValue.untimed)
    · refine .cons ⟨?_, ?_⟩ (.cons ⟨?_, rfl⟩ ?_)
      · cases role <;> rfl
      · cases role <;> rfl
      · cases role <;> rfl
      · simp only [revised_scope]
        exact forall₂_same.mpr fun _ _ => ⟨rfl, rfl⟩
    · exact fun _ => rfl

/-- A commit that succeeds would at any other time, with the same answer and store but for times. -/
theorem commit_retimed {answer after}
    (committed : store.execute backend (.commitGenerationRevision scope generationId
      manifestSha256 targetSequence mutations updatedAtMs) none = (.ok answer, after))
    (timestamp : AcceptedTimestamp later)
    : ∃ laterAfter,
        store.execute backend (.commitGenerationRevision scope generationId manifestSha256
          targetSequence mutations later) none = (.ok answer, laterAfter)
        ∧ SameButTimes laterAfter after ∧ (later = updatedAtMs → laterAfter = after) := by
  by_cases sameTime : later = updatedAtMs
  · rw [sameTime]
    exact ⟨after, committed, .of_eq rfl, fun _ => rfl⟩
  · obtain ⟨record, role, generation, accepted, decided⟩ := execute_commit_iff.mp committed
    have acceptedLater : RevisionAccepted store backend scope generationId manifestSha256
        targetSequence mutations later record role generation :=
      { accepted with timestamp }
    rcases decided with ⟨same, rfl, rfl⟩ | ⟨checkpoint, operations, writes, rfl, rfl⟩
    · refine ⟨_, execute_commit_iff.mpr
        ⟨record, role, generation, acceptedLater, .inl ⟨same, rfl, rfl⟩⟩, .of_eq rfl, ?_⟩
      exact fun _ => rfl
    · obtain ⟨laterOperations, laterWrites, untimed⟩ := writes.retimed accepted timestamp
      refine ⟨_, execute_commit_iff.mpr ⟨record, role, generation, acceptedLater,
        .inr ⟨_, _, laterWrites, rfl, rfl⟩⟩, untimed, ?_⟩
      exact fun same => absurd same sameTime

end

/-! Laws -/

/-- The calls that commit a tail on one generation of a store. -/
abbrev ServingStateStore.commit (store : ServingStateStore) (backend : Backend)
    (scope : KnowledgeScope) (generationId manifestSha256 : String) (targetSequence : Nat)
    (mutations : List KnowledgeMutation) (updatedAtMs : Nat)
    : ServingStateResult Response × Backend :=
  store.execute backend
    (.commitGenerationRevision scope generationId manifestSha256 targetSequence mutations
      updatedAtMs) none

section
variable {store : ServingStateStore} {backend middle after : Backend}
  (reached : Reachable store backend) {scope : KnowledgeScope}
  {generationId manifestSha256 : String}
include reached

/-- A tail committed in two steps could have been committed at once. -/
theorem commit_at_once {firstTarget lastTarget : Nat} {head rest} {firstTime lastTime : Nat}
    {firstAnswer lastAnswer}
    (first : store.commit backend scope generationId manifestSha256 firstTarget head
      firstTime = (.ok firstAnswer, middle))
    (last : store.commit middle scope generationId manifestSha256 lastTarget (head ++ rest)
      lastTime = (.ok lastAnswer, after))
    : ∃ answer, store.commit backend scope generationId manifestSha256 lastTarget (head ++ rest)
          lastTime = (.ok answer, after)
        ∨ (firstTarget = lastTarget
          ∧ store.commit backend scope generationId manifestSha256 lastTarget (head ++ rest)
              firstTime = (.ok answer, after)) := by
  obtain ⟨record, role, generation, accepted, decided⟩ := execute_commit_iff.mp first
  rcases decided with ⟨_, rfl, rfl⟩ | ⟨checkpoint, operations, writes, rfl, rfl⟩
  · exact ⟨lastAnswer, .inl last⟩
  · obtain ⟨_, _, _, next, decided⟩ := execute_commit_iff.mp last
    obtain ⟨rfl, rfl, rfl⟩ := writes.next_starts accepted next
    have firstLength := accepted.length
    have lastLength := next.length
    have target : firstTarget ≤ lastTarget := next.current
    simp only [length_append, GenerationServingState.advanced] at lastLength
    rcases decided with ⟨same, rfl, rfl⟩ | ⟨nextCheckpoint, nextOperations, nextWrites, rfl, rfl⟩
    · -- nothing was left to add, so the whole tail is its first part
      have sameTarget : firstTarget = lastTarget := same
      obtain rfl : rest = [] := by
        apply eq_nil_of_length_eq_zero
        omega
      rw [append_nil]
      subst sameTarget
      exact ⟨_, .inr ⟨rfl, first⟩⟩
    · have whole := writes.accepted_at_once accepted (reached.executed first).addressed next
      have beyond : ∀ mutation ∈ rest,
          firstTarget < mutation.sequence ∧ mutation.sequence < range64 := by
        intro mutation member
        obtain ⟨index, bound, rfl⟩ := getElem_of_mem member
        have atIndex : (head ++ rest)[head.length + index]? = some rest[index] := by
          rw [getElem?_append_right (by omega)]
          simp
        have entry := next.tail _ _ atIndex
        have sequence := entry.sequence
        have start := accepted.beyond
        simp only [GenerationServingState.advanced] at sequence
        exact ⟨by omega, (KnowledgeMutation.accepted_of_validate entry.accepted).inRange⟩
      obtain ⟨wholeOperations, wholeWrites, same⟩ :=
        writes.written_at_once accepted beyond target nextWrites
      exact ⟨.mutation .applied, .inl (execute_commit_iff.mpr ⟨record, _, generation, whole,
        .inr ⟨nextCheckpoint, wholeOperations, wholeWrites, rfl, same.symm⟩⟩)⟩

/-- Committing a tail again is a duplicate exactly when it repeats no mutation id. -/
theorem commit_again_iff {target : Nat} {tail} {time again : Nat} {answer}
    (committed : store.commit backend scope generationId manifestSha256 target tail time
      = (.ok answer, after)) (timestamp : AcceptedTimestamp again)
    : store.commit after scope generationId manifestSha256 target tail again
        = (.ok (.mutation .duplicate), after)
      ↔ (tail.map (·.mutationId)).Nodup := by
  have addressed := (reached.executed committed).addressed
  obtain ⟨record, role, generation, accepted, decided⟩ := execute_commit_iff.mp committed
  have placed : ∀ index mutation, tail[index]? = some mutation →
      TailPlaced store scope generationId generation.manifest.targetSequence index mutation :=
    fun index mutation atIndex => (accepted.tail index mutation atIndex).toTailPlaced
  rcases decided with ⟨same, rfl, rfl⟩ | ⟨checkpoint, operations, writes, rfl, rfl⟩
  · have opened : RevisionOpened store after scope generationId manifestSha256 target tail
        again record role generation := { accepted.toRevisionOpened with timestamp }
    rw [opened.duplicate_iff same placed]
    refine ⟨nodup_of_recorded addressed placed, fun _ mutation member => ?_⟩
    rcases accepted.inTail member with fresh | recorded
    · have beyond := fresh.beyond
      have bound := (accepted.placed member).2.2
      omega
    · exact recorded
  · have opened : RevisionOpened store (applyBatch backend operations) scope generationId
        manifestSha256 target tail again
        (record.revised role (generation.advanced target) time) role
        (generation.advanced target) := {
      accepted.toRevisionOpened with
      timestamp
      loaded := writes.loaded_after accepted
      found := revised_generation ..
      current := Nat.le_refl target }
    rw [opened.duplicate_iff rfl placed]
    exact ⟨nodup_of_recorded addressed placed,
      fun distinct _ member => writes.recorded_after accepted distinct member⟩

/-- A tail in two steps leaves what one call leaves, and a committed tail is a duplicate exactly
when it repeats no mutation id.
-/
theorem sealed_tail_laws (scope : KnowledgeScope) (generationId manifestSha256 : String)
    : (∀ firstTarget lastTarget head rest firstTime lastTime firstAnswer lastAnswer middle after,
        store.commit backend scope generationId manifestSha256 firstTarget head firstTime
          = (.ok firstAnswer, middle) →
        store.commit middle scope generationId manifestSha256 lastTarget (head ++ rest)
          lastTime = (.ok lastAnswer, after) →
        ∀ time, AcceptedTimestamp time → ∃ answer whole,
            store.commit backend scope generationId manifestSha256 lastTarget (head ++ rest)
              time = (.ok answer, whole)
            ∧ SameButTimes whole after
            ∧ (firstTarget ≠ lastTarget → time = lastTime → whole = after))
      ∧ (∀ target tail time again answer after,
          store.commit backend scope generationId manifestSha256 target tail time
            = (.ok answer, after) →
          AcceptedTimestamp again →
          (store.commit after scope generationId manifestSha256 target tail again
              = (.ok (.mutation .duplicate), after)
            ↔ (tail.map (·.mutationId)).Nodup)) := by
  constructor
  · intro firstTarget lastTarget head rest firstTime lastTime firstAnswer lastAnswer middle
      after first last time timestamp
    obtain ⟨answer, atLast | ⟨sameTarget, atFirst⟩⟩ := commit_at_once reached first last
    · obtain ⟨whole, committed, untimed, sameStore⟩ := commit_retimed atLast timestamp
      exact ⟨answer, whole, committed, untimed, fun _ sameTime => sameStore sameTime⟩
    · obtain ⟨whole, committed, untimed, _⟩ := commit_retimed atFirst timestamp
      exact ⟨answer, whole, committed, untimed, fun differ => absurd sameTarget differ⟩
  · intro target tail time again answer after committed timestamp
    exact commit_again_iff reached committed timestamp

end

/-- A ready generation that is given a tail of two mutations one by one, at once and again. -/
theorem sealed_tail_laws_sample
    : (sampleStore.commit readyBackend sampleScope "g"
        sampleSha256 2 sampleTail 5).2
      = (sampleStore.commit
          (sampleStore.commit readyBackend sampleScope "g"
            sampleSha256 1 [sampleMutation "m" 1] 4).2
          sampleScope "g" sampleSha256 2 sampleTail 5).2
      ∧ (sampleStore.commit
          (sampleStore.commit readyBackend sampleScope "g"
            sampleSha256 2 sampleTail 5).2
          sampleScope "g" sampleSha256 2 sampleTail 6).1
        = .ok (.mutation .duplicate) := by
  have accepted : ∀ time ∈ [5, 6], AcceptedTimestamp time := by
    unfold AcceptedTimestamp
    decide
  have first : (sampleStore.commit readyBackend sampleScope
      "g" sampleSha256 1 [sampleMutation "m" 1] 4).1 = .ok (.mutation .applied) := by
    decide +kernel
  have last : (sampleStore.commit
      (sampleStore.commit readyBackend sampleScope "g"
        sampleSha256 1 [sampleMutation "m" 1] 4).2
      sampleScope "g" sampleSha256 2 ([sampleMutation "m" 1] ++ [sampleMutation "n" 2]) 5).1
      = .ok (.mutation .applied) := by
    decide +kernel
  have whole : (sampleStore.commit readyBackend sampleScope
      "g" sampleSha256 2 sampleTail 5).1
      = .ok (.mutation .applied) := by
    decide +kernel
  obtain ⟨split, again⟩ := sealed_tail_laws
    (runAll_reachable sampleStore (sampleReady "g" 1)) sampleScope "g" sampleSha256
  constructor
  · obtain ⟨_, _, committed, _, same⟩ := split _ _ _ _ _ _ _ _ _ _ (Prod.ext first rfl)
      (Prod.ext last rfl) 5 (accepted 5 (by decide))
    exact (congrArg Prod.snd committed).trans (same (by decide) rfl)
  · have duplicate := (again _ _ _ 6 _ _ (Prod.ext whole rfl) (accepted 6 (by decide))).mpr
      (by decide)
    exact congrArg Prod.fst duplicate

/-- A committed tail that names one id at two sequences is not a duplicate when committed again. -/
theorem repeatedId_commit_again
    : Reachable sampleStore readyBackend
      ∧ (sampleStore.commit readyBackend sampleScope "g"
          sampleSha256 2 [sampleMutation "m" 1, sampleMutation "m" 2] 4).1
        = .ok (.mutation .applied)
      ∧ (sampleStore.commit
          (sampleStore.commit readyBackend sampleScope "g"
            sampleSha256 2 [sampleMutation "m" 1, sampleMutation "m" 2] 4).2
          sampleScope "g" sampleSha256 2 [sampleMutation "m" 1, sampleMutation "m" 2] 4).1
        = .error (.corruptState "sequence and identity markers differ for m") := by
  refine ⟨runAll_reachable sampleStore _, ?_, ?_⟩ <;> decide +kernel

end AkiDB.ServingState
