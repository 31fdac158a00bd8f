import AkiDB.ServingState.Keys
import AkiDB.ServingState.Validity

/-! One specification for each helper that the operations share. -/

namespace AkiDB.ServingState
open AkiDB.Common AkiDB.Contracts Checked Utf8Text ByteFraming AtomicBatch Unsigned

variable {store : ServingStateStore} {backend : Backend} {scope : KnowledgeScope}
  {record : ServingStateRecord} {role : Role} {generation : GenerationServingState}
  {generationId : String} {operations : List Write}

theorem loadUnlocked_eq_ok {loaded}
    : store.loadUnlocked backend scope = .ok loaded
      ↔ scope.validate = .ok ()
        ∧ ((read backend (.state scope) = none ∧ loaded = none)
          ∨ ∃ record, read backend (.state scope) = some (.state record)
              ∧ RecordValid store.environment.parseUrl store.replicaId record
              ∧ record.scope = scope ∧ loaded = some record) := by
  simp only [ServingStateStore.loadUnlocked, seq_eq_ok, contractChecked_eq_ok, read, Slot.key]
  apply and_congr_right
  intro _
  cases found : backend[stateKey scope]? with
  | none =>
    simp only [pure_eq_ok, true_and, reduceCtorEq, false_and, exists_false, or_false]
    exact eq_comm
  | some value =>
    simp only [bind_eq_ok, exists_unit, validateRecord_iff, rejectIf_eq_ok, pure_eq_ok,
      not_not, reduceCtorEq, false_and, false_or, Option.some.injEq]
    cases value with
    | state record =>
      simp only [decodeState, Except.ok.injEq, StoredValue.state.injEq]
      constructor
      · rintro ⟨_, rfl, valid, scopeEq, rfl⟩
        exact ⟨record, rfl, valid, scopeEq, rfl⟩
      · rintro ⟨_, rfl, valid, scopeEq, rfl⟩
        exact ⟨record, rfl, valid, scopeEq, rfl⟩
    | checkpoint _ => simp [decodeState]
    | marker _ => simp [decodeState]

theorem loadRequiredUnlocked_eq_ok
    : store.loadRequiredUnlocked backend scope = .ok record
      ↔ scope.validate = .ok ()
        ∧ read backend (.state scope) = some (.state record)
        ∧ RecordValid store.environment.parseUrl store.replicaId record
        ∧ record.scope = scope := by
  simp only [ServingStateStore.loadRequiredUnlocked, bind_eq_ok, okOr_eq_ok,
    exists_eq_right, loadUnlocked_eq_ok]
  constructor
  · rintro ⟨accepted, ⟨_, impossible⟩ | ⟨found, stored, valid, scopeEq, same⟩⟩
    · cases impossible
    · cases same
      exact ⟨accepted, stored, valid, scopeEq⟩
  · rintro ⟨accepted, stored, valid, scopeEq⟩
    exact ⟨accepted, .inr ⟨record, stored, valid, scopeEq, rfl⟩⟩

/-- The record a call starts from: the stored one, or the empty one of an unused scope. -/
structure StartsFrom (store : ServingStateStore) (backend : Backend) (scope : KnowledgeScope)
    (record : ServingStateRecord) : Prop where
  stored : read backend (.state scope) = some (.state record)
    ∨ (read backend (.state scope) = none
        ∧ record.active = none ∧ record.previous = none ∧ record.staged = none)
  accepted : scope.validate = .ok ()
  valid : RecordValid store.environment.parseUrl store.replicaId record
  scope : record.scope = scope

theorem StartsFrom.of_required (loaded : store.loadRequiredUnlocked backend scope = .ok record)
    : StartsFrom store backend scope record := by
  obtain ⟨accepted, stored, valid, scopeEq⟩ := loadRequiredUnlocked_eq_ok.mp loaded
  exact { stored := .inl stored, accepted, valid, scope := scopeEq }

theorem StartsFrom.stored_of_generation (starts : StartsFrom store backend scope record)
    (found : record.generation role = some generation)
    : read backend (.state scope) = some (.state record) := by
  rcases starts.stored with stored | ⟨_, active, previous, staged⟩
  · exact stored
  · cases role <;> simp_all [ServingStateRecord.generation]

theorem stagedMut_eq_ok {staged}
    : stagedMut record generationId = .ok staged
      ↔ record.staged = some staged ∧ staged.id = generationId := by
  simp only [stagedMut, bind_eq_ok, okOr_eq_ok, ensureGeneration, exists_unit, rejectIf_eq_ok,
    not_not, pure_eq_ok]
  constructor
  · rintro ⟨_, found, named, rfl⟩
    exact ⟨found, named⟩
  · rintro ⟨found, named⟩
    exact ⟨staged, found, named, rfl⟩

theorem generationByIdMut_found
    (found : generationByIdMut record generationId = .ok (role, generation))
    : record.generation role = some generation ∧ generation.id = generationId := by
  unfold generationByIdMut at found
  split at found
  · next active =>
    cases found
    simpa [ServingStateRecord.generation, Option.filter_eq_some_iff] using active
  · split at found
    · next previous =>
      cases found
      simpa [ServingStateRecord.generation, Option.filter_eq_some_iff] using previous
    · split at found
      · next staged =>
        cases found
        simpa [ServingStateRecord.generation, Option.filter_eq_some_iff] using staged
      · cases found

theorem generationByIdMut_of_generation {parse replicaId}
    (valid : RecordValid parse replicaId record)
    (found : record.generation role = some generation)
    : generationByIdMut record generation.id = .ok (role, generation) := by
  have elsewhere : ∀ other, other ≠ role →
      (record.generation other).filter (·.id == generation.id) = none := by
    intro other different
    rw [Option.filter_eq_none_iff]
    intro candidate member named
    have same : candidate.id = generation.id := by simpa using named
    exact different (valid.distinct other role candidate generation member found same)
  have here : (record.generation role).filter (·.id == generation.id) = some generation := by
    rw [found]
    simp [Option.filter]
  unfold generationByIdMut
  cases role with
  | active =>
    simp only [ServingStateRecord.generation] at here
    rw [here]
  | previous =>
    have first := elsewhere .active (by decide)
    simp only [ServingStateRecord.generation] at here first
    rw [first, here]
  | staged =>
    have first := elsewhere .active (by decide)
    have second := elsewhere .previous (by decide)
    simp only [ServingStateRecord.generation] at here first second
    rw [first, second, here]

/-- A checkpoint that reports a generation exactly as the record holds it. -/
structure Reports (replicaId : String) (generation : GenerationServingState)
    (checkpoint : ReplicaCheckpoint) : Prop where
  replica : checkpoint.replicaId = replicaId
  scope : checkpoint.scope = generation.manifest.scope
  generationId : checkpoint.generationId = generation.id
  manifestSha256 : checkpoint.manifestSha256 = generation.manifestSha256
  appliedSequence : checkpoint.appliedSequence = generation.appliedSequence
  state : replicaState generation.state = some checkpoint.state
  lastError : checkpoint.lastError = generation.lastError
  valid : checkpoint.validate = .ok ()

theorem checkpointFor_reports {replicaId : String} {updatedAtMs : Nat} {checkpoint}
    (built : checkpointFor replicaId generation updatedAtMs = .ok checkpoint)
    : Reports replicaId generation checkpoint := by
  simp only [checkpointFor, bind_eq_ok, okOr_eq_ok, exists_unit, contractChecked_eq_ok,
    pure_eq_ok] at built
  obtain ⟨state, reportable, valid, rfl⟩ := built
  exact {
    replica := rfl
    scope := rfl
    generationId := rfl
    manifestSha256 := rfl
    appliedSequence := rfl
    state := reportable
    lastError := rfl
    valid }

/-- The checkpoints written for a list of generations, in order. -/
def ReportsAll (replicaId : String) (generations : List GenerationServingState)
    (updatedAtMs : Nat) (checkpoints : List ReplicaCheckpoint) : Prop :=
  List.Forall₂ (fun generation checkpoint =>
    checkpointFor replicaId generation updatedAtMs = .ok checkpoint) generations checkpoints

/-- The writes of one change: the record, its checkpoints, and the markers of one generation. -/
def changeWrites (record : ServingStateRecord) (checkpoints : List ReplicaCheckpoint)
    (generationId : String) (markers : List MutationMarker) : List SlotWrite :=
  (.state record.scope, .state record)
    :: checkpoints.map (fun checkpoint =>
        (.checkpoint record.scope checkpoint.generationId, .checkpoint checkpoint))
    ++ markers.flatMap (fun marker =>
        [(.sequence record.scope generationId marker.sequence, .marker marker),
          (.identity record.scope generationId marker.mutationId, .marker marker)])

theorem checkpointOperations_eq_ok {checkpoints}
    : checkpointOperations scope checkpoints = .ok operations
      ↔ (∀ checkpoint ∈ checkpoints, checkpoint.validate = .ok ())
        ∧ operations = checkpoints.map (fun checkpoint =>
            .put (checkpointKey scope checkpoint.generationId) (.checkpoint checkpoint)) := by
  induction checkpoints generalizing operations with
  | nil => simp [checkpointOperations, eq_comm]
  | cons checkpoint rest ih =>
    simp only [checkpointOperations, bind_eq_ok, exists_unit, contractChecked_eq_ok, ih,
      pure_eq_ok, List.forall_mem_cons, List.map_cons]
    constructor
    · rintro ⟨valid, tail, ⟨restValid, rfl⟩, rfl⟩
      exact ⟨⟨valid, restValid⟩, rfl⟩
    · rintro ⟨⟨valid, restValid⟩, rfl⟩
      exact ⟨valid, _, ⟨restValid, rfl⟩, rfl⟩

theorem persistRecord_eq_ok {checkpoints}
    : store.persistRecord record checkpoints = .ok operations
      ↔ RecordValid store.environment.parseUrl store.replicaId record
        ∧ (∀ checkpoint ∈ checkpoints, checkpoint.validate = .ok ())
        ∧ operations = (changeWrites record checkpoints "" []).map SlotWrite.operation := by
  simp only [ServingStateStore.persistRecord, recordOperations, bind_eq_ok, exists_unit,
    validateRecord_iff, checkpointOperations_eq_ok, pure_eq_ok]
  apply and_congr_right
  intro _
  constructor
  · rintro ⟨_, ⟨valid, rfl⟩, rfl⟩
    exact ⟨valid, by simp [changeWrites, SlotWrite.operation, Slot.key]⟩
  · rintro ⟨valid, rfl⟩
    exact ⟨_, ⟨valid, rfl⟩, by simp [changeWrites, SlotWrite.operation, Slot.key]⟩

theorem changeWrites_markers (record : ServingStateRecord)
    (checkpoints : List ReplicaCheckpoint) (generationId : String)
    (markers : List MutationMarker)
    : (changeWrites record checkpoints "" []).map SlotWrite.operation
        ++ markers.flatMap (markerOperations record.scope generationId)
      = (changeWrites record checkpoints generationId markers).map SlotWrite.operation := by
  simp [changeWrites, SlotWrite.operation, Slot.key, List.map_flatMap]
  rfl

theorem readMarker_eq_ok {slot : Slot} {marker}
    : readMarker backend slot.key = .ok marker
      ↔ (read backend slot = none ∧ marker = none)
        ∨ ∃ found, read backend slot = some (.marker found)
            ∧ validateMarker found = .ok () ∧ marker = some found := by
  unfold readMarker read
  cases backend[slot.key]? with
  | none => simp [eq_comm]
  | some value =>
    simp only [bind_eq_ok, pure_eq_ok, reduceCtorEq, false_and, Option.some.injEq, false_or]
    cases value with
    | marker found =>
      simp only [decodeMarker, bind_eq_ok, exists_unit, pure_eq_ok, StoredValue.marker.injEq]
      constructor
      · rintro ⟨_, ⟨valid, rfl⟩, rfl⟩
        exact ⟨found, rfl, valid, rfl⟩
      · rintro ⟨_, rfl, valid, rfl⟩
        exact ⟨found, ⟨valid, rfl⟩, rfl⟩
    | state _ => simp [decodeMarker]
    | checkpoint _ => simp [decodeMarker]

/-- A mutation of a sealed tail is new to the store: neither of its slots is taken. -/
structure NewMutation (backend : Backend) (scope : KnowledgeScope) (generationId : String)
    (currentSequence : Nat) (mutation : KnowledgeMutation) : Prop where
  sequence : read backend (.sequence scope generationId mutation.sequence) = none
  identity : read backend (.identity scope generationId mutation.mutationId) = none
  beyond : currentSequence < mutation.sequence

/-- Both slots of a mutation hold one marker with its id and its content. -/
structure RecordedMutation (store : ServingStateStore) (backend : Backend)
    (scope : KnowledgeScope) (generationId : String) (mutation : KnowledgeMutation)
    (marker : MutationMarker) : Prop where
  sequence : read backend (.sequence scope generationId mutation.sequence)
    = some (.marker marker)
  identity : read backend (.identity scope generationId mutation.mutationId)
    = some (.marker marker)
  valid : validateMarker marker = .ok ()
  mutationId : marker.mutationId = mutation.mutationId
  mutationSha256 : marker.mutationSha256 = mutationFingerprint store.environment mutation

def newMutations (backend : Backend) (scope : KnowledgeScope) (generationId : String)
    (mutations : List KnowledgeMutation) : List KnowledgeMutation :=
  mutations.filter fun mutation =>
    (read backend (.sequence scope generationId mutation.sequence)).isNone

theorem checkRevisionMutation_eq_ok {currentSequence : Nat} {mutation}
    : store.checkRevisionMutation backend scope generationId currentSequence mutation
        = .ok operations
      ↔ (NewMutation backend scope generationId currentSequence mutation
          ∧ operations = markerOperations scope generationId (markerOf store.environment mutation))
        ∨ ((∃ marker, RecordedMutation store backend scope generationId mutation marker)
          ∧ operations = []) := by
  have sequenceSlot : mutationSequenceKey scope generationId mutation.sequence
      = (Slot.sequence scope generationId mutation.sequence).key := rfl
  have identitySlot : mutationIdentityKey scope generationId mutation.mutationId
      = (Slot.identity scope generationId mutation.mutationId).key := rfl
  simp only [ServingStateStore.checkRevisionMutation, bind_eq_ok, sequenceSlot, identitySlot,
    readMarker_eq_ok]
  constructor
  · rintro ⟨_, ⟨noSequence, rfl⟩ | ⟨sequence, atSequence, sequenceValid, rfl⟩,
      _, ⟨noIdentity, rfl⟩ | ⟨identity, atIdentity, _, rfl⟩, accepted⟩
    · simp only [bind_eq_ok, exists_unit, rejectIf_eq_ok, pure_eq_ok, not_le] at accepted
      exact .inl ⟨⟨noSequence, noIdentity, accepted.1⟩, accepted.2.symm⟩
    · cases accepted
    · cases accepted
    · simp only [bind_eq_ok, exists_unit, rejectIf_eq_ok, pure_eq_ok, not_not] at accepted
      obtain ⟨rfl, mutationId, mutationSha256, rfl⟩ := accepted
      exact .inr ⟨⟨sequence, atSequence, atIdentity, sequenceValid, mutationId,
        mutationSha256⟩, rfl⟩
  · rintro (⟨fresh, rfl⟩ | ⟨⟨marker, recorded⟩, rfl⟩)
    · refine ⟨none, .inl ⟨fresh.sequence, rfl⟩, none, .inl ⟨fresh.identity, rfl⟩, ?_⟩
      simp only [bind_eq_ok, exists_unit, rejectIf_eq_ok, pure_eq_ok, not_le]
      exact ⟨fresh.beyond, rfl⟩
    · refine ⟨some marker, .inr ⟨marker, recorded.sequence, recorded.valid, rfl⟩,
        some marker, .inr ⟨marker, recorded.identity, recorded.valid, rfl⟩, ?_⟩
      simp only [bind_eq_ok, exists_unit, rejectIf_eq_ok, pure_eq_ok, not_not]
      exact ⟨trivial, recorded.mutationId, recorded.mutationSha256, trivial⟩

/-- A mutation of a sealed tail at its place: valid, of this generation and next in line. -/
structure TailPlaced (store : ServingStateStore) (scope : KnowledgeScope)
    (generationId : String) (baseSequence offset : Nat) (mutation : KnowledgeMutation)
    : Prop where
  accepted : mutation.validate store.environment.parseUrl = .ok ()
  sameScope : mutation.scope = scope
  sameGeneration : mutation.generationId = generationId
  sequence : mutation.sequence = baseSequence + offset + 1

structure TailEntry (store : ServingStateStore) (backend : Backend) (scope : KnowledgeScope)
    (generationId : String) (baseSequence currentSequence offset : Nat)
    (mutation : KnowledgeMutation) : Prop
    extends TailPlaced store scope generationId baseSequence offset mutation where
  known : NewMutation backend scope generationId currentSequence mutation
    ∨ ∃ marker, RecordedMutation store backend scope generationId mutation marker

theorem checkRevisionTail_eq_ok {baseSequence currentSequence : Nat} {offset : Nat} {mutations}
    : store.checkRevisionTail backend scope generationId baseSequence currentSequence offset
        mutations = .ok operations
      ↔ (∀ index mutation, mutations[index]? = some mutation →
          TailEntry store backend scope generationId baseSequence currentSequence
            (offset + index) mutation)
        ∧ operations = ((newMutations backend scope generationId mutations).map
            (markerOf store.environment)).flatMap (markerOperations scope generationId) := by
  induction mutations generalizing offset operations with
  | nil => simp [ServingStateStore.checkRevisionTail, newMutations, eq_comm]
  | cons mutation rest ih =>
    simp only [ServingStateStore.checkRevisionTail, bind_eq_ok, exists_unit,
      contractChecked_eq_ok, rejectIf_eq_ok, okOr_eq_ok, Option.bind_eq_some_iff,
      checkedAdd64_eq_some, not_not, not_or, ih, pure_eq_ok, checkRevisionMutation_eq_ok]
    have shift : ∀ index, offset + 1 + index = offset + (index + 1) := by omega
    constructor
    · rintro ⟨accepted, ⟨scopeEq, generationEq⟩, _, ⟨_, ⟨_, rfl⟩, _, rfl⟩, sequenceEq,
        own, known, _, ⟨later, rfl⟩, rfl⟩
      refine ⟨?_, ?_⟩
      · intro index found
        cases index with
        | zero =>
          intro same
          cases same
          refine ⟨⟨accepted, scopeEq, generationEq, sequenceEq⟩, ?_⟩
          rcases known with ⟨fresh, _⟩ | ⟨recorded, _⟩
          · exact .inl fresh
          · exact .inr recorded
        | succ index =>
          intro same
          rw [← shift]
          exact later index found same
      · rcases known with ⟨fresh, rfl⟩ | ⟨⟨marker, recorded⟩, rfl⟩
        · simp [newMutations, fresh.sequence]
        · simp [newMutations, recorded.sequence]
    · rintro ⟨entries, rfl⟩
      have entry := entries 0 mutation rfl
      have inRange := (KnowledgeMutation.accepted_of_validate entry.accepted).inRange
      rw [entry.sequence] at inRange
      refine ⟨entry.accepted, ⟨entry.sameScope, entry.sameGeneration⟩, _,
        ⟨_, ⟨by omega, rfl⟩, inRange, rfl⟩, entry.sequence, ?_⟩
      have later : ∀ index next, rest[index]? = some next →
          TailEntry store backend scope generationId baseSequence currentSequence
            (offset + 1 + index) next := by
        intro index next found
        rw [shift]
        exact entries (index + 1) next found
      rcases entry.known with fresh | ⟨marker, recorded⟩
      · refine ⟨_, .inl ⟨fresh, rfl⟩, _, ⟨later, rfl⟩, ?_⟩
        simp [newMutations, fresh.sequence]
      · refine ⟨_, .inr ⟨⟨marker, recorded⟩, rfl⟩, _, ⟨later, rfl⟩, ?_⟩
        simp [newMutations, recorded.sequence]

end AkiDB.ServingState
