import AkiDB.ServingState.Generations
import Mathlib.Data.List.Nodup

/-!
When sequence and identity markers name each other, and when a marker stands for an applied
mutation.
-/

namespace AkiDB.ServingState
open AkiDB.Common AkiDB.Contracts Checked AtomicBatch Unsigned List ServingStateStore

/-- Each marker names a slot of the other family that holds the identical marker. -/
structure MarkersPaired (backend : Backend) : Prop where
  sequence : ∀ scope generationId sequence value, sequence < range64 →
    read backend (.sequence scope generationId sequence) = some value →
    ∃ marker, value = .marker marker ∧ marker.sequence = sequence
      ∧ read backend (.identity scope generationId marker.mutationId) = some (.marker marker)
  identity : ∀ scope generationId mutationId value,
    read backend (.identity scope generationId mutationId) = some value →
    ∃ marker, value = .marker marker ∧ marker.mutationId = mutationId
      ∧ marker.sequence < range64
      ∧ read backend (.sequence scope generationId marker.sequence) = some (.marker marker)

/-- A sealed tail that names no mutation id twice; other operations carry at most one id. -/
def Operation.DistinctIds : Operation → Prop
  | .commitGenerationRevision _ _ _ _ mutations _ => (mutations.map (·.mutationId)).Nodup
  | _ => True

instance (operation : Operation) : Decidable operation.DistinctIds := by
  cases operation <;> unfold Operation.DistinctIds <;> infer_instance

variable {store : ServingStateStore} {backend : Backend} {operation : Operation} {change : Change}

theorem Transition.markers_distinct (transition : Transition store backend operation change)
    (distinct : operation.DistinctIds)
    : ∀ left ∈ change.markers, ∀ right ∈ change.markers,
        left.mutationId = right.mutationId → left = right := by
  cases transition with
  | apply =>
    intro left leftMember right rightMember _
    rw [mem_singleton.mp leftMember, mem_singleton.mp rightMember]
  | @revise scope generationId _ _ mutations =>
    have sublist : (newMutations backend scope generationId mutations).Sublist mutations :=
      filter_sublist
    have nodup : ((newMutations backend scope generationId mutations).map
        (·.mutationId)).Nodup := (sublist.map _).nodup distinct
    intro left leftMember right rightMember same
    obtain ⟨leftMutation, leftNew, rfl⟩ := mem_map.mp leftMember
    obtain ⟨rightMutation, rightNew, rfl⟩ := mem_map.mp rightMember
    rw [inj_on_of_nodup_map nodup leftNew rightNew same]
  | _ =>
    intro left leftMember
    cases leftMember

variable {checkpoints : List ReplicaCheckpoint} {operations : List Write}

/-- Committing a change with distinct ids keeps the markers paired: only free slots are written. -/
theorem MarkersPaired.step (paired : MarkersPaired backend) (distinct : operation.DistinctIds)
    (commits : Commits store backend operation change checkpoints operations)
    : MarkersPaired (applyBatch backend operations) := by
  have distinctMarkers := commits.transition.markers_distinct distinct
  constructor
  · intro scope generationId sequence value inRange found
    rcases commits.read_sequence_cases inRange found with
      ⟨marker, recorded, rfl, rfl, rfl, rfl⟩ | before
    · exact ⟨marker, rfl, rfl, commits.read_identity_recorded distinctMarkers recorded⟩
    · obtain ⟨marker, rfl, sequenceEq, atIdentity⟩ :=
        paired.sequence scope generationId sequence value inRange before
      exact ⟨marker, rfl, sequenceEq, commits.read_identity_kept atIdentity⟩
  · intro scope generationId mutationId value found
    rcases commits.read_identity_cases found with
      ⟨marker, recorded, rfl, rfl, rfl, rfl⟩ | before
    · obtain ⟨mutation, records⟩ := commits.transition.records recorded
      refine ⟨marker, rfl, rfl, ?_, commits.read_sequence_recorded recorded⟩
      rw [records.marker_eq]
      exact records.accepted.inRange
    · obtain ⟨marker, rfl, idEq, inRange, atSequence⟩ :=
        paired.identity scope generationId mutationId value before
      exact ⟨marker, rfl, idEq, inRange, commits.read_sequence_kept inRange atSequence⟩

/-- Every run keeps markers in pairs. -/
theorem markersPaired_invariant {allowed : Backend → Operation → Prop}
    (distinct : ∀ backend operation, allowed backend operation → operation.DistinctIds)
    (reached : ReachableWhere store allowed backend)
    : MarkersPaired backend := by
  refine ReachableWhere.invariant ?_ ?_ reached
  · constructor <;> simp
  · intro backend operation change checkpoints operations _ paired permitted _ commits
    exact paired.step (distinct backend operation permitted) commits

/-- Along every run whose sealed tails repeat no mutation id, the two marker families are in
bijection.
Witness: every committed change keeps them paired.
-/
theorem reachable_markersPaired {store : ServingStateStore} {backend : Backend}
    (reached : ReachableWhere store (fun _ operation => operation.DistinctIds) backend)
    : MarkersPaired backend :=
  markersPaired_invariant (fun _ _ distinct => distinct) reached

def sampleSha256 : String :=
  "0123456789abcdef0123456789abcdef0123456789abcdef0123456789abcdef"

def sampleScope : KnowledgeScope :=
  { workspaceId := "w", collection := "c" }

def sampleManifest (generationId : String) : KnowledgeGenerationManifest := {
  schemaVersion := 1
  workspaceId := "w"
  collection := "c"
  generationId
  parentGenerationId := none
  createdAtMs := 1
  embeddingModelId := "e"
  embeddingDimensions := 1
  graphSchemaVersion := "v"
  bundleFormat := .ndjsonV1
  bundleCompression := .none
  bundle := { uri := "s3://b/o", sha256 := sampleSha256, sizeBytes := 1 }
  baseSequence := 0
  targetSequence := 0
  expectedVectorCount := 0
  expectedEdgeCount := 0 }

def sampleMutation (mutationId : String) (sequence : Nat) : KnowledgeMutation := {
  schemaVersion := 1
  mutationId
  workspaceId := "w"
  collection := "c"
  generationId := "g"
  sequence
  operation := .delete
  chunkId := "k"
  payload := none
  createdAtMs := 1 }

/-- SHA-256 of the JSON encodings of the sample mutations. -/
def sampleDigest (mutation : KnowledgeMutation) : List UInt8 :=
  if mutation = sampleMutation "m" 1 then
    [227, 14, 31, 38, 122, 0, 110, 159, 233, 83, 236, 191, 127, 47, 245, 174, 22, 56, 252, 206,
      205, 65, 201, 205, 158, 22, 10, 48, 150, 62, 123, 66]
  else if mutation = sampleMutation "m" 2 then
    [184, 188, 209, 92, 165, 66, 213, 111, 192, 115, 199, 55, 215, 80, 64, 133, 7, 86, 180,
      176, 187, 243, 59, 217, 5, 249, 179, 79, 17, 252, 20, 99]
  else if mutation = sampleMutation "n" 1 then
    [22, 85, 225, 10, 76, 74, 235, 108, 76, 116, 92, 204, 160, 161, 120, 189, 126, 83, 123,
      134, 135, 232, 18, 169, 201, 184, 124, 57, 156, 213, 123, 128]
  else if mutation = sampleMutation "n" 2 then
    [68, 51, 6, 34, 13, 23, 72, 190, 223, 47, 248, 99, 151, 117, 69, 196, 198, 45, 52, 211,
      111, 212, 97, 139, 254, 151, 208, 244, 243, 155, 101, 103]
  else
    List.replicate 32 0

def sampleStore : ServingStateStore := {
  environment := {
    parseUrl := fun uri =>
      if uri = "s3://b/o" then
        some {
          scheme := "s3", hostStr := some "b", path := "/o", username := "",
          password := none, fragment := none }
      else
        none
    mutationDigest := sampleDigest
    mutationDigest_length := by
      intro mutation
      unfold sampleDigest
      split_ifs <;> rfl }
  replicaId := "r"
  replicaId_accepted := by decide }

abbrev sampleTail : List KnowledgeMutation :=
  [sampleMutation "m" 1, sampleMutation "n" 2]

def sampleReady (generationId : String) (start : Nat) : List Operation :=
  [.stageGeneration (sampleManifest generationId) sampleSha256 start,
    .markBundleLoaded sampleScope generationId (start + 1),
    .markReady sampleScope generationId (start + 2)]

abbrev readyBackend : Backend :=
  (runAll sampleStore ∅ (sampleReady "g" 1)).2

/-- Commit a sealed tail on the sample generation, whose base is sequence zero. -/
def sampleCommit (mutations : List KnowledgeMutation) (updatedAtMs : Nat) : Operation :=
  .commitGenerationRevision sampleScope "g" sampleSha256 mutations.length mutations updatedAtMs

def sampleRevision (mutations : List KnowledgeMutation) : List Operation :=
  sampleReady "g" 1 ++ [sampleCommit mutations 4]

abbrev revisedBackend (mutations : List KnowledgeMutation) : Backend :=
  (runAll sampleStore ∅ (sampleRevision mutations)).2

/-- A sealed tail with two ids leaves four markers that name each other. -/
theorem reachable_markersPaired_sample
    : MarkersPaired (revisedBackend sampleTail)
      ∧ (runAll sampleStore ∅ (sampleRevision sampleTail)).1
        = [.ok (.staging .staged), .ok .done, .ok .done, .ok (.mutation .applied)] := by
  refine ⟨reachable_markersPaired (runAll_reachableWhere .refl ?_), by decide +kernel⟩
  exact ⟨trivial, trivial, trivial, by decide, trivial⟩

/-- A sealed tail with one id at two sequences is accepted and leaves its first marker unpaired. -/
theorem repeatedId_unpaired
    : Reachable sampleStore (revisedBackend [sampleMutation "m" 1, sampleMutation "m" 2])
      ∧ ¬MarkersPaired (revisedBackend [sampleMutation "m" 1, sampleMutation "m" 2]) := by
  refine ⟨runAll_reachable sampleStore _, ?_⟩
  intro paired
  have first : read (revisedBackend [sampleMutation "m" 1, sampleMutation "m" 2])
      (.sequence sampleScope "g" 1)
      = some (.marker (markerOf sampleStore.environment (sampleMutation "m" 1))) := by
    decide +kernel
  have named : read (revisedBackend [sampleMutation "m" 1, sampleMutation "m" 2])
      (.identity sampleScope "g" "m")
      = some (.marker (markerOf sampleStore.environment (sampleMutation "m" 2))) := by
    decide +kernel
  obtain ⟨marker, same, _, atIdentity⟩ := paired.sequence _ _ _ _ (by decide) first
  cases same
  have collision := named.symm.trans atIdentity
  revert collision
  decide +kernel

def MarkersApplied (backend : Backend) : Prop :=
  ∀ scope generationId sequence value, sequence < range64 →
    read backend (.sequence scope generationId sequence) = some value →
    ∃ generation, Retained backend scope generation ∧ generation.id = generationId
      ∧ sequence ≤ generation.appliedSequence

/-- The call drops a generation from its record while markers of that generation are stored. -/
def RetiresMarked (store : ServingStateStore) (backend : Backend) (operation : Operation)
    : Prop :=
  ∃ scope generationId sequence, sequence < range64
    ∧ RetainedId backend scope generationId
    ∧ ¬RetainedId (store.execute backend operation none).2 scope generationId
    ∧ read backend (.sequence scope generationId sequence) ≠ none

theorem RetiresMarked.activates (retires : RetiresMarked store backend operation)
    : ∃ scope generationId updatedAtMs, operation = .activate scope generationId updatedAtMs := by
  obtain ⟨scope, generationId, _, _, ⟨earlier, retained, named⟩, dropped, _⟩ := retires
  rcases execute_cases store backend operation none with
    same | ⟨_, _, _, _, _, executed, _, commits⟩
  · rw [same] at dropped
    exact absurd ⟨earlier, retained, named⟩ dropped
  · rw [executed] at dropped
    by_cases same : scope = operation.scope
    · subst same
      obtain ⟨role, inBefore⟩ := commits.before_of_retained retained
      rcases commits.transition.keeps inBefore with ⟨role', later, inAfter, continues⟩ | ⟨_, found⟩
      · have still := commits.retained_iff.mpr ⟨role', inAfter⟩
        exact absurd ⟨later, still, continues.id_eq.trans named⟩ dropped
      · exact found
    · exact absurd ⟨earlier, (commits.retained_other same).mpr retained, named⟩ dropped

/-- A commit marks only what it applies. -/
theorem MarkersApplied.step (applied : MarkersApplied backend)
    (keeps : ¬RetiresMarked store backend operation)
    (executed : (store.execute backend operation none).2 = applyBatch backend operations)
    (commits : Commits store backend operation change checkpoints operations)
    : MarkersApplied (applyBatch backend operations) := by
  intro scope generationId sequence value inRange found
  rcases commits.read_sequence_cases inRange found with
    ⟨marker, recorded, rfl, rfl, rfl, rfl⟩ | before
  · obtain ⟨role, generation, retained, named, reached⟩ :=
      commits.transition.records_applied recorded
    exact ⟨generation, commits.retained_iff.mpr ⟨role, retained⟩, named, reached⟩
  · obtain ⟨earlier, retained, named, reached⟩ :=
      applied scope generationId sequence value inRange before
    by_cases same : scope = operation.scope
    · subst same
      -- otherwise the call would have dropped a generation with a stored marker
      have still : RetainedId (applyBatch backend operations) operation.scope generationId := by
        by_contra dropped
        apply keeps
        refine ⟨operation.scope, generationId, sequence, inRange, ⟨earlier, retained, named⟩,
          ?_, by simp [before]⟩
        rw [executed]
        exact dropped
      obtain ⟨later, laterRetained, laterNamed⟩ := still
      obtain ⟨laterRole, inAfter⟩ := commits.retained_iff.mp laterRetained
      obtain ⟨earlierRole, inBefore⟩ := commits.before_of_retained retained
      refine ⟨later, laterRetained, laterNamed, ?_⟩
      rcases commits.transition.origin inAfter with
        ⟨originRole, origin, continued⟩ | ⟨_, _, _, _, rfl, absent⟩
      · have roles := commits.starts.valid.distinct originRole earlierRole origin earlier
          continued.found inBefore
          (by rw [← continued.continues.id_eq, laterNamed, named])
        subst roles
        have generations : origin = earlier :=
          Option.some.inj (continued.found.symm.trans inBefore)
        subst generations
        exact Nat.le_trans reached continued.continues.appliedSequence
      · exact absurd (named.trans laterNamed.symm) (absent earlierRole earlier inBefore)
    · exact ⟨earlier, (commits.retained_other same).mpr retained, named, reached⟩

/-- A duplicate acknowledgement finds a marker under the mutation's sequence. -/
theorem applyMutation_duplicate {mutation} {updatedAtMs : Nat} {fault}
    (acknowledged : (store.execute backend (.applyMutation mutation updatedAtMs) fault).1
      = .ok (.mutation .duplicate))
    : mutation.validate store.environment.parseUrl = .ok ()
      ∧ ∃ value, read backend
          (.sequence mutation.scope mutation.generationId mutation.sequence) = some value := by
  have planned : ∃ batch, store.applyMutation backend mutation updatedAtMs
      = .ok { batch, answer := .duplicate } := by
    unfold execute plan at acknowledged
    cases called : store.applyMutation backend mutation updatedAtMs with
    | error error => simp [called, Except.map] at acknowledged
    | ok decision =>
      obtain ⟨batch, answer⟩ := decision
      cases batch <;> cases fault <;>
        simp_all [Except.map, Decision.map]
  obtain ⟨batch, planned⟩ := planned
  have accepted := planned
  simp only [applyMutation, bind_eq_ok, exists_unit, contractChecked_eq_ok] at accepted
  refine ⟨accepted.1, ?_⟩
  cases found : read backend (.sequence mutation.scope mutation.generationId mutation.sequence) with
  | some value => exact ⟨value, rfl⟩
  | none =>
    -- a free sequence is recorded, reported as a conflict, or refused
    obtain ⟨_, _, decided⟩ := accepted
    rw [show backend[mutationSequenceKey mutation.scope mutation.generationId
      mutation.sequence]? = none from found] at decided
    cases batch with
    | some operations =>
      cases (applyMutation_write planned).1
    | none =>
      simp only at decided
      split at decided
      · simp only [reusedIdentity, bind_eq_ok, reduceCtorEq, and_false, exists_false] at decided
      · simp only [recordNext, bind_eq_ok, pure_eq_ok, Decision.write,
          Decision.mk.injEq, reduceCtorEq, and_false, exists_false] at decided

/-- A duplicate acknowledgement means that a retained generation has applied the mutation, unless a
marked one was retired.
Witness: each sequence marker is applied.
-/
theorem duplicate_retained_applied {store : ServingStateStore} {backend : Backend}
    (reached : ReachableWhere store
      (fun backend operation => ¬RetiresMarked store backend operation) backend)
    {mutation : KnowledgeMutation} {updatedAtMs : Nat} {fault : Option AkiDbError}
    (acknowledged : (store.execute backend (.applyMutation mutation updatedAtMs) fault).1
      = .ok (.mutation .duplicate))
    : ∃ record role generation, store.load backend mutation.scope = .ok (some record)
        ∧ record.generation role = some generation
        ∧ generation.id = mutation.generationId
        ∧ mutation.sequence ≤ generation.appliedSequence := by
  have applied : MarkersApplied backend := by
    refine ReachableWhere.invariant ?_ ?_ reached
    · intro scope generationId sequence value _ found
      simp at found
    · intro backend operation change checkpoints operations _ applied keeps executed commits
      exact applied.step keeps executed commits
  obtain ⟨accepted, value, found⟩ := applyMutation_duplicate acknowledged
  have facts := KnowledgeMutation.accepted_of_validate accepted
  obtain ⟨generation, ⟨record, role, stored, retained⟩, named, bound⟩ :=
    applied _ _ _ _ facts.inRange found
  obtain ⟨_, same, scopeEq, valid⟩ := reached.reachable.addressed.state _ _ stored
  cases same
  exact ⟨record, role, generation,
    loadUnlocked_eq_ok.mpr ⟨facts.scope, .inr ⟨record, stored, valid, scopeEq, rfl⟩⟩,
    retained, named, bound⟩

/-- Redelivering a mutation of a revised generation that is still retained. -/
theorem duplicate_retained_applied_sample
    : ∃ record role generation, sampleStore.load (revisedBackend sampleTail)
          (sampleMutation "m" 1).scope = .ok (some record)
        ∧ record.generation role = some generation
        ∧ generation.id = (sampleMutation "m" 1).generationId
        ∧ (sampleMutation "m" 1).sequence ≤ generation.appliedSequence := by
  have keeps : ∀ backend operation, (∀ scope generationId updatedAtMs,
        operation ≠ .activate scope generationId updatedAtMs) →
      ¬RetiresMarked sampleStore backend operation := by
    intro backend operation other retires
    obtain ⟨scope, generationId, updatedAtMs, same⟩ := retires.activates
    exact other scope generationId updatedAtMs same
  have allowed : AllowedAlong sampleStore
      (fun backend operation => ¬RetiresMarked sampleStore backend operation) ∅
      (sampleRevision sampleTail) :=
    ⟨keeps _ _ nofun, keeps _ _ nofun, keeps _ _ nofun, keeps _ _ nofun, trivial⟩
  have acknowledged : (sampleStore.execute (revisedBackend sampleTail)
      (.applyMutation (sampleMutation "m" 1) 5) none).1 = .ok (.mutation .duplicate) := by
    decide +kernel
  exact duplicate_retained_applied (runAll_reachableWhere .refl allowed) acknowledged

/-- A revised generation is activated, displaced by two later ones, and staged again. -/
def restagedRun : List Operation :=
  sampleRevision sampleTail
    ++ [.activate sampleScope "g" 5]
    ++ sampleReady "h" 6 ++ [.activate sampleScope "h" 9]
    ++ sampleReady "i" 10 ++ [.activate sampleScope "i" 13]
    ++ [.stageGeneration (sampleManifest "g") sampleSha256 14]

/-- The restaged generation has applied nothing, and its old mutation is still a duplicate. -/
theorem restaged_duplicate_unapplied
    : Reachable sampleStore (runAll sampleStore ∅ restagedRun).2
      ∧ (sampleStore.execute (runAll sampleStore ∅ restagedRun).2
          (.applyMutation (sampleMutation "m" 1) 15) none).1 = .ok (.mutation .duplicate)
      ∧ ¬∃ record role generation,
          sampleStore.load (runAll sampleStore ∅ restagedRun).2 sampleScope = .ok (some record)
          ∧ record.generation role = some generation
          ∧ generation.id = "g" ∧ 1 ≤ generation.appliedSequence := by
  refine ⟨runAll_reachable sampleStore _, by decide +kernel, ?_⟩
  rintro ⟨record, role, generation, loaded, found, named, applied⟩
  have unapplied : (sampleStore.load (runAll sampleStore ∅ restagedRun).2 sampleScope).map
      (fun loaded => loaded.map fun record =>
        [Role.active, .previous, .staged].map fun role =>
          (record.generation role).map fun generation =>
            (generation.id, generation.appliedSequence))
      = .ok (some [some ("i", 0), some ("h", 0), some ("g", 0)]) := by
    decide +kernel
  rw [loaded] at unapplied
  simp only [Except.map, Option.map_some, map_cons, map_nil, Except.ok.injEq,
    Option.some.injEq, List.cons.injEq, and_true] at unapplied
  obtain ⟨atActive, atPrevious, atStaged⟩ := unapplied
  cases role <;> simp_all

end AkiDB.ServingState
