import AkiDB.Library.KeyedMaps
import AkiDB.Vectors.Index

/-!
What an index serves: external and internal ids correspond, and every id in use was allocated.
-/

namespace AkiDB.Vectors
open AkiDB.Common AtomicBatch KeyedMaps List Option

namespace HnswIndex

/-- A search can find the vector under the id. -/
def Serves (index : HnswIndex) (id : String) (vector : List Score) : Prop :=
  ∃ internalId, index.reverseMapping[internalId]? = some id
    ∧ internalId ∉ index.tombstones ∧ index.contents[internalId]? = some vector

/-- Every vector of the library is mapped. -/
def Mapped (index : HnswIndex) : Prop :=
  ∀ (internalId : Nat) (vector : List Score), index.contents[internalId]? = some vector →
    ∃ id, index.reverseMapping[internalId]? = some id

structure WellFormed (index : HnswIndex) : Prop where
  mapped_iff : ∀ (id : String) (internalId : Nat),
    index.idMapping[id]? = some internalId ↔ index.reverseMapping[internalId]? = some id
  held : index.Mapped
  mapped_lt : ∀ (internalId : Nat) (id : String), index.reverseMapping[internalId]? = some id
    → internalId < index.nextId
  tombstone_lt : ∀ internalId ∈ index.tombstones, internalId < index.nextId

theorem wellFormed_empty : empty.WellFormed where
  mapped_iff := by simp [empty]
  held := by simp [Mapped, empty]
  mapped_lt := by simp [empty]
  tombstone_lt := by simp [empty]

theorem serves_iff {index : HnswIndex} (wellFormed : index.WellFormed) {id : String}
    {vector : List Score}
    : index.Serves id vector ↔ ∃ internalId, index.idMapping[id]? = some internalId
      ∧ internalId ∉ index.tombstones ∧ index.contents[internalId]? = some vector := by
  simp only [Serves, wellFormed.mapped_iff]

/-! Inserting -/

def added (index : HnswIndex) (config : HnswConfig) (id : String) (vector : List Score)
    : HnswIndex :=
  { ({ index with nextId := index.nextId + 1 } : HnswIndex).store config id index.nextId vector
    with idMapping := index.idMapping.insert id index.nextId }

/-- What an insertion answers and leaves behind. -/
inductive Insertion (config : HnswConfig) (faults : UsearchFaults) (index : HnswIndex)
    (id : String) (vector : List Score) (answer : Except AkiDbError Nat) (next : HnswIndex)
    : Prop where
  | rejected (error : AkiDbError) (answered : answer = .error error) (kept : next = index)
  | upsertFailed (error : AkiDbError) (internalId : Nat)
      (known : index.idMapping[id]? = some internalId) (answered : answer = .error error)
      (left : next = index.prepareUpsert faults internalId)
  | upserted (internalId : Nat) (known : index.idMapping[id]? = some internalId)
      (answered : answer = .ok internalId)
      (left : next = (index.prepareUpsert faults internalId).store config id internalId vector)
  | addFailed (error : AkiDbError) (unknown : index.idMapping[id]? = none)
      (answered : answer = .error error) (left : next = { index with nextId := index.nextId + 1 })
  | added (unknown : index.idMapping[id]? = none) (answered : answer = .ok index.nextId)
      (left : next = index.added config id vector)

theorem insertion (config : HnswConfig) (faults : UsearchFaults) (index : HnswIndex)
    (id : String) (vector : List Score)
    : Insertion config faults index id vector (index.insert config faults id vector).1
        (index.insert config faults id vector).2 := by
  unfold insert
  split
  · exact .rejected _ rfl rfl
  · cases validateFiniteVectorValues vector "Insert" with
    | error error => exact .rejected error rfl rfl
    | ok =>
      cases known : index.idMapping[id]? with
      | some internalId =>
        cases faults.addFails with
        | some error => exact .upsertFailed _ internalId known rfl rfl
        | none => exact .upserted internalId known rfl rfl
      | none =>
        unfold allocateInternalId
        by_cases space : index.nextId + 1 < 2 ^ 63
        · rw [if_pos space]
          cases faults.addFails with
          | some error => exact .addFailed _ known rfl rfl
          | none => exact .added known rfl rfl
        · rw [if_neg space]
          exact .rejected _ rfl rfl

section Lookups

variable (index : HnswIndex) (config : HnswConfig) (id : String) (internalId : Nat)
  (vector : List Score)

@[simp]
theorem rememberExact_eq
    : let after := index.rememberExact config internalId vector
      after.contents = index.contents ∧ after.idMapping = index.idMapping
        ∧ after.reverseMapping = index.reverseMapping
        ∧ after.tombstones = index.tombstones ∧ after.nextId = index.nextId := by
  unfold rememberExact
  split <;> simp

@[simp]
theorem store_contents : (index.store config id internalId vector).contents
    = index.contents.insert internalId (config.quantize vector) := rfl

@[simp]
theorem store_reverseMapping : (index.store config id internalId vector).reverseMapping
    = index.reverseMapping.insert internalId id := rfl

@[simp]
theorem store_idMapping : (index.store config id internalId vector).idMapping
    = index.idMapping := by
  simp [store]

@[simp]
theorem store_tombstones : (index.store config id internalId vector).tombstones
    = index.tombstones := by
  simp [store]

@[simp]
theorem store_nextId : (index.store config id internalId vector).nextId
    = index.nextId := by
  simp [store]

theorem added_contents : (index.added config id vector).contents
    = index.contents.insert index.nextId (config.quantize vector) := rfl

theorem added_reverseMapping : (index.added config id vector).reverseMapping
    = index.reverseMapping.insert index.nextId id := rfl

theorem added_idMapping : (index.added config id vector).idMapping
    = index.idMapping.insert id index.nextId := rfl

theorem added_tombstones : (index.added config id vector).tombstones
    = index.tombstones := by
  simp [added]

theorem added_nextId : (index.added config id vector).nextId = index.nextId + 1 := by
  simp [added]

end Lookups

/-! The invariant over the operations -/

theorem lookup_prepareUpsert (index : HnswIndex) (faults : UsearchFaults) (existingId held : Nat)
    : (index.prepareUpsert faults existingId).contents[held]?
      = if faults.removeFails = false ∧ existingId = held then none
        else index.contents[held]? := by
  unfold prepareUpsert
  cases faults.removeFails with
  | true => simp
  | false => simp [lookup_erase]

namespace Mapped

variable {index : HnswIndex}

theorem prepareUpsert (mapped : index.Mapped) (faults : UsearchFaults) (internalId : Nat)
    : (index.prepareUpsert faults internalId).Mapped := by
  intro held vector found
  rw [lookup_prepareUpsert] at found
  split at found
  · cases found
  · exact mapped held vector found

theorem store (mapped : index.Mapped) (config : HnswConfig) (id : String) (internalId : Nat)
    (vector : List Score) : (index.store config id internalId vector).Mapped := by
  intro held content found
  rw [store_contents, lookup_insert] at found
  rw [store_reverseMapping, lookup_insert]
  split
  · exact ⟨id, rfl⟩
  · next different => exact mapped held content (by rwa [if_neg different] at found)

theorem triggerRebuild (mapped : index.Mapped) (removeFails : Nat → Bool)
    : (index.triggerRebuild removeFails).Mapped := by
  intro held vector found
  simp only [HnswIndex.triggerRebuild, lookup_filter, filter_eq_some_iff] at found ⊢
  obtain ⟨id, reverse⟩ := mapped held vector found.1
  exact ⟨id, reverse, found.2⟩

end Mapped

namespace WellFormed

variable {index : HnswIndex} (wellFormed : index.WellFormed)
include wellFormed

theorem prepareUpsert (faults : UsearchFaults)
    (internalId : Nat) : (index.prepareUpsert faults internalId).WellFormed where
  mapped_iff := wellFormed.mapped_iff
  held := wellFormed.held.prepareUpsert faults internalId
  mapped_lt := wellFormed.mapped_lt
  tombstone_lt := fun held member =>
    wellFormed.tombstone_lt held (Finset.mem_of_mem_erase member)

theorem store (config : HnswConfig) {id} {internalId : Nat}
    (known : index.idMapping[id]? = some internalId) (vector : List Score)
    : (index.store config id internalId vector).WellFormed := by
  have same := (wellFormed.mapped_iff id internalId).mp known
  constructor
  · intro other held
    rw [store_idMapping, store_reverseMapping, lookup_insert, wellFormed.mapped_iff]
    split
    · next equal => rw [← equal, same]
    · rfl
  · exact wellFormed.held.store config id internalId vector
  · intro held other found
    rw [store_reverseMapping, lookup_insert] at found
    rw [store_nextId]
    split at found
    · next equal => exact equal ▸ wellFormed.mapped_lt internalId id same
    · exact wellFormed.mapped_lt held other found
  · simpa using wellFormed.tombstone_lt

theorem allocate : ({ index with nextId := index.nextId + 1 } : HnswIndex).WellFormed where
  mapped_iff := wellFormed.mapped_iff
  held := wellFormed.held
  mapped_lt := fun held id found => Nat.lt_succ_of_lt (wellFormed.mapped_lt held id found)
  tombstone_lt := fun held member => Nat.lt_succ_of_lt (wellFormed.tombstone_lt held member)

theorem reverse_nextId : index.reverseMapping[index.nextId]? = none := by
  cases found : index.reverseMapping[index.nextId]? with
  | none => rfl
  | some id => exact absurd (wellFormed.mapped_lt _ id found) (Nat.lt_irrefl _)

theorem added (config : HnswConfig) {id} (unknown : index.idMapping[id]? = none)
    (vector : List Score)
    : (index.added config id vector).WellFormed := by
  have fresh := wellFormed.reverse_nextId
  constructor
  · intro other held
    rw [added_idMapping, added_reverseMapping, lookup_insert, lookup_insert]
    have mapped := wellFormed.mapped_iff other held
    by_cases own : id = other
    · rw [if_pos own, some.injEq]
      by_cases new : index.nextId = held
      · simp [new, own]
      · rw [if_neg new, ← mapped, ← own, unknown]
        simp [new]
    · rw [if_neg own, mapped]
      by_cases new : index.nextId = held
      · rw [if_pos new, ← new, fresh]
        simp [own]
      · rw [if_neg new]
  · exact wellFormed.held.store config id index.nextId vector
  · intro held other found
    rw [added_reverseMapping, lookup_insert] at found
    rw [added_nextId]
    split at found
    · omega
    · exact Nat.lt_succ_of_lt (wellFormed.mapped_lt held other found)
  · intro held member
    rw [added_tombstones] at member
    rw [added_nextId]
    exact Nat.lt_succ_of_lt (wellFormed.tombstone_lt held member)

variable {config : HnswConfig} {vector : List Score} {answer : Except AkiDbError Nat}

theorem insertion {faults id next}
    (insertion : Insertion config faults index id vector answer next) : next.WellFormed := by
  cases insertion with
  | rejected _ _ kept => exact kept ▸ wellFormed
  | upsertFailed _ internalId _ _ left => exact left ▸ wellFormed.prepareUpsert faults internalId
  | upserted internalId known _ left =>
    exact left ▸ (wellFormed.prepareUpsert faults internalId).store config known vector
  | addFailed _ _ _ left => exact left ▸ wellFormed.allocate
  | added unknown _ left => exact left ▸ wellFormed.added config unknown vector

theorem nextId_of_insertion {faults id next}
    (insertion : Insertion config faults index id vector answer next)
    : index.nextId ≤ next.nextId
      ∧ ∀ internalId, answer = .ok internalId → internalId < next.nextId := by
  cases insertion with
  | rejected _ answered kept => exact ⟨kept ▸ Nat.le_refl _, by simp [answered]⟩
  | upsertFailed _ _ _ answered left => exact ⟨left ▸ Nat.le_refl _, by simp [answered]⟩
  | upserted existing known answered left =>
    have used := wellFormed.mapped_lt _ _ ((wellFormed.mapped_iff _ _).mp known)
    rw [left, store_nextId, answered]
    refine ⟨Nat.le_refl _, ?_⟩
    rintro _ ⟨⟩
    exact used
  | addFailed _ _ answered left => exact ⟨left ▸ Nat.le_succ _, by simp [answered]⟩
  | added _ answered left =>
    rw [left, added_nextId, answered]
    refine ⟨Nat.le_succ _, ?_⟩
    rintro _ ⟨⟩
    exact Nat.lt_succ_self _

theorem delete {internalId : Nat}
    (allocated : internalId < index.nextId) (fault : Option AkiDbError)
    : (index.delete internalId fault).2.WellFormed := by
  cases fault with
  | some error => exact wellFormed
  | none =>
    refine ⟨wellFormed.mapped_iff, wellFormed.held, wellFormed.mapped_lt, ?_⟩
    intro held member
    rcases Finset.mem_insert.mp member with rfl | earlier
    · exact allocated
    · exact wellFormed.tombstone_lt held earlier

theorem triggerRebuild (removeFails : Nat → Bool)
    : (index.triggerRebuild removeFails).WellFormed := by
  constructor
  · intro id held
    simp only [HnswIndex.triggerRebuild, lookup_filter, filter_eq_some_iff,
      wellFormed.mapped_iff id held]
    -- both maps keep the pair exactly when its internal id is not removed
    refine and_congr_right fun reverse => ?_
    rw [reverse]
    cases index.removedBy removeFails held <;> simp
  · exact wellFormed.held.triggerRebuild removeFails
  · intro held id found
    simp only [HnswIndex.triggerRebuild, lookup_filter, filter_eq_some_iff] at found
    exact wellFormed.mapped_lt held id found.1
  · intro held member
    exact wellFormed.tombstone_lt held (Finset.mem_filter.mp member).1

end WellFormed

section Serving

variable {index next : HnswIndex} {config : HnswConfig} {faults : UsearchFaults}
  {id other : String} {vector served : List Score} {internalId : Nat}

theorem Serves.unique (wellFormed : index.WellFormed) (left : index.Serves id vector)
    (right : index.Serves id served) : vector = served := by
  obtain ⟨first, mapped, _, found⟩ := (serves_iff wellFormed).mp left
  obtain ⟨second, same, _, other⟩ := (serves_iff wellFormed).mp right
  cases mapped.symm.trans same
  exact some.inj (found.symm.trans other)

theorem idMapping_of_insertion
    (insertion : Insertion config faults index id vector (.ok internalId) next)
    : next.idMapping[id]? = some internalId := by
  cases insertion with
  | rejected _ answered => cases answered
  | upsertFailed _ _ _ answered => cases answered
  | upserted existing known answered left =>
    cases answered
    rw [left, store_idMapping]
    exact known
  | addFailed _ _ answered => cases answered
  | added _ answered left =>
    cases answered
    rw [left, added_idMapping, lookup_insert, if_pos rfl]

theorem Insertion.stores (insertion : Insertion config faults index id vector (.ok internalId) next)
    : (index.idMapping[id]? = some internalId
        ∧ next = (index.prepareUpsert faults internalId).store config id internalId vector)
      ∨ (index.idMapping[id]? = none ∧ internalId = index.nextId
        ∧ next = index.added config id vector) := by
  cases insertion with
  | rejected _ answered => cases answered
  | upsertFailed _ _ _ answered => cases answered
  | upserted existing known answered left =>
    cases answered
    exact .inl ⟨known, left⟩
  | addFailed _ _ answered => cases answered
  | added unknown answered left =>
    cases answered
    exact .inr ⟨unknown, rfl, left⟩

/-- A successful insertion makes the answered internal id live, and changes no other id. -/
structure Placed (config : HnswConfig) (index : HnswIndex) (id : String) (vector : List Score)
    (internalId : Nat) (next : HnswIndex) : Prop where
  idMapping : ∀ other : String, next.idMapping[other]?
    = if other = id then some internalId else index.idMapping[other]?
  reverseMapping : next.reverseMapping = index.reverseMapping.insert internalId id
  apart : ∀ other held, other ≠ id → index.idMapping[other]? = some held → held ≠ internalId
  alive : internalId ∉ next.tombstones
  tombstones : ∀ held, held ≠ internalId → (held ∈ next.tombstones ↔ held ∈ index.tombstones)
  contents : ∀ held : Nat, next.contents[held]?
    = if held = internalId then some (config.quantize vector) else index.contents[held]?

theorem Insertion.placed (wellFormed : index.WellFormed)
    (insertion : Insertion config faults index id vector (.ok internalId) next)
    : Placed config index id vector internalId next := by
  rcases insertion.stores with ⟨known, rfl⟩ | ⟨unknown, rfl, rfl⟩
  · refine ⟨fun other => ?_, store_reverseMapping .., ?_, ?_, fun held different => ?_,
      fun held => ?_⟩
    · rw [store_idMapping]
      split
      · next same => rw [same]; exact known
      · rfl
    · rintro other held different found rfl
      have before := (wellFormed.mapped_iff _ _).mp found
      rw [(wellFormed.mapped_iff _ _).mp known] at before
      exact different (some.inj before).symm
    · rw [store_tombstones]
      exact Finset.notMem_erase _ _
    · rw [store_tombstones]
      simp [prepareUpsert, different]
    · rw [store_contents, lookup_insert]
      by_cases same : held = internalId
      · rw [if_pos same, if_pos same.symm]
      · rw [if_neg same, if_neg (Ne.symm same), lookup_prepareUpsert,
          if_neg fun both => same both.2.symm]
  · refine ⟨fun other => ?_, added_reverseMapping .., ?_, ?_, fun held _ => ?_, fun held => ?_⟩
    · rw [added_idMapping, lookup_insert]
      simp only [eq_comm]
    · rintro other held _ found rfl
      have before := (wellFormed.mapped_iff _ _).mp found
      rw [wellFormed.reverse_nextId] at before
      cases before
    · rw [added_tombstones]
      exact fun member => Nat.lt_irrefl _ (wellFormed.tombstone_lt _ member)
    · rw [added_tombstones]
    · rw [added_contents, lookup_insert]
      simp only [eq_comm]

/-- After a successful insertion the id is served with the new vector, and every other id as
before. -/
theorem serves_of_insertion (wellFormed : index.WellFormed)
    (insertion : Insertion config faults index id vector (.ok internalId) next)
    : next.Serves other served
      ↔ (other = id ∧ served = config.quantize vector)
        ∨ (other ≠ id ∧ index.Serves other served) := by
  have placed := insertion.placed wellFormed
  rw [serves_iff (wellFormed.insertion insertion), serves_iff wellFormed, placed.idMapping]
  by_cases same : other = id
  · simp [same, placed.alive, placed.contents, eq_comm]
  · simp only [same, if_false, false_and, false_or, ne_eq, not_false_eq_true, true_and]
    refine exists_congr fun held => and_congr_right fun mapped => ?_
    have apart := placed.apart other held same mapped
    rw [placed.tombstones held apart, placed.contents, if_neg apart]

theorem serves_delete (wellFormed : index.WellFormed)
    (mapped : index.idMapping[id]? = some internalId)
    : (index.delete internalId none).2.Serves other served
      ↔ other ≠ id ∧ index.Serves other served := by
  have owner := (wellFormed.mapped_iff id internalId).mp mapped
  simp only [Serves, delete, Finset.mem_insert, not_or]
  constructor
  · rintro ⟨held, found, ⟨apart, live⟩, content⟩
    refine ⟨?_, held, found, live, content⟩
    rintro rfl
    have both := (wellFormed.mapped_iff other held).mpr found
    rw [mapped] at both
    exact apart (some.inj both).symm
  · rintro ⟨different, held, found, live, content⟩
    refine ⟨held, found, ⟨?_, live⟩, content⟩
    rintro rfl
    rw [owner] at found
    exact different (some.inj found).symm

end Serving

/-! What a search accepts -/

/-- A search that comes upon the internal id accepts it as a hit for the external id. -/
def Exposes (index : HnswIndex) (id : String) (internalId : Nat) : Prop :=
  index.reverseMapping[internalId]? = some id ∧ internalId ∉ index.tombstones

section Exposing

variable {index next : HnswIndex} {config : HnswConfig} {faults : UsearchFaults}
  {id other : String} {vector : List Score} {internalId held : Nat}
  {answer : Except AkiDbError Nat}

theorem Exposes.eq (wellFormed : index.WellFormed) (exposed : index.Exposes id held)
    (mapped : index.idMapping[id]? = some internalId) : held = internalId := by
  have found := (wellFormed.mapped_iff id held).mpr exposed.1
  exact some.inj (found.symm.trans mapped)

theorem Exposes.of_prepareUpsert (exposed : (index.prepareUpsert faults internalId).Exposes id held)
    (different : held ≠ internalId) : index.Exposes id held :=
  ⟨exposed.1, fun dead => exposed.2 (Finset.mem_erase.mpr ⟨different, dead⟩)⟩

/-- An insertion exposes no other id. -/
theorem exposes_of_insertion (wellFormed : index.WellFormed)
    (insertion : Insertion config faults index id vector answer next)
    (different : other ≠ id) (exposed : next.Exposes other held)
    : index.Exposes other held := by
  have apart : ∀ own, index.idMapping[id]? = some own
      → index.reverseMapping[held]? = some other → held ≠ own := by
    rintro own known reverse rfl
    rw [(wellFormed.mapped_iff id held).mp known] at reverse
    exact different (some.inj reverse).symm
  cases insertion with
  | rejected _ _ kept => exact kept ▸ exposed
  | upsertFailed _ own known _ left =>
    subst left
    exact exposed.of_prepareUpsert (apart own known exposed.1)
  | upserted own known _ left =>
    subst left
    obtain ⟨reverse, live⟩ := exposed
    rw [store_reverseMapping, lookup_insert] at reverse
    rw [store_tombstones] at live
    split at reverse
    · exact absurd (some.inj reverse).symm different
    · exact Exposes.of_prepareUpsert ⟨reverse, live⟩ (apart own known reverse)
  | addFailed _ _ _ left => subst left; exact exposed
  | added _ _ left =>
    subst left
    obtain ⟨reverse, live⟩ := exposed
    rw [added_reverseMapping, lookup_insert] at reverse
    rw [added_tombstones] at live
    split at reverse
    · exact absurd (some.inj reverse).symm different
    · exact ⟨reverse, live⟩

variable {error : AkiDbError}

theorem eq_of_insert_error (adds : faults.addFails = none)
    (failed : index.insert config faults id vector = (.error error, next))
    : next = index := by
  unfold insert at failed
  rw [adds] at failed
  split at failed
  · cases failed; rfl
  · split at failed
    · cases failed; rfl
    · split at failed
      · cases failed
      · split at failed
        · cases failed; rfl
        · cases failed

theorem index_of_failed_insert (fresh : faults.addFails = none ∨ index.idMapping[id]? = none)
    (failed : index.insert config faults id vector = (.error error, next))
    : ∃ nextId, next = { index with nextId := nextId } := by
  rcases fresh with adds | unknown
  · exact ⟨_, eq_of_insert_error adds failed⟩
  · have kind := index.insertion config faults id vector
    rw [failed] at kind
    cases kind with
    | rejected _ _ kept => exact ⟨_, kept⟩
    | upsertFailed _ own known => cases unknown.symm.trans known
    | upserted own known => cases unknown.symm.trans known
    | addFailed _ _ _ left => exact ⟨_, left⟩
    | added _ answered => cases answered

theorem exposes_of_failed_insert (fresh : faults.addFails = none ∨ index.idMapping[id]? = none)
    (failed : index.insert config faults id vector = (.error error, next))
    (exposed : next.Exposes other held) : index.Exposes other held := by
  obtain ⟨nextId, rfl⟩ := index_of_failed_insert fresh failed
  exact exposed

theorem Exposes.of_delete {fault} (exposed : (index.delete internalId fault).2.Exposes id held)
    : index.Exposes id held := by
  cases fault with
  | some => exact exposed
  | none => exact ⟨exposed.1, fun dead => exposed.2 (Finset.mem_insert_of_mem dead)⟩

theorem Exposes.ne_of_delete (exposed : (index.delete internalId none).2.Exposes id held)
    : held ≠ internalId := by
  rintro rfl
  exact exposed.2 (Finset.mem_insert_self ..)

theorem Exposes.of_triggerRebuild {removeFails : Nat → Bool}
    (exposed : (index.triggerRebuild removeFails).Exposes id held) : index.Exposes id held := by
  obtain ⟨reverse, live⟩ := exposed
  simp only [triggerRebuild, lookup_filter, filter_eq_some_iff] at reverse
  exact ⟨reverse.1, fun dead => live (Finset.mem_filter.mpr ⟨dead, reverse.2⟩)⟩

end Exposing

section Searching

variable {floats : Floats} {config : HnswConfig} {index : HnswIndex} {query : List Score}
  {params : SearchParams}

theorem mem_windowResults {found result}
    (member : result ∈ index.windowResults floats config query params found)
    : ∃ candidate ∈ found, index.Exposes result.id candidate.1
      ∧ params.filter.all (· result.id) = true := by
  have accepted : ∀ hit ∈ index.acceptHits floats config params found,
      ∃ candidate ∈ found, index.Exposes hit.2.id candidate.1
        ∧ params.filter.all (· hit.2.id) = true := by
    intro hit present
    obtain ⟨candidate, listed, taken⟩ := mem_filterMap.mp present
    split at taken
    · cases taken
    · next live =>
        split at taken
        · cases taken
        · next id reverse =>
            split at taken
            · next passes =>
                cases taken
                exact ⟨candidate, listed, ⟨reverse, by simpa [isDeleted] using live⟩, passes⟩
            · cases taken
  unfold windowResults at member
  split at member
  · have sorted := mem_of_mem_take member
    rw [mem_insertionSort] at sorted
    obtain ⟨hit, present, rfl⟩ := mem_map.mp sorted
    obtain ⟨candidate, listed, exposed⟩ := accepted hit present
    refine ⟨candidate, listed, ?_⟩
    split <;> exact exposed
  · obtain ⟨hit, present, rfl⟩ := mem_map.mp member
    exact accepted hit (mem_of_mem_take present)

variable {usearch : Usearch} {window : SearchWindow}

theorem results_of_searchCandidateWindow {breadth limit fuel count : Nat}
    (searched : index.searchCandidateWindow floats config usearch query params breadth limit
      fuel count = .ok window)
    : ∃ count found, usearch query breadth count = .ok found
      ∧ window.results = index.windowResults floats config query params found := by
  induction fuel generalizing count with
  | zero =>
    unfold searchCandidateWindow at searched
    split at searched
    · cases searched
    · next found asked =>
        refine ⟨count, found, asked, ?_⟩
        dsimp only at searched
        split at searched <;> (cases searched; rfl)
  | succ fuel ih =>
    unfold searchCandidateWindow at searched
    split at searched
    · cases searched
    · next found asked =>
        dsimp only at searched
        split at searched
        · cases searched
          exact ⟨count, found, asked, rfl⟩
        · exact ih searched

theorem results_of_searchWindow
    (searched : index.searchWindow floats config usearch query params = .ok window)
    : window.results = [] ∨ ∃ breadth count found, usearch query breadth count = .ok found
      ∧ window.results = index.windowResults floats config query params found := by
  unfold searchWindow at searched
  split at searched
  · cases searched
  · split at searched
    · cases searched
    · split at searched
      · cases searched
        exact .inl rfl
      · obtain ⟨count, found, asked, same⟩ := results_of_searchCandidateWindow searched
        exact .inr ⟨_, count, found, asked, same⟩

end Searching

end HnswIndex

end AkiDB.Vectors
