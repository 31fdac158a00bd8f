import AkiDB.Library.Runs
import AkiDB.Vectors.IndexStates

/-!
Runs of the index: which internal ids it gives out, and when what it maps, holds and counts
agrees.
-/

namespace AkiDB.Vectors
open AkiDB.Common AtomicBatch KeyedMaps List HnswIndex

structure GivenId where
  id : String
  internalId : Nat
  vector : List Score

inductive IndexAction where
  | insert (faults : UsearchFaults) (id : String) (vector : List Score)
  | delete (internalId : Nat) (fault : Option AkiDbError)
  | rebuild (removeFails : Nat → Bool)

/-- The index with everything it has answered to insertions, the latest first. -/
structure IndexRun where
  index : HnswIndex
  given : List GivenId

namespace IndexRun

def start : IndexRun where
  index := empty
  given := []

def record (id : String) (vector : List Score) (given : List GivenId)
    : Except AkiDbError Nat → List GivenId
  | .ok internalId => ⟨id, internalId, vector⟩ :: given
  | .error _ => given

def perform (config : HnswConfig) (run : IndexRun) : IndexAction → IndexRun
  | .insert faults id vector =>
    let outcome := run.index.insert config faults id vector
    { index := outcome.2, given := record id vector run.given outcome.1 }
  | .delete internalId fault => { run with index := (run.index.delete internalId fault).2 }
  | .rebuild removeFails => { run with index := run.index.triggerRebuild removeFails }

/-- Deletions are of internal ids that an insertion answered. -/
def Answered (run : IndexRun) : IndexAction → Prop
  | .delete internalId _ => ∃ entry ∈ run.given, entry.internalId = internalId
  | _ => True

/-- No addition fails for an id that is mapped, and only mapped ids are tombstoned. -/
def Permits (run : IndexRun) : IndexAction → Prop
  | .insert faults id _ => (run.index.idMapping[id]?).isSome → faults.addFails = none
  | .delete internalId fault =>
    fault = none → (run.index.reverseMapping[internalId]?).isSome
  | .rebuild _ => True

instance (run : IndexRun) (action : IndexAction) : Decidable (run.Answered action) := by
  cases action <;> unfold Answered <;> infer_instance

instance (run : IndexRun) (action : IndexAction) : Decidable (run.Permits action) := by
  cases action <;> unfold Permits <;> infer_instance

end IndexRun

/-- The mapped internal ids without tombstone. -/
def HnswIndex.liveIds (index : HnswIndex) : Finset Nat :=
  index.reverseMapping.keys.toFinset \ index.tombstones

namespace IndexRun

variable {config : HnswConfig} {run : IndexRun}

/-- Ids correspond one to one, now and over the whole run. -/
structure Identified (run : IndexRun) : Prop where
  inverse : ∀ (id : String) (internalId : Nat),
    run.index.idMapping[id]? = some internalId ↔ run.index.reverseMapping[internalId]? = some id
  unshared : ∀ left ∈ run.given, ∀ right ∈ run.given,
    left.internalId = right.internalId → left.id = right.id

/-- Every id in use was answered, and every answered id is allocated. -/
structure Recorded (run : IndexRun) : Prop where
  wellFormed : run.index.WellFormed
  allocated : ∀ entry ∈ run.given, entry.internalId < run.index.nextId
  answered : ∀ (internalId : Nat) (id : String), run.index.reverseMapping[internalId]? = some id →
    ∃ entry ∈ run.given, entry.id = id ∧ entry.internalId = internalId
  unshared : ∀ left ∈ run.given, ∀ right ∈ run.given,
    left.internalId = right.internalId → left.id = right.id

theorem Recorded.start : start.Recorded where
  wellFormed := wellFormed_empty
  allocated _ member := by cases member
  answered internalId id found := by cases (lookup_empty internalId).symm.trans found
  unshared _ member := by cases member

variable {next : HnswIndex} {internalId : Nat} {vector : List Score}

section
variable (recorded : run.Recorded)
include recorded

theorem Recorded.answer {id} (wellFormed : next.WellFormed) (grows : run.index.nextId ≤ next.nextId)
    (allocated : internalId < next.nextId)
    (reverse : next.reverseMapping = run.index.reverseMapping.insert internalId id)
    (own : ∀ entry ∈ run.given, entry.internalId = internalId → entry.id = id)
    : Recorded ⟨next, ⟨id, internalId, vector⟩ :: run.given⟩ where
  wellFormed := wellFormed
  allocated := forall_mem_cons.mpr
    ⟨allocated, fun entry member => (recorded.allocated entry member).trans_le grows⟩
  answered held other found := by
    rw [reverse, lookup_insert] at found
    split at found
    · rename_i same
      exact ⟨_, mem_cons_self, Option.some.inj found, same⟩
    · obtain ⟨entry, member, both⟩ := recorded.answered held other found
      exact ⟨entry, mem_cons_of_mem _ member, both⟩
  unshared left isLeft right isRight same := by
    rcases mem_cons.mp isLeft with rfl | isLeft <;>
      rcases mem_cons.mp isRight with rfl | isRight
    · rfl
    · exact (own right isRight same.symm).symm
    · exact own left isLeft same
    · exact recorded.unshared left isLeft right isRight same

theorem Recorded.unchanged (wellFormed : next.WellFormed)
    (grows : run.index.nextId ≤ next.nextId)
    (reverse : ∀ (internalId : Nat) (id : String), next.reverseMapping[internalId]? = some id →
      run.index.reverseMapping[internalId]? = some id)
    : Recorded ⟨next, run.given⟩ where
  wellFormed := wellFormed
  allocated entry member := (recorded.allocated entry member).trans_le grows
  answered internalId id found := recorded.answered internalId id (reverse internalId id found)
  unshared := recorded.unshared

theorem Recorded.insert (faults : UsearchFaults) (id : String)
    (vector : List Score) : (run.perform config (.insert faults id vector)).Recorded := by
  have kind := run.index.insertion config faults id vector
  have wellFormed := recorded.wellFormed.insertion kind
  have counter := recorded.wellFormed.nextId_of_insertion kind
  unfold perform
  dsimp only
  generalize run.index.insert config faults id vector = outcome at kind wellFormed counter ⊢
  obtain ⟨answer, next⟩ := outcome
  dsimp only at kind wellFormed counter ⊢
  cases answer with
  | error error =>
    refine recorded.unchanged wellFormed counter.1 fun internalId other found => ?_
    cases kind with
    | rejected _ _ kept => exact kept ▸ found
    | upsertFailed _ _ _ _ left | addFailed _ _ _ left =>
      rw [left] at found
      exact found
    | upserted _ _ answered | added _ answered => cases answered
  | ok internalId =>
    have reverse := (kind.placed recorded.wellFormed).reverseMapping
    refine recorded.answer wellFormed counter.1 (counter.2 internalId rfl) reverse ?_
    intro entry member same
    rcases kind.stores with ⟨known, _⟩ | ⟨_, rfl, _⟩
    · obtain ⟨first, among, ids, held⟩ := recorded.answered internalId id
        ((recorded.wellFormed.mapped_iff id internalId).mp known)
      exact (recorded.unshared entry member first among (same.trans held.symm)).trans ids
    · exact absurd same (recorded.allocated entry member).ne

theorem Recorded.perform {action} (answered : run.Answered action)
    : (run.perform config action).Recorded := by
  cases action with
  | insert faults id vector => exact recorded.insert faults id vector
  | delete internalId fault =>
    obtain ⟨entry, member, rfl⟩ := answered
    refine recorded.unchanged (recorded.wellFormed.delete (recorded.allocated entry member) fault)
      ?_ ?_ <;> cases fault <;> simp [delete]
  | rebuild removeFails =>
    refine recorded.unchanged (recorded.wellFormed.triggerRebuild removeFails) le_rfl ?_
    intro internalId id found
    simp only [triggerRebuild, lookup_filter, Option.filter_eq_some_iff] at found
    exact found.1

end

def lastGiven (run : IndexRun) (internalId : Nat) : Option GivenId :=
  run.given.find? (·.internalId = internalId)

/-- Only mapped ids are tombstoned, and each is held with the latest vector inserted. -/
structure Consistent (config : HnswConfig) (run : IndexRun) : Prop where
  tombstoned : ∀ internalId ∈ run.index.tombstones,
    ∃ id, run.index.reverseMapping[internalId]? = some id
  current : ∀ (internalId : Nat) (id : String), run.index.reverseMapping[internalId]? = some id →
    ∃ entry, run.lastGiven internalId = some entry
      ∧ run.index.contents[internalId]? = some (config.quantize entry.vector)

theorem Consistent.start : start.Consistent config where
  tombstoned _ member := by cases member
  current internalId id found := by cases (lookup_empty internalId).symm.trans found

theorem Consistent.write (consistent : run.Consistent config) {id}
    (tombstones : next.tombstones ⊆ run.index.tombstones)
    (reverse : next.reverseMapping = run.index.reverseMapping.insert internalId id)
    (contents : ∀ other : Nat, next.contents[other]? = if internalId = other
      then some (config.quantize vector) else run.index.contents[other]?)
    : Consistent config ⟨next, ⟨id, internalId, vector⟩ :: run.given⟩ where
  tombstoned other member := by
    obtain ⟨held, found⟩ := consistent.tombstoned other (tombstones member)
    rw [reverse, lookup_insert]
    split
    · exact ⟨id, rfl⟩
    · exact ⟨held, found⟩
  current other held found := by
    unfold lastGiven
    rw [reverse, lookup_insert] at found
    rw [contents, find?_cons]
    by_cases same : internalId = other
    · rw [if_pos same, decide_eq_true same]
      exact ⟨_, rfl, rfl⟩
    · rw [if_neg same] at found ⊢
      rw [decide_eq_false same]
      exact consistent.current other held found

variable {faults : UsearchFaults}

theorem Permits.fresh {id} (permits : run.Permits (.insert faults id vector))
    : faults.addFails = none ∨ run.index.idMapping[id]? = none := by
  cases known : run.index.idMapping[id]? with
  | none => exact .inr rfl
  | some internalId => exact .inl (permits (by rw [known]; rfl))

theorem Consistent.insert (consistent : run.Consistent config) {id}
    (permits : run.Permits (.insert faults id vector))
    : (run.perform config (.insert faults id vector)).Consistent config := by
  have kind := run.index.insertion config faults id vector
  unfold perform
  dsimp only
  generalize outcome : run.index.insert config faults id vector = inserted at kind ⊢
  obtain ⟨answer, next⟩ := inserted
  cases answer with
  | error error =>
    obtain ⟨nextId, rfl⟩ := index_of_failed_insert permits.fresh outcome
    exact ⟨consistent.tombstoned, consistent.current⟩
  | ok internalId =>
    rcases kind.stores with ⟨_, rfl⟩ | ⟨_, rfl, rfl⟩
    · refine consistent.write ?_ (store_reverseMapping ..) fun other => ?_
      · rw [store_tombstones]
        exact Finset.erase_subset ..
      · rw [store_contents, lookup_insert]
        split
        · rfl
        · next apart => rw [lookup_prepareUpsert, if_neg fun both => apart both.2]
    · refine consistent.write ?_ (added_reverseMapping ..) fun other => ?_
      · rw [added_tombstones]
      · rw [added_contents, lookup_insert]

/-- Every permitted action keeps the index consistent. -/
theorem Consistent.perform (consistent : run.Consistent config) {action}
    (permits : run.Permits action)
    : (run.perform config action).Consistent config := by
  cases action with
  | insert faults id vector => exact consistent.insert permits
  | delete internalId fault =>
    cases fault with
    | some => exact consistent
    | none =>
      refine ⟨fun other member => ?_, consistent.current⟩
      rcases Finset.mem_insert.mp member with rfl | earlier
      · exact Option.isSome_iff_exists.mp (permits rfl)
      · exact consistent.tombstoned other earlier
  | rebuild removeFails =>
    constructor
    · intro internalId member
      obtain ⟨tombstoned, stays⟩ := Finset.mem_filter.mp member
      obtain ⟨id, found⟩ := consistent.tombstoned internalId tombstoned
      refine ⟨id, ?_⟩
      unfold IndexRun.perform triggerRebuild
      rw [lookup_filter, found]
      exact Option.filter_eq_some_iff.mpr ⟨rfl, stays⟩
    · intro internalId id found
      unfold IndexRun.perform triggerRebuild at found ⊢
      rw [lookup_filter, Option.filter_eq_some_iff] at found
      obtain ⟨entry, last, holds⟩ := consistent.current internalId id found.1
      refine ⟨entry, last, ?_⟩
      rw [lookup_filter, holds]
      exact Option.filter_eq_some_iff.mpr ⟨rfl, found.2⟩

theorem mem_liveIds {index : HnswIndex}
    : internalId ∈ index.liveIds ↔ (∃ id, index.reverseMapping[internalId]? = some id)
      ∧ internalId ∉ index.tombstones := by
  unfold liveIds
  rw [Finset.mem_sdiff, mem_toFinset, Std.ExtTreeMap.mem_keys,
    Std.ExtTreeMap.mem_iff_isSome_getElem?, Option.isSome_iff_exists]

/-- The index serves and counts its live ids; rebuilds and failed insertions leave them. -/
structure Serving (config : HnswConfig) (run : IndexRun) : Prop where
  current : ∀ internalId ∈ run.index.liveIds, ∃ entry, run.lastGiven internalId = some entry
    ∧ run.index.contents[internalId]? = some (config.quantize entry.vector)
  counted : run.index.stats.activeVectors = run.index.liveIds.card
  rebuilt : ∀ removeFails internalId, ((run.index.contents[internalId]?).isSome
        ∧ ((run.index.triggerRebuild removeFails).contents[internalId]?).isNone
      ↔ internalId ∈ run.index.tombstones ∧ removeFails internalId = false)
  failed : ∀ faults id vector error, run.Permits (.insert faults id vector) →
    (run.index.insert config faults id vector).1 = .error error →
    (run.index.insert config faults id vector).2.liveIds = run.index.liveIds
      ∧ (run.index.insert config faults id vector).2.contents = run.index.contents

theorem Consistent.keys_eq (recorded : run.Recorded) (consistent : run.Consistent config)
    : run.index.contents.keys.toFinset = run.index.reverseMapping.keys.toFinset := by
  ext internalId
  rw [mem_toFinset, mem_toFinset, Std.ExtTreeMap.mem_keys, Std.ExtTreeMap.mem_keys,
    Std.ExtTreeMap.mem_iff_isSome_getElem?, Std.ExtTreeMap.mem_iff_isSome_getElem?,
    Option.isSome_iff_exists, Option.isSome_iff_exists]
  constructor
  · rintro ⟨vector, found⟩
    exact recorded.wellFormed.held internalId vector found
  · rintro ⟨id, found⟩
    obtain ⟨entry, _, holds⟩ := consistent.current internalId id found
    exact ⟨_, holds⟩

theorem Consistent.counted (recorded : run.Recorded) (consistent : run.Consistent config)
    : run.index.stats.activeVectors = run.index.liveIds.card := by
  have size : run.index.contents.keys.toFinset.card = run.index.contents.size := by
    rw [toFinset_card_of_nodup Std.ExtTreeMap.nodup_keys, Std.ExtTreeMap.length_keys]
  have covered : run.index.tombstones ⊆ run.index.reverseMapping.keys.toFinset := by
    intro internalId member
    rw [mem_toFinset, Std.ExtTreeMap.mem_keys, Std.ExtTreeMap.mem_iff_isSome_getElem?]
    exact Option.isSome_iff_exists.mpr (consistent.tombstoned internalId member)
  unfold liveIds stats
  rw [Finset.card_sdiff_of_subset covered, ← consistent.keys_eq recorded, size]

theorem Consistent.rebuilt (consistent : run.Consistent config) (removeFails : Nat → Bool)
    (internalId : Nat)
    : ((run.index.contents[internalId]?).isSome
        ∧ ((run.index.triggerRebuild removeFails).contents[internalId]?).isNone
      ↔ internalId ∈ run.index.tombstones ∧ removeFails internalId = false) := by
  unfold triggerRebuild
  rw [lookup_filter]
  constructor
  · rintro ⟨held, gone⟩
    obtain ⟨vector, found⟩ := Option.isSome_iff_exists.mp held
    rw [found] at gone
    simp only [Option.filter_some, removedBy, isDeleted] at gone
    simp_all
  · rintro ⟨tombstoned, removes⟩
    obtain ⟨id, found⟩ := consistent.tombstoned internalId tombstoned
    obtain ⟨entry, _, holds⟩ := consistent.current internalId id found
    rw [holds]
    simp [removedBy, isDeleted, found, tombstoned, removes]

theorem Consistent.failed {id error} (permits : run.Permits (.insert faults id vector))
    (answered : (run.index.insert config faults id vector).1 = .error error)
    : (run.index.insert config faults id vector).2.liveIds = run.index.liveIds
      ∧ (run.index.insert config faults id vector).2.contents = run.index.contents := by
  generalize outcome : run.index.insert config faults id vector = inserted at answered ⊢
  obtain ⟨answer, next⟩ := inserted
  obtain rfl : answer = .error error := answered
  obtain ⟨nextId, rfl⟩ := index_of_failed_insert permits.fresh outcome
  exact ⟨rfl, rfl⟩

/-- No internal id is given to two external ids, and the index serves its live ids if no addition
fails for a mapped one.
Witness: answered ids are never allocated again.
-/
theorem index_runs_serve (config : HnswConfig) (actions : List IndexAction)
    (answered : Runs.Along (perform config) Answered start actions)
    : (actions.foldl (perform config) start).Identified
      ∧ (Runs.Along (perform config) Permits start actions →
        (actions.foldl (perform config) start).Serving config) := by
  have recorded : (actions.foldl (perform config) start).Recorded :=
    Runs.Along.invariant (fun _ _ held answers => held.perform answers) answered Recorded.start
  refine ⟨⟨recorded.wellFormed.mapped_iff, recorded.unshared⟩, fun permitted => ?_⟩
  have consistent : (actions.foldl (perform config) start).Consistent config :=
    Runs.Along.invariant (fun _ _ held permits => held.perform permits) permitted Consistent.start
  refine ⟨fun internalId live => ?_, consistent.counted recorded, consistent.rebuilt,
    fun faults id vector error permits => Consistent.failed permits⟩
  obtain ⟨⟨id, found⟩, _⟩ := mem_liveIds.mp live
  exact consistent.current internalId id found

def lineConfig : HnswConfig where
  dimensions := 1
  efSearch := 64
  precision := .f32
  metric := .l2
  quantize := id

/-- An upsert over a failing removal, a deletion and a rebuild, and the id inserted again. -/
def reinsertedId : List IndexAction :=
  [.insert {} "a" [.finite 1], .insert { removeFails := true } "a" [.finite 2], .delete 0 none,
    .rebuild fun _ => false, .insert {} "a" [.finite 3]]

theorem reinserted_id_served
    : (reinsertedId.foldl (perform lineConfig) start).Serving lineConfig :=
  (index_runs_serve lineConfig reinsertedId (by decide +kernel)).2 (by decide +kernel)

/-- An upsert whose addition fails, and a second deletion after a rebuild. -/
def failedUpsert : List IndexAction :=
  [.insert {} "a" [.finite 1], .insert { addFails := some "out of memory" } "a" [.finite 2]]

def deletedTwice : List IndexAction :=
  [.insert {} "a" [.finite 1], .delete 0 none, .rebuild fun _ => false,
    .insert {} "b" [.finite 2], .delete 0 none]

/-- The failed upsert leaves a live id without a vector; the second deletion counts a live id. -/
theorem live_ids_lost
    : ((failedUpsert.foldl (perform lineConfig) start).index.liveIds = {0}
        ∧ (failedUpsert.foldl (perform lineConfig) start).index.contents[0]? = none)
      ∧ (deletedTwice.foldl (perform lineConfig) start).index.liveIds = {1}
        ∧ (deletedTwice.foldl (perform lineConfig) start).index.stats.activeVectors = 0 := by
  decide +kernel

end IndexRun

end AkiDB.Vectors
