import AkiDB.Vectors.IndexRuns

/-! The rebuild manager: insertions go to both indexes by external id, deletions by internal id. -/

namespace AkiDB.Rebuild
open AkiDB.Common AkiDB.Vectors AtomicBatch KeyedMaps List HnswIndex

def live (config : HnswConfig) (index : HnswIndex) (id : String) : Option (List Score) :=
  (index.internalIdOf id).bind (index.getVector config)

structure RebuildManager where
  primary : HnswIndex
  shadow : Option HnswIndex

/-- One item of a write with the library's failures on both indexes, and that of undoing it. -/
structure Write where
  id : String
  vector : List Score
  primary : UsearchFaults
  shadow : UsearchFaults
  rollback : Option AkiDbError

/-- Insert one item after the other, up to the first that fails. -/
def insertItems (config : HnswConfig) (faults : Write → UsearchFaults)
    : HnswIndex → List Write → Except AkiDbError (List Nat) × HnswIndex
  | index, [] => (.ok [], index)
  | index, write :: rest =>
    match index.insert config (faults write) write.id write.vector with
    | (.error error, next) => (.error error, next)
    | (.ok internalId, next) =>
      let outcome := insertItems config faults next rest
      (outcome.1.map (internalId :: ·), outcome.2)

namespace RebuildManager

variable (config : HnswConfig)

def swapIndices (manager : RebuildManager) : Except AkiDbError RebuildManager :=
  match manager.shadow with
  | none => .error (.invalidParameter "No shadow index to swap")
  | some shadow => .ok { primary := shadow, shadow := none }

def insert (manager : RebuildManager) (write : Write) : Except AkiDbError Nat × RebuildManager :=
  let preexistingVisible := (live config manager.primary write.id).isSome
  match manager.primary.insert config write.primary write.id write.vector with
  | (.error error, primary) => (.error error, { manager with primary })
  | (.ok internalId, primary) =>
    match manager.shadow with
    | none => (.ok internalId, { manager with primary })
    | some shadow =>
      match shadow.insert config write.shadow write.id write.vector with
      | (.ok _, shadow) => (.ok internalId, { primary, shadow := some shadow })
      | (.error error, shadow) =>
        let e := s!"Shadow insert error: {error.display}"
        if preexistingVisible then
          (.error (.indexError (s!"Shadow insert failed during rebuild: {e}. "
              ++ "The upsert remains on the primary index but is missing from the shadow; "
              ++ "restart the rebuild to avoid losing this update after swap.")),
            { primary, shadow := some shadow })
        else
          match primary.delete internalId write.rollback with
          | (.error undone, primary) =>
            (.error (.indexError (s!"Shadow insert failed ({e}) AND rollback failed "
                ++ s!"({undone.display}). Index may be inconsistent - manual intervention "
                ++ "required.")),
              { primary, shadow := some shadow })
          | (.ok _, primary) =>
            (.error (.indexError (s!"Shadow insert failed during rebuild: {e}. "
                ++ "Primary insert rolled back to prevent data loss after swap.")),
              { primary, shadow := some shadow })

/-- Delete what a batch inserted, except over vectors visible before, with what could not be
deleted. -/
def rollBack (primary : HnswIndex)
    : List (Nat × Write × Bool) → List Nat × HnswIndex
  | [] => ([], primary)
  | (internalId, write, preexisting) :: rest =>
    if preexisting then rollBack primary rest
    else
      let undone := primary.delete internalId write.rollback
      let others := rollBack undone.2 rest
      (if undone.1.toBool then others.1 else internalId :: others.1, others.2)

def insertBatch (manager : RebuildManager) (writes : List Write)
    : Except AkiDbError (List Nat) × RebuildManager :=
  let preexistingVisible := writes.map fun write => (live config manager.primary write.id).isSome
  match insertItems config Write.primary manager.primary writes with
  | (.error error, primary) => (.error error, { manager with primary })
  | (.ok results, primary) =>
    match manager.shadow with
    | none => (.ok results, { manager with primary })
    | some shadow =>
      match insertItems config Write.shadow shadow writes with
      | (.ok _, shadow) => (.ok results, { primary, shadow := some shadow })
      | (.error error, shadow) =>
        let e := s!"Shadow batch insert error: {error.display}"
        let undone := rollBack primary (results.zip (writes.zip preexistingVisible))
        let kept := preexistingVisible.count true
        let message := if undone.1 ≠ [] then
            s!"Shadow batch insert failed ({e}) AND {undone.1.length} rollbacks failed. "
              ++ "Index may be inconsistent - manual intervention required. "
              ++ s!"Failed IDs: {undone.1}"
          else
            s!"Shadow batch insert failed during rebuild: {e}. "
              ++ s!"{results.length - kept} new inserts rolled back; {kept} upserts kept on "
              ++ "primary (restart the rebuild to avoid losing them after swap)."
        (.error (.indexError message), { primary := undone.2, shadow := some shadow })

def delete (manager : RebuildManager) (internalId : Nat)
    (shadowFault primaryFault : Option AkiDbError) : Except AkiDbError Unit × RebuildManager :=
  match manager.shadow with
  | none =>
    let outcome := manager.primary.delete internalId primaryFault
    (outcome.1, { manager with primary := outcome.2 })
  | some shadow =>
    match shadow.delete internalId shadowFault with
    | (.error error, _) =>
      (.error (.indexError (s!"Shadow delete failed during rebuild: {error.display}. "
          ++ "Delete aborted to prevent data resurrection after swap.")),
        manager)
    | (.ok _, shadow) =>
      let outcome := manager.primary.delete internalId primaryFault
      (outcome.1, { primary := outcome.2, shadow := some shadow })

end RebuildManager

inductive ManagerAction where
  | insert (write : Write)
  | insertBatch (writes : List Write)
  | delete (internalId : Nat) (shadowFault primaryFault : Option AkiDbError)

def perform (config : HnswConfig) (manager : RebuildManager) : ManagerAction → RebuildManager
  | .insert write => (manager.insert config write).2
  | .insertBatch writes => (manager.insertBatch config writes).2
  | .delete internalId shadowFault primaryFault =>
    (manager.delete internalId shadowFault primaryFault).2

/-! When a write leaves both indexes alike -/

/-- A vector that the index does not reject. -/
def Accepted (config : HnswConfig) (vector : List Score) : Prop :=
  vector.length = config.dimensions ∧ ∀ score ∈ vector, score.isFinite

def owner (config : HnswConfig) (index : HnswIndex) (internalId : Nat) : Option String :=
  index.reverseMapping[internalId]?.filter fun id => (live config index id).isSome

def Roomy (index : HnswIndex) (number : Nat) : Prop :=
  index.nextId + number < 2 ^ 63

/-- A vector is written on both indexes, fails before any write, or is new to both and undone. -/
def InsertSafe (config : HnswConfig) (primary shadow : HnswIndex) (write : Write) : Prop :=
  ¬Accepted config write.vector
  ∨ (write.primary.addFails = none ∧ write.shadow.addFails = none ∧ Roomy primary 1
    ∧ Roomy shadow 1)
  ∨ (write.primary.addFails.isSome ∧ primary.idMapping[write.id]? = none)
  ∨ (write.primary.addFails = none ∧ live config primary write.id = none
    ∧ shadow.idMapping[write.id]? = none ∧ write.rollback = none)

/-- Writes that leave the primary and the shadow with the same live vectors. -/
def Safe (config : HnswConfig) (manager : RebuildManager) (action : ManagerAction) : Prop :=
  match manager.shadow, action with
  | none, _ => True
  | some shadow, .insert write => InsertSafe config manager.primary shadow write
  | some shadow, .insertBatch writes =>
    (∃ first ∈ writes.head?.toList, ¬Accepted config first.vector)
    ∨ ((∀ write ∈ writes, Accepted config write.vector ∧ write.primary.addFails = none
        ∧ write.shadow.addFails = none)
      ∧ Roomy manager.primary writes.length ∧ Roomy shadow writes.length)
  | some shadow, .delete internalId shadowFault primaryFault =>
    shadowFault.isSome ∨ (internalId < shadow.nextId ∧ internalId < manager.primary.nextId
      ∧ owner config shadow internalId
        = if primaryFault.isSome then none else owner config manager.primary internalId)

instance (config : HnswConfig) (vector : List Score) : Decidable (Accepted config vector) :=
  inferInstanceAs (Decidable (_ ∧ _))

instance (config : HnswConfig) (primary shadow : HnswIndex) (write : Write)
    : Decidable (InsertSafe config primary shadow write) :=
  haveI (index : HnswIndex) (number : Nat) : Decidable (Roomy index number) := Nat.decLt ..
  inferInstanceAs (Decidable (_ ∨ _))

instance (config : HnswConfig) (manager : RebuildManager) (action : ManagerAction)
    : Decidable (Safe config manager action) := by
  haveI (index : HnswIndex) (number : Nat) : Decidable (Roomy index number) := Nat.decLt ..
  unfold Safe
  split <;> infer_instance

section Operations

variable {config : HnswConfig} {index next : HnswIndex} {faults : UsearchFaults}
variable {id other : String} {vector : List Score} {internalId : Nat}

def vectors (config : HnswConfig) (index : HnswIndex) : KeyValueMap Nat (List Score) :=
  if config.precision = .i8 then index.exactVectors else index.contents

def kept (config : HnswConfig) (vector : List Score) : List Score :=
  if config.precision = .i8 then vector else config.quantize vector

theorem live_eq : live config index id = index.idMapping[id]?.bind fun internalId =>
    if internalId ∈ index.tombstones then none else (vectors config index)[internalId]? := by
  unfold live internalIdOf vectors
  congr 1
  funext internalId
  unfold getVector isDeleted
  split <;> split <;> simp_all

theorem vectors_of_insertion
    (insertion : HnswIndex.Insertion config faults index id vector (.ok internalId) next)
    (held : Nat)
    : (vectors config next)[held]?
      = if held = internalId then some (kept config vector) else (vectors config index)[held]? := by
  have stored : ∀ (before : HnswIndex), (∀ held, held ≠ internalId
      → (vectors config before)[held]? = (vectors config index)[held]?)
      → (vectors config (before.store config id internalId vector))[held]?
        = if held = internalId then some (kept config vector)
          else (vectors config index)[held]? := by
    intro before same
    have written : vectors config (before.store config id internalId vector)
        = (vectors config before).insert internalId (kept config vector) := by
      unfold vectors kept store rememberExact
      split <;> simp_all
    rw [written, lookup_insert]
    by_cases own : held = internalId
    · rw [if_pos own, if_pos own.symm]
    · rw [if_neg own, if_neg (Ne.symm own), same held own]
  rcases insertion.stores with ⟨_, rfl⟩ | ⟨_, rfl, rfl⟩
  · refine stored _ fun other apart => ?_
    unfold vectors prepareUpsert
    split
    · rfl
    · dsimp only
      split
      · rfl
      · rw [lookup_erase, if_neg (Ne.symm apart)]
  · exact stored { index with nextId := index.nextId + 1 } fun _ _ => rfl

theorem live_of_insertion (wellFormed : index.WellFormed)
    (insertion : HnswIndex.Insertion config faults index id vector (.ok internalId) next)
    : live config next other
      = if other = id then some (kept config vector) else live config index other := by
  have placed := insertion.placed wellFormed
  rw [live_eq, live_eq, placed.idMapping]
  by_cases same : other = id
  · simp [same, placed.alive, vectors_of_insertion insertion]
  · rw [if_neg same, if_neg same]
    cases mapped : index.idMapping[other]? with
    | none => rfl
    | some held =>
      have apart := placed.apart other held same mapped
      simp only [Option.bind_some, placed.tombstones held apart,
        vectors_of_insertion insertion, if_neg apart]

theorem live_of_failed {error} (fresh : faults.addFails = none ∨ index.idMapping[id]? = none)
    (failed : index.insert config faults id vector = (.error error, next))
    : live config next other = live config index other := by
  obtain ⟨nextId, rfl⟩ := index_of_failed_insert fresh failed
  rfl

theorem live_delete (wellFormed : index.WellFormed)
    : live config (index.delete internalId none).2 other
      = if owner config index internalId = some other then none else live config index other := by
  have owns : owner config index internalId = some other
      ↔ index.idMapping[other]? = some internalId ∧ (live config index other).isSome := by
    rw [owner, Option.filter_eq_some_iff, wellFormed.mapped_iff]
  by_cases visible : (live config index other).isSome
  · have mapped : ∃ held, index.idMapping[other]? = some held := by
      rw [live_eq] at visible
      cases found : index.idMapping[other]? with
      | none => simp [found] at visible
      | some held => exact ⟨held, rfl⟩
    obtain ⟨held, found⟩ := mapped
    simp only [owns, found, visible, and_true, Option.some.injEq]
    rw [live_eq, live_eq]
    simp only [delete, found, Option.bind_some, Finset.mem_insert]
    by_cases same : held = internalId
    · simp [same]
    · simp only [same, false_or, if_false]
      rfl
  · rw [if_neg fun owned => visible (owns.mp owned).2]
    rw [Option.not_isSome_iff_eq_none] at visible
    rw [visible]
    rw [live_eq] at visible ⊢
    cases found : index.idMapping[other]? with
    | none => simp [delete, found]
    | some held =>
      simp only [delete, found, Option.bind_some, Finset.mem_insert] at visible ⊢
      split
      · rfl
      · next alive =>
        rw [if_neg fun dead => alive (.inr dead)] at visible
        exact visible

theorem insert_rejected (faults : UsearchFaults) (id : String) (rejected : ¬Accepted config vector)
    : ∃ error, index.insert config faults id vector = (.error error, index) := by
  unfold HnswIndex.insert
  by_cases long : vector.length = config.dimensions
  · have infinite : vector.any (!·.isFinite) = true := by
      by_contra finite
      refine rejected ⟨long, fun score member => ?_⟩
      by_contra wrong
      exact finite (any_eq_true.mpr ⟨score, member, by simpa using wrong⟩)
    rw [if_neg (not_not.mpr long), validateFiniteVectorValues, if_pos infinite]
    exact ⟨_, rfl⟩
  · rw [if_pos long]
    exact ⟨_, rfl⟩

theorem insert_accepted (id : String) (accepted : Accepted config vector)
    (adds : faults.addFails = none) (roomy : Roomy index 1)
    : ∃ internalId next, index.insert config faults id vector = (.ok internalId, next)
      ∧ next.nextId ≤ index.nextId + 1 := by
  have finite : ¬vector.any (!·.isFinite) = true := by
    rw [any_eq_true]
    rintro ⟨score, member, wrong⟩
    simp [accepted.2 score member] at wrong
  unfold HnswIndex.insert
  rw [if_neg (not_not.mpr accepted.1), validateFiniteVectorValues, if_neg finite, adds]
  cases index.idMapping[id]? with
  | some existing => exact ⟨existing, _, rfl, by simp [prepareUpsert]⟩
  | none =>
    have room : index.nextId + 1 < 2 ^ 63 := roomy
    simp only [allocateInternalId, if_pos room]
    exact ⟨index.nextId, _, rfl, by simp⟩

theorem addFails_of_insert
    (answered : index.insert config faults id vector = (.ok internalId, next))
    : faults.addFails = none := by
  cases fails : faults.addFails with
  | none => rfl
  | some error =>
    unfold HnswIndex.insert at answered
    rw [fails] at answered
    split at answered
    · cases answered
    · split at answered
      · cases answered
      · split at answered
        · cases answered
        · split at answered <;> cases answered

end Operations

/-! Both indexes through the manager -/

/-- A shadow is set and has the same live vectors as the primary. -/
def Alike (config : HnswConfig) (manager : RebuildManager) : Prop :=
  ∃ shadow, manager.shadow = some shadow ∧ manager.primary.WellFormed ∧ shadow.WellFormed
    ∧ ∀ id, live config manager.primary id = live config shadow id

section Manager

variable {config : HnswConfig} {primary shadow : HnswIndex}

theorem wellFormed_of_insert {index next : HnswIndex} {faults} {id : String} {vector : List Score}
    {answer} (wellFormed : index.WellFormed)
    (outcome : index.insert config faults id vector = (answer, next))
    : next.WellFormed := by
  have kind := index.insertion config faults id vector
  rw [outcome] at kind
  exact wellFormed.insertion kind

/-- One safe insertion keeps the indexes alike. -/
theorem alike_insert (primaryFormed : primary.WellFormed) (shadowFormed : shadow.WellFormed)
    (same : ∀ id, live config primary id = live config shadow id) {write : Write}
    (safe : InsertSafe config primary shadow write)
    : Alike config (RebuildManager.insert config ⟨primary, some shadow⟩ write).2 := by
  have accepted : ∀ {answer next}, primary.insert config write.primary write.id write.vector
      = (.ok answer, next) → Accepted config write.vector := by
    intro answer next succeeded
    by_contra rejected
    obtain ⟨error, failed⟩ := @insert_rejected config primary _ write.primary write.id rejected
    rw [failed] at succeeded
    cases succeeded
  unfold RebuildManager.insert
  dsimp only
  cases first : primary.insert config write.primary write.id write.vector with
  | mk answer primary' =>
    have formed := wellFormed_of_insert primaryFormed first
    cases answer with
    | error error =>
      refine ⟨shadow, rfl, formed, shadowFormed, fun id => ?_⟩
      rw [← same]
      rcases safe with rejected | written | fresh | undone
      · obtain ⟨_, failed⟩ := @insert_rejected config primary _ write.primary write.id rejected
        cases first.symm.trans failed
        rfl
      · exact live_of_failed (.inl written.1) first
      · exact live_of_failed (.inr fresh.2) first
      · exact live_of_failed (.inl undone.1) first
    | ok internalId =>
      have kind := primary.insertion config write.primary write.id write.vector
      rw [first] at kind
      dsimp only at kind
      have after (other : String) := @live_of_insertion _ _ _ _ _ other _ _ primaryFormed kind
      cases second : shadow.insert config write.shadow write.id write.vector with
      | mk answer shadow' =>
        have shadowFormed' := wellFormed_of_insert shadowFormed second
        cases answer with
        | ok _ =>
          have shadowKind := shadow.insertion config write.shadow write.id write.vector
          rw [second] at shadowKind
          refine ⟨shadow', rfl, formed, shadowFormed', fun id => ?_⟩
          rw [after, live_of_insertion shadowFormed shadowKind, same]
        | error error =>
          -- only an id that is new for both is left here
          rcases safe with rejected | written | fresh | undone
          · exact absurd (accepted first) rejected
          · obtain ⟨_, _, succeeded, -⟩ := insert_accepted write.id (accepted first)
              written.2.1 written.2.2.2
            cases succeeded.symm.trans second
          · rw [addFails_of_insert first] at fresh
            cases fresh.1
          · obtain ⟨-, invisible, unknown, undoes⟩ := undone
            have mapped := idMapping_of_insertion kind
            rw [invisible, undoes]
            refine ⟨shadow', rfl, formed.delete ?_ none, shadowFormed', fun id => ?_⟩
            · exact formed.mapped_lt _ _ ((formed.mapped_iff _ _).mp mapped)
            · change live config (primary'.delete internalId none).2 id
                = live config shadow' id
              rw [live_of_failed (.inr unknown) second, ← same, live_delete formed, after]
              have owned : owner config primary' internalId = some write.id := by
                rw [owner, (formed.mapped_iff _ _).mp mapped]
                simp [after]
              rw [owned]
              by_cases own : write.id = id
              · rw [if_pos (congrArg some own), ← own, invisible]
              · rw [if_neg fun equal => own (Option.some.inj equal), if_neg (Ne.symm own)]

def liveAfter (config : HnswConfig) (writes : List Write) (before : String → Option (List Score))
    : String → Option (List Score) :=
  writes.foldl (fun lives write id =>
    if id = write.id then some (kept config write.vector) else lives id) before

theorem insertItems_ok {faults : Write → UsearchFaults} {index} (writes : List Write)
    (wellFormed : index.WellFormed)
    (sound : ∀ write ∈ writes, Accepted config write.vector ∧ (faults write).addFails = none)
    (roomy : Roomy index writes.length)
    : ∃ results next, insertItems config faults index writes = (.ok results, next)
      ∧ next.WellFormed
      ∧ ∀ id, live config next id = liveAfter config writes (live config index) id := by
  induction writes generalizing index with
  | nil => exact ⟨[], index, rfl, wellFormed, fun _ => rfl⟩
  | cons write rest ih =>
    obtain ⟨accepted, adds⟩ := sound write mem_cons_self
    have bound : index.nextId + (rest.length + 1) < 2 ^ 63 := roomy
    have room : Roomy index 1 := by
      unfold Roomy
      omega
    obtain ⟨internalId, next, inserted, grown⟩ := insert_accepted write.id accepted adds room
    have kind := index.insertion config (faults write) write.id write.vector
    rw [inserted] at kind
    dsimp only at kind
    obtain ⟨results, last, continued, formed, lives⟩ := ih (wellFormed.insertion kind)
      (fun other member => sound other (mem_cons_of_mem _ member)) (by
        unfold Roomy
        omega)
    refine ⟨internalId :: results, last, ?_, formed, fun id => ?_⟩
    · rw [insertItems, inserted]
      dsimp only
      rw [continued]
      rfl
    · have written : live config next = fun id => if id = write.id
          then some (kept config write.vector) else live config index id :=
        funext fun _ => live_of_insertion wellFormed kind
      rw [lives, written]
      rfl

theorem alike_insertBatch (primaryFormed : primary.WellFormed) (shadowFormed : shadow.WellFormed)
    (same : ∀ id, live config primary id = live config shadow id) {writes}
    (safe : Safe config ⟨primary, some shadow⟩ (.insertBatch writes))
    : Alike config (RebuildManager.insertBatch config ⟨primary, some shadow⟩ writes).2 := by
  unfold RebuildManager.insertBatch
  dsimp only
  rcases safe with ⟨first, isFirst, rejected⟩ | ⟨sound, roomy, shadowRoomy⟩
  · cases writes with
    | nil => cases isFirst
    | cons write rest =>
      obtain rfl : first = write := mem_singleton.mp isFirst
      obtain ⟨error, failed⟩ := @insert_rejected config primary _ first.primary first.id rejected
      rw [insertItems, failed]
      exact ⟨shadow, rfl, primaryFormed, shadowFormed, same⟩
  · obtain ⟨results, primary', inserted, formed, lives⟩ := @insertItems_ok config Write.primary
      primary writes primaryFormed (fun write member => ⟨(sound write member).1,
        (sound write member).2.1⟩) roomy
    obtain ⟨_, shadow', copied, shadowFormed', shadowLives⟩ := @insertItems_ok config Write.shadow
      shadow writes shadowFormed (fun write member => ⟨(sound write member).1,
        (sound write member).2.2⟩) shadowRoomy
    rw [inserted, copied]
    refine ⟨shadow', rfl, formed, shadowFormed', fun id => ?_⟩
    dsimp only
    rw [lives, shadowLives, funext same]

theorem alike_delete (primaryFormed : primary.WellFormed) (shadowFormed : shadow.WellFormed)
    (same : ∀ id, live config primary id = live config shadow id) {internalId : Nat}
    {shadowFault primaryFault}
    (safe : Safe config ⟨primary, some shadow⟩ (.delete internalId shadowFault primaryFault))
    : Alike config (RebuildManager.delete ⟨primary, some shadow⟩ internalId shadowFault
        primaryFault).2 := by
  unfold RebuildManager.delete
  cases shadowFault with
  | some error => exact ⟨shadow, rfl, primaryFormed, shadowFormed, same⟩
  | none =>
    obtain ⟨shadowGiven, given, owners⟩ := Or.resolve_left safe (by simp)
    refine ⟨(shadow.delete internalId none).2, rfl, primaryFormed.delete given primaryFault,
      shadowFormed.delete shadowGiven none, fun id => ?_⟩
    change live config (primary.delete internalId primaryFault).2 id
      = live config (shadow.delete internalId none).2 id
    rw [live_delete shadowFormed, owners, ← same]
    cases primaryFault with
    | some error => simp [delete]
    | none => exact live_delete primaryFormed

/-- A safe write keeps both indexes alike. -/
theorem Alike.perform {manager} (alike : Alike config manager) {action}
    (safe : Safe config manager action)
    : Alike config (perform config manager action) := by
  obtain ⟨primary, set⟩ := manager
  obtain ⟨shadow, rfl, primaryFormed, shadowFormed, same⟩ := alike
  cases action with
  | insert write => exact alike_insert primaryFormed shadowFormed same safe
  | insertBatch writes => exact alike_insertBatch primaryFormed shadowFormed same safe
  | delete internalId shadowFault primaryFault =>
    exact alike_delete primaryFormed shadowFormed same safe

end Manager

/-- Swapping changes no live vector if the shadow starts with those of the primary and every write
is safe.
Witness: each safe write keeps the indexes alike.
-/
theorem swap_keeps_live_vectors (config : HnswConfig) (primary shadow : HnswIndex)
    (primaryFormed : primary.WellFormed) (shadowFormed : shadow.WellFormed)
    (same : ∀ id, live config primary id = live config shadow id) (actions : List ManagerAction)
    (safe : Runs.Along (perform config) (Safe config) ⟨primary, some shadow⟩ actions)
    : ∃ swapped, (actions.foldl (perform config) ⟨primary, some shadow⟩).swapIndices = .ok swapped
      ∧ ∀ id, live config swapped.primary id
        = live config (actions.foldl (perform config) ⟨primary, some shadow⟩).primary id := by
  have alike : Alike config (actions.foldl (perform config) ⟨primary, some shadow⟩) :=
    Runs.Along.invariant (fun _ _ before permitted => before.perform permitted) safe
      ⟨shadow, rfl, primaryFormed, shadowFormed, same⟩
  obtain ⟨last, isShadow, -, -, equal⟩ := alike
  refine ⟨⟨last, none⟩, ?_, fun id => (equal id).symm⟩
  rw [RebuildManager.swapIndices, isShadow]

def sampleWrite (id : String) (value : ℚ) : Write :=
  { id, vector := [.finite value], primary := {}, shadow := {}, rollback := none }

def pairIndex (first second : String × ℚ) : HnswIndex :=
  (insertItems IndexRun.lineConfig Write.primary .empty
    [sampleWrite first.1 first.2, sampleWrite second.1 second.2]).2

/-- A deletion, insertions, one of them undone after the shadow failed, a batch and a refused
deletion. -/
def safeWrites : List ManagerAction :=
  [.delete 0 none none, .insert (sampleWrite "a" 3),
    .insert { sampleWrite "c" 4 with shadow := { addFails := some "out of memory" } },
    .insertBatch [sampleWrite "c" 5, sampleWrite "a" 6], .delete 0 (some .indexNotReady) none]

theorem safe_writes_survive_swap
    : let index := pairIndex ("a", 1) ("b", 2)
      ∃ swapped, (safeWrites.foldl (perform IndexRun.lineConfig)
          ⟨index, some index⟩).swapIndices = .ok swapped
      ∧ ∀ id, live IndexRun.lineConfig swapped.primary id
        = live IndexRun.lineConfig (safeWrites.foldl (perform IndexRun.lineConfig)
          ⟨index, some index⟩).primary id := by
  have formed : (pairIndex ("a", 1) ("b", 2)).WellFormed := by
    obtain ⟨_, _, inserted, formed, -⟩ := @insertItems_ok IndexRun.lineConfig Write.primary .empty
      [sampleWrite "a" 1, sampleWrite "b" 2] wellFormed_empty (by decide +kernel)
      (by norm_num [Roomy, empty])
    rw [pairIndex, inserted]
    exact formed
  exact swap_keeps_live_vectors IndexRun.lineConfig _ _ formed formed (fun _ => rfl) safeWrites
    (by decide +kernel)

def beforeAndAfterSwap (manager : RebuildManager)
    : List (Option (List Score)) × Option (List (Option (List Score))) :=
  let lives (index : HnswIndex) := ["a", "b"].map (live IndexRun.lineConfig index)
  (lives manager.primary, manager.swapIndices.toOption.map fun swapped => lives swapped.primary)

/-- A deletion by internal id, a batch with a bad vector, and an upsert failing on the shadow. -/
theorem swap_changes_live_vectors
    : beforeAndAfterSwap (perform IndexRun.lineConfig
          ⟨pairIndex ("a", 1) ("b", 2), some (pairIndex ("b", 2) ("a", 1))⟩ (.delete 0 none none))
        = ([none, some [.finite 2]], some [some [.finite 1], none])
      ∧ beforeAndAfterSwap (perform IndexRun.lineConfig ⟨.empty, some .empty⟩
          (.insertBatch [sampleWrite "a" 1, { sampleWrite "b" 2 with vector := [] }]))
        = ([some [.finite 1], none], some [none, none])
      ∧ beforeAndAfterSwap (perform IndexRun.lineConfig
          ⟨pairIndex ("a", 1) ("b", 2), some (pairIndex ("a", 1) ("b", 2))⟩
          (.insert { sampleWrite "a" 3 with shadow := { addFails := some "out of memory" } }))
        = ([some [.finite 3], some [.finite 2]], some [none, some [.finite 2]]) := by
  decide +kernel

end AkiDB.Rebuild
