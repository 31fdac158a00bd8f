import Mathlib.Data.List.Basic
import Mathlib.Tactic.Common

/-! Deletes and updates of one id over all shards: what is reported against what is left. -/

namespace AkiDB.Coordinator
open List

inductive ShardCopy (Payload : Type) where
  | absent
  | live (payload : Payload)
  | deleted

/-- How the call of one shard ends. A call without an answer may have been applied. -/
inductive CallOutcome where
  | noPool
  | refused
  | unanswered (applied : Bool)
  | answered
  deriving DecidableEq

inductive DeleteStatus where
  | deleted
  | notFound
  | alreadyDeleted
  deriving DecidableEq

inductive UpdateStatus where
  | updated
  | created
  deriving DecidableEq

def CallOutcome.applied : CallOutcome → Bool
  | answered => true
  | unanswered applied => applied
  | _ => false

namespace ShardCopy

variable {Payload : Type}

def isLive : ShardCopy Payload → Bool
  | live _ => true
  | _ => false

def deleteStatus : ShardCopy Payload → DeleteStatus
  | live _ => .deleted
  | deleted => .alreadyDeleted
  | absent => .notFound

def delete : ShardCopy Payload → ShardCopy Payload
  | live _ => deleted
  | copy => copy

theorem delete_not_live (copy : ShardCopy Payload) : copy.delete.isLive = false := by
  cases copy <;> rfl

end ShardCopy

/-- The id on every shard. -/
abbrev Holdings (Payload : Type) := String → ShardCopy Payload

structure BroadcastDeleteResult where
  status : DeleteStatus
  foundOnShard : Option String
  respondingShards : List String
  failedShards : List String

namespace BroadcastDeleteResult

def nothing : BroadcastDeleteResult :=
  { status := .notFound, foundOnShard := none, respondingShards := [], failedShards := [] }

variable (result : BroadcastDeleteResult)

def wasDeleted : Bool :=
  result.status = .deleted

def isComplete : Bool :=
  result.failedShards.isEmpty

@[simp]
theorem wasDeleted_iff : result.wasDeleted = true ↔ result.status = .deleted :=
  decide_eq_true_iff

@[simp]
theorem isComplete_iff : result.isComplete = true ↔ result.failedShards = [] :=
  List.isEmpty_iff

def collect (shardId : String)
    : Option DeleteStatus → BroadcastDeleteResult
  | none => { result with failedShards := result.failedShards ++ [shardId] }
  | some .deleted =>
    {
      result with
      respondingShards := result.respondingShards ++ [shardId]
      status := .deleted
      foundOnShard := some shardId
    }
  | some .alreadyDeleted =>
    {
      result with
      respondingShards := result.respondingShards ++ [shardId]
      status := if result.status = .deleted then .deleted else .alreadyDeleted
    }
  | some .notFound => { result with respondingShards := result.respondingShards ++ [shardId] }

end BroadcastDeleteResult

section Broadcasts

variable {Payload : Type} (outcome : String → CallOutcome) (holdings : Holdings Payload)

def deleteAnswer (shardId : String) : Option DeleteStatus :=
  if outcome shardId = .answered then some (holdings shardId).deleteStatus else none

section
variable (shards : List String)

/-- Shards without a pool fail before the tasks are awaited in order. -/
def collectDeletes : BroadcastDeleteResult :=
  (shards.filter fun shardId => outcome shardId ≠ .noPool).foldl
    (fun result shardId => result.collect shardId (deleteAnswer outcome holdings shardId))
    { BroadcastDeleteResult.nothing with
      failedShards := shards.filter fun shardId => outcome shardId = .noPool }

def applyDeletes : Holdings Payload :=
  fun shardId =>
    if shardId ∈ shards ∧ (outcome shardId).applied then (holdings shardId).delete
    else holdings shardId

/-- A broadcast to no shard is an error. -/
def broadcastDelete : Option BroadcastDeleteResult × Holdings Payload :=
  if shards = [] then (none, holdings)
  else (some (collectDeletes outcome holdings shards), applyDeletes outcome holdings shards)

def broadcastDeleteExcept (exceptShard : String)
    : BroadcastDeleteResult × Holdings Payload :=
  let others := shards.filter (· ≠ exceptShard)
  if others = [] then (.nothing, holdings)
  else (collectDeletes outcome holdings others, applyDeletes outcome holdings others)

structure BroadcastUpdateResult where
  deleteResult : BroadcastDeleteResult
  updateSuccess : Bool
  targetShard : String

/-- The copy goes to the shard the router names first, and only then from the others. -/
def broadcastUpdate (target : String) (updateOutcome : CallOutcome)
    (payload : Payload) : Option BroadcastUpdateResult × Holdings Payload :=
  let written : Holdings Payload :=
    if updateOutcome.applied then Function.update holdings target (.live payload) else holdings
  match updateOutcome with
  | .noPool => (none, holdings)
  | .answered =>
    let (deleteResult, left) := broadcastDeleteExcept outcome written shards target
    (some ⟨deleteResult, true, target⟩, left)
  | _ => (some ⟨.nothing, false, target⟩, written)

structure DeleteResponse where
  success : Bool
  status : DeleteStatus

structure UpdateResponse where
  success : Bool
  status : UpdateStatus

def CoordinatorService.delete : Option DeleteResponse × Holdings Payload :=
  let (result, left) := broadcastDelete outcome holdings shards
  (result.map fun result => ⟨result.isComplete, result.status⟩, left)

def CoordinatorService.update (target : String)
    (updateOutcome : CallOutcome) (payload : Payload)
    : Option UpdateResponse × Holdings Payload :=
  let (result, left) := broadcastUpdate outcome holdings shards target updateOutcome payload
  (result.map fun result =>
    ⟨result.updateSuccess && result.deleteResult.isComplete,
      if result.deleteResult.wasDeleted then .updated else .created⟩, left)

end

end Broadcasts

variable {Payload : Type} {outcome : String → CallOutcome} {holdings : Holdings Payload}

theorem collect_spec (result : BroadcastDeleteResult) (shardId : String)
    : ((result.collect shardId (deleteAnswer outcome holdings shardId)).isComplete = true
        ↔ result.isComplete = true ∧ outcome shardId = .answered)
      ∧ ((result.collect shardId (deleteAnswer outcome holdings shardId)).wasDeleted = true
        ↔ result.wasDeleted = true
          ∨ outcome shardId = .answered ∧ (holdings shardId).isLive = true) := by
  unfold deleteAnswer
  split
  · next answered =>
      cases holdings shardId <;>
        simp [BroadcastDeleteResult.collect, ShardCopy.deleteStatus, ShardCopy.isLive, answered]
  · next silent => simp [BroadcastDeleteResult.collect, silent]

theorem collectTasks_spec (shards : List String) (result : BroadcastDeleteResult)
    : ((shards.foldl
          (fun result shardId => result.collect shardId (deleteAnswer outcome holdings shardId))
          result).isComplete = true
        ↔ result.isComplete = true ∧ ∀ shardId ∈ shards, outcome shardId = .answered)
      ∧ ((shards.foldl
            (fun result shardId => result.collect shardId (deleteAnswer outcome holdings shardId))
            result).wasDeleted = true
          ↔ result.wasDeleted = true
            ∨ ∃ shardId ∈ shards, outcome shardId = .answered
              ∧ (holdings shardId).isLive = true) := by
  induction shards generalizing result with
  | nil => simp
  | cons shardId rest ih =>
    have step := @collect_spec Payload outcome holdings result shardId
    obtain ⟨complete, deleted⟩ := ih
      (result.collect shardId (deleteAnswer outcome holdings shardId))
    rw [foldl_cons, complete, deleted, step.1, step.2]
    simp only [mem_cons, forall_eq_or_imp, exists_eq_or_imp, and_assoc, or_assoc, and_self]

theorem collectDeletes_spec (shards : List String)
    : ((collectDeletes outcome holdings shards).isComplete = true
        ↔ ∀ shardId ∈ shards, outcome shardId = .answered)
      ∧ ((collectDeletes outcome holdings shards).wasDeleted = true
        ↔ ∃ shardId ∈ shards, outcome shardId = .answered
          ∧ (holdings shardId).isLive = true) := by
  obtain ⟨complete, deleted⟩ := @collectTasks_spec Payload outcome holdings
    (shards.filter fun shardId => outcome shardId ≠ .noPool)
    { BroadcastDeleteResult.nothing with
      failedShards := shards.filter fun shardId => outcome shardId = .noPool }
  unfold collectDeletes
  rw [complete, deleted]
  constructor
  · simp only [BroadcastDeleteResult.isComplete_iff, filter_eq_nil_iff,
      decide_eq_true_eq, mem_filter, ne_eq]
    constructor
    · rintro ⟨pooled, answered⟩ shardId member
      exact answered shardId ⟨member, pooled shardId member⟩
    · intro answered
      refine ⟨?_, fun shardId member => answered shardId member.1⟩
      intro shardId member absent
      simp [answered shardId member] at absent
  · simp only [BroadcastDeleteResult.wasDeleted_iff, BroadcastDeleteResult.nothing,
      decide_eq_true_eq, reduceCtorEq, false_or, mem_filter, ne_eq]
    constructor
    · rintro ⟨shardId, ⟨member, -⟩, found⟩
      exact ⟨shardId, member, found⟩
    · rintro ⟨shardId, member, answered, found⟩
      exact ⟨shardId, ⟨member, by simp [answered]⟩, answered, found⟩

variable {shards : List String} {shardId target : String}

theorem applyDeletes_of_answered (member : shardId ∈ shards)
    (answered : outcome shardId = .answered)
    : (applyDeletes outcome holdings shards shardId).isLive = false := by
  unfold applyDeletes
  rw [if_pos ⟨member, by rw [answered]; rfl⟩]
  exact ShardCopy.delete_not_live _

theorem broadcastDeleteExcept_eq (shards : List String) (target : String)
    : broadcastDeleteExcept outcome holdings shards target
      = (collectDeletes outcome holdings (shards.filter (· ≠ target)),
          applyDeletes outcome holdings (shards.filter (· ≠ target))) := by
  unfold broadcastDeleteExcept
  dsimp only
  split
  · next none =>
      rw [none]
      refine Prod.ext rfl ?_
      funext shardId
      simp [applyDeletes]
  · rfl

theorem broadcastDeleteExcept_complete
    (complete : (broadcastDeleteExcept outcome holdings shards target).1.isComplete = true)
    : let deleted := broadcastDeleteExcept outcome holdings shards target
      (deleted.1.wasDeleted = true
        ↔ ∃ shardId ∈ shards, shardId ≠ target ∧ (holdings shardId).isLive = true)
      ∧ (∀ shardId ∈ shards, shardId ≠ target → (deleted.2 shardId).isLive = false)
      ∧ deleted.2 target = holdings target := by
  rw [broadcastDeleteExcept_eq] at complete ⊢
  have answered := collectDeletes_spec _ |>.1.mp complete
  refine ⟨?_, ?_, ?_⟩
  · rw [(collectDeletes_spec _).2]
    constructor
    · rintro ⟨shardId, member, -, found⟩
      rw [mem_filter, decide_eq_true_eq] at member
      exact ⟨shardId, member.1, member.2, found⟩
    · rintro ⟨shardId, member, other, found⟩
      have asked : shardId ∈ shards.filter (· ≠ target) :=
        mem_filter.mpr ⟨member, decide_eq_true other⟩
      exact ⟨shardId, asked, answered shardId asked, found⟩
  · intro shardId member other
    have asked : shardId ∈ shards.filter (· ≠ target) :=
      mem_filter.mpr ⟨member, decide_eq_true other⟩
    exact applyDeletes_of_answered asked (answered shardId asked)
  · simp [applyDeletes]

theorem delete_success {response}
    (reported : (CoordinatorService.delete outcome holdings shards).1 = some response)
    (success : response.success = true) (member : shardId ∈ shards)
    : ((CoordinatorService.delete outcome holdings shards).2 shardId).isLive = false := by
  have some_shard : shards ≠ [] := ne_nil_of_mem member
  simp only [CoordinatorService.delete, broadcastDelete, if_neg some_shard, Option.map_some,
    Option.some.injEq] at reported ⊢
  subst reported
  have answered := (collectDeletes_spec _).1.mp success
  exact applyDeletes_of_answered member (answered shardId member)

variable {updateOutcome : CallOutcome} {payload : Payload}

theorem update_success {response}
    (reported : (CoordinatorService.update outcome holdings shards target updateOutcome
      payload).1 = some response) (success : response.success = true)
    : let cleanup := broadcastDeleteExcept outcome
        (Function.update holdings target (.live payload)) shards target
      updateOutcome = .answered ∧ cleanup.1.isComplete = true
      ∧ response.status = (if cleanup.1.wasDeleted then .updated else .created)
      ∧ (CoordinatorService.update outcome holdings shards target updateOutcome payload).2
        = cleanup.2 := by
  cases updateOutcome with
  | answered =>
    simp only [CoordinatorService.update, broadcastUpdate, CallOutcome.applied, if_true,
      Option.map_some, Option.some.injEq] at reported ⊢
    subst reported
    exact ⟨trivial, by simpa using success, rfl, trivial⟩
  | noPool => simp [CoordinatorService.update, broadcastUpdate] at reported
  | refused =>
    simp only [CoordinatorService.update, broadcastUpdate, Option.map_some,
      Option.some.injEq] at reported
    simp [← reported] at success
  | unanswered =>
    simp only [CoordinatorService.update, broadcastUpdate, Option.map_some,
      Option.some.injEq] at reported
    simp [← reported] at success

theorem update_failed_elsewhere (failed : updateOutcome ≠ .answered) (other : shardId ≠ target)
    : (CoordinatorService.update outcome holdings shards target updateOutcome payload).2 shardId
      = holdings shardId := by
  cases updateOutcome with
  | answered => exact absurd rfl failed
  | noPool => rfl
  | refused => rfl
  | unanswered applied =>
    cases applied with
    | false => rfl
    | true => exact Function.update_of_ne other _ _

/-- What deletes and updates of an id report and leave, for every placement and every outcome.
Witness: the cleanup reports the live copies of the other shards.
-/
theorem broadcasts_leave_what_they_report {Payload : Type} (shards : List String)
    (target : { shardId : String // shardId ∈ shards }) (holdings : Holdings Payload)
    (outcome : String → CallOutcome) (updateOutcome : CallOutcome) (payload : Payload)
    : let delete := CoordinatorService.delete outcome holdings shards
      let update := CoordinatorService.update outcome holdings shards target updateOutcome payload
      (∀ response, delete.1 = some response → response.success = true →
          ∀ shardId ∈ shards, (delete.2 shardId).isLive = false)
        ∧ (∀ response, update.1 = some response → response.success = true →
          update.2 target = .live payload
          ∧ ∀ shardId ∈ shards, shardId ≠ target → (update.2 shardId).isLive = false)
        ∧ (updateOutcome ≠ .answered →
          ∀ shardId ∈ shards, shardId ≠ target → update.2 shardId = holdings shardId)
        ∧ (∀ response, update.1 = some response → response.success = true →
          (((response.status = .updated ↔ ∃ shardId ∈ shards, (holdings shardId).isLive = true)
              ∧ (response.status = .created ↔
                ¬∃ shardId ∈ shards, (holdings shardId).isLive = true))
            ↔ ((holdings target).isLive = true →
              ∃ shardId ∈ shards, shardId ≠ target ∧ (holdings shardId).isLive = true))) := by
  obtain ⟨target, routed⟩ := target
  refine ⟨?_, ?_, ?_, ?_⟩
  · intro response reported success shardId member
    exact delete_success reported success member
  · intro response reported success
    obtain ⟨-, complete, -, left⟩ := update_success reported success
    obtain ⟨-, others, kept⟩ := broadcastDeleteExcept_complete complete
    rw [left]
    exact ⟨by rw [kept, Function.update_self], others⟩
  · intro failed shardId _ other
    exact update_failed_elsewhere failed other
  · intro response reported success
    obtain ⟨-, complete, status, -⟩ := update_success reported success
    obtain ⟨found, -, -⟩ := broadcastDeleteExcept_complete complete
    -- The cleanup runs after the target was written, and does not ask the target.
    have elsewhere : (∃ shardId ∈ shards, shardId ≠ target
          ∧ (Function.update holdings target (.live payload) shardId).isLive = true)
        ↔ ∃ shardId ∈ shards, shardId ≠ target ∧ (holdings shardId).isLive = true := by
      refine exists_congr fun shardId => and_congr_right fun _ => and_congr_right fun other => ?_
      rw [Function.update_of_ne other]
    rw [elsewhere] at found
    have anywhere : (∃ shardId ∈ shards, (holdings shardId).isLive = true)
        ↔ (holdings target).isLive = true
          ∨ ∃ shardId ∈ shards, shardId ≠ target ∧ (holdings shardId).isLive = true := by
      constructor
      · rintro ⟨shardId, member, live⟩
        by_cases same : shardId = target
        · exact .inl (same ▸ live)
        · exact .inr ⟨shardId, member, same, live⟩
      · rintro (live | ⟨shardId, member, -, live⟩)
        · exact ⟨target, routed, live⟩
        · exact ⟨shardId, member, live⟩
    have updated : response.status = .updated
        ↔ ∃ shardId ∈ shards, shardId ≠ target ∧ (holdings shardId).isLive = true := by
      rw [status, ← found]
      split <;> simp [*]
    have created : response.status = .created ↔ ¬response.status = .updated := by
      cases response.status <;> simp
    -- A copy on the target alone is overwritten, but told as created.
    rw [created, updated, anywhere]
    constructor
    · rintro ⟨told, -⟩ live
      exact told.mpr (.inl live)
    · intro another
      have told := Iff.intro Or.inr fun live => live.elim another id
      exact ⟨told, not_congr told⟩

/-- The only copy is on the target: its update succeeds and is reported as a creation. -/
theorem lone_target_copy_reported_created
    : let holdings : Holdings Nat := fun shardId => if shardId = "a" then .live 1 else .absent
      let update :=
        CoordinatorService.update (fun _ => .answered) holdings ["a", "b"] "a" .answered 2
      (holdings "a").isLive = true
      ∧ update.1.map (·.success) = some true
      ∧ update.1.map (·.status) = some .created := by
  decide

end AkiDB.Coordinator
