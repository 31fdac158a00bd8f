import AkiDB.Library.Runs
import AkiDB.Rebuild.StateMachine

/-! The stored rebuild operations of all shards. A start looks at the latest of its shard only. -/

namespace AkiDB.Rebuild
open List PersistentRebuildStateMachine

/-- An operation with its record, which a cleanup may have deleted from the store. -/
structure StoredOperation (Checkpoint : Type) where
  shardId : String
  record : RebuildStateRecord Checkpoint
  stored : Bool

/-- The calls that save a phase of work. -/
def RebuildWork.isTransition {Checkpoint : Type} : RebuildWork Checkpoint → Bool
  | scanning _ | building .. | replaying _ | validating _ | swapping | cleaning _ | complete _ =>
    true
  | _ => false

/-- Operations are numbered as they start; so are a hash map's answers to a start. -/
inductive OperationCall (Checkpoint : Type) where
  | start (shardId : String) (walLsn checkpointInterval answer : Nat)
  | transition (id : Nat) (work : { work : RebuildWork Checkpoint // work.isTransition })
  | fail (id : Nat) (error : String)
  | reset (id : Nat)
  | cleanup (maxAgeSecs : Nat)

variable {Checkpoint : Type}

namespace StoredOperation

def InProgress (operation : StoredOperation Checkpoint) : Prop :=
  operation.stored ∧ operation.record.phase.isInProgress

def save (call : RebuildWorld Checkpoint → RebuildWorld Checkpoint)
    (operation : StoredOperation Checkpoint) : StoredOperation Checkpoint :=
  { operation with record := (call ⟨operation.record, operation.record⟩).saved, stored := true }

def resetForRetry (now : Nat) (operation : StoredOperation Checkpoint)
    : StoredOperation Checkpoint :=
  match operation.record.phase with
  | .failed .. => operation.save (PersistentRebuildStateMachine.resetForRetry now)
  | _ => operation

def shouldCleanup (maxRetries maxAgeSecs now : Nat) (operation : StoredOperation Checkpoint)
    : Bool :=
  match operation.record.phase with
  | .completed .. => maxAgeSecs < now - operation.record.updatedAt
  | .failed _ _ retryCount _ =>
    maxRetries ≤ retryCount && maxAgeSecs < now - operation.record.updatedAt
  | _ => false

end StoredOperation

/-- The operations of a shard that started last, as far as seconds tell. -/
def latestOf (operations : List (StoredOperation Checkpoint)) (shardId : String)
    : List (StoredOperation Checkpoint) :=
  let matching := operations.filter fun operation =>
    operation.stored && operation.shardId == shardId
  matching.filter fun operation =>
    matching.all (·.record.startedAt ≤ operation.record.startedAt)

/-- One of them, as the order of a hash map has it. -/
def loadByShard (operations : List (StoredOperation Checkpoint)) (shardId : String) (answer : Nat)
    : Option (StoredOperation Checkpoint) :=
  (latestOf operations shardId)[answer % (latestOf operations shardId).length]?

namespace OperationCall

/-- A call, made in a second, and the operations after it. -/
def perform (maxRetries : Nat) (operations : List (StoredOperation Checkpoint))
    : Nat × OperationCall Checkpoint → List (StoredOperation Checkpoint)
  | (now, start shardId walLsn checkpointInterval answer) =>
    if (loadByShard operations shardId answer).any (·.record.phase.isInProgress) then operations
    else operations ++ [⟨shardId, (startOperation now walLsn checkpointInterval).saved, true⟩]
  | (now, transition id work) => operations.modify id (·.save (work.1.perform now))
  | (now, fail id error) => operations.modify id (·.save (failOperation now error))
  | (now, reset id) => operations.modify id (·.resetForRetry now)
  | (now, cleanup maxAgeSecs) => operations.map fun operation =>
    if operation.shouldCleanup maxRetries maxAgeSecs now then { operation with stored := false }
    else operation

def IsLast (operations : List (StoredOperation Checkpoint)) (id : Nat) : Prop :=
  ∀ later (own : id < operations.length) (stands : later < operations.length), id < later →
    operations[id].shardId ≠ operations[later].shardId

/-- Operations of a shard start in later and later seconds, and other calls are about the last. -/
def Orderly (operations : List (StoredOperation Checkpoint))
    : Nat × OperationCall Checkpoint → Prop
  | (now, start shardId ..) =>
    ∀ operation ∈ operations, operation.shardId = shardId → operation.record.startedAt < now
  | (_, transition id _) | (_, fail id _) | (_, reset id) => IsLast operations id
  | (_, cleanup _) => True

end OperationCall

open OperationCall

def Precedes (earlier later : StoredOperation Checkpoint) : Prop :=
  earlier.shardId = later.shardId →
    ¬earlier.InProgress ∧ earlier.record.startedAt < later.record.startedAt

variable {operations : List (StoredOperation Checkpoint)}

theorem pairwise_modify (ordered : operations.Pairwise Precedes) {id : Nat}
    (last : IsLast operations id) {change : StoredOperation Checkpoint → StoredOperation Checkpoint}
    (sameShard : ∀ operation, (change operation).shardId = operation.shardId)
    (sameStart : ∀ operation, (change operation).record.startedAt = operation.record.startedAt)
    : (operations.modify id change).Pairwise Precedes := by
  rw [pairwise_iff_getElem] at ordered ⊢
  intro i j inside within before
  rw [length_modify] at inside within
  have precedes := ordered i j inside within before
  simp only [getElem_modify]
  split_ifs with first second second
  · omega
  -- the changed operation is the last one of its shard
  · subst first
    exact fun same => absurd ((sameShard _).symm.trans same) (last j inside within before)
  · subst second
    intro same
    rw [sameStart]
    exact precedes (same.trans (sameShard _))
  · exact precedes

theorem loadByShard_inProgress (ordered : operations.Pairwise Precedes) {operation}
    (member : operation ∈ operations) (inProgress : operation.InProgress) (answer : Nat)
    : loadByShard operations operation.shardId answer = some operation := by
  have unique : ∀ other ∈ operations, other.shardId = operation.shardId →
      operation.record.startedAt ≤ other.record.startedAt → other = operation := by
    rw [pairwise_iff_getElem] at ordered
    intro other stands same later
    obtain ⟨i, own, rfl⟩ := getElem_of_mem member
    obtain ⟨j, within, rfl⟩ := getElem_of_mem stands
    rcases Nat.lt_trichotomy i j with before | rfl | after
    · exact absurd inProgress (ordered i j own within before same.symm).1
    · rfl
    · exact absurd (ordered j i within own after same).2 (Nat.not_lt.mpr later)
  have found : operation ∈ latestOf operations operation.shardId := by
    simp only [latestOf, mem_filter, all_eq_true, Bool.and_eq_true, beq_iff_eq, decide_eq_true_eq]
    refine ⟨⟨member, inProgress.1, trivial⟩, fun other matching => ?_⟩
    by_contra later
    rw [unique other matching.1 matching.2.2 (by omega)] at later
    exact later le_rfl
  have only : ∀ other ∈ latestOf operations operation.shardId, other = operation := by
    intro other latest
    simp only [latestOf, mem_filter, all_eq_true, Bool.and_eq_true, beq_iff_eq,
      decide_eq_true_eq] at latest
    exact unique other latest.1.1 latest.1.2.2 (latest.2 operation ⟨member, inProgress.1, rfl⟩)
  have chosen := Nat.mod_lt answer (length_pos_of_mem found)
  exact (getElem?_eq_getElem chosen).trans (congrArg some (only _ (getElem_mem chosen)))

/-- An orderly call keeps operations in order. -/
theorem precedes_perform (maxRetries : Nat) (ordered : operations.Pairwise Precedes)
    (call : Nat × OperationCall Checkpoint) (orderly : Orderly operations call)
    : (perform maxRetries operations call).Pairwise Precedes := by
  obtain ⟨now, call⟩ := call
  cases call with
  | start shardId walLsn checkpointInterval answer =>
    simp only [perform]
    split_ifs with refused
    · exact ordered
    · refine pairwise_append.mpr ⟨ordered, pairwise_singleton .., fun earlier member _ new => ?_⟩
      obtain rfl := mem_singleton.mp new
      rintro rfl
      -- an operation in progress would have been found
      refine ⟨fun inProgress => refused ?_, orderly earlier member rfl⟩
      rw [loadByShard_inProgress ordered member inProgress answer]
      exact inProgress.2
  | transition id work =>
    refine pairwise_modify ordered orderly (fun _ => rfl) fun operation => ?_
    obtain ⟨work, isTransition⟩ := work
    cases work <;> first | rfl | cases isTransition
  | fail id error =>
    refine pairwise_modify ordered orderly (fun _ => rfl) fun operation => ?_
    simp only [StoredOperation.save, failOperation]
    split <;> rfl
  | reset id =>
    have kept (operation : StoredOperation Checkpoint)
        : (operation.resetForRetry now).shardId = operation.shardId
          ∧ (operation.resetForRetry now).record.startedAt = operation.record.startedAt := by
      unfold StoredOperation.resetForRetry
      split
      · next entered => simp [StoredOperation.save, resetForRetry, entered, store]
      · exact ⟨rfl, rfl⟩
    exact pairwise_modify ordered orderly (fun _ => (kept _).1) fun _ => (kept _).2
  | cleanup maxAgeSecs =>
    have deleted (operation : StoredOperation Checkpoint)
        : ¬{ operation with stored := false }.InProgress :=
      fun inProgress => Bool.false_ne_true inProgress.1
    refine pairwise_map.mpr (ordered.imp fun precedes => ?_)
    split_ifs
    · exact fun same => ⟨deleted _, (precedes same).2⟩
    · exact fun same => ⟨deleted _, (precedes same).2⟩
    · exact precedes
    · exact precedes

/-- After every orderly run at most one stored operation of each shard is in progress. -/
theorem one_in_progress (maxRetries : Nat)
    (run : { calls : List (Nat × OperationCall Checkpoint)
      // Runs.Along (perform maxRetries) Orderly [] calls })
    : (run.1.foldl (perform maxRetries) []).Pairwise fun earlier later =>
      earlier.shardId = later.shardId → ¬(earlier.InProgress ∧ later.InProgress) := by
  have ordered : (run.1.foldl (perform maxRetries) []).Pairwise Precedes := by
    refine run.2.invariant (fun _ call ordered orderly => ?_) Pairwise.nil
    exact precedes_perform maxRetries ordered call orderly
  exact ordered.imp fun precedes same both => (precedes same).1 both.1

/-- A failed operation is retried, and the next starts after it failed again. -/
theorem one_after_another
    : let calls : List (Nat × OperationCall Unit) := [(0, .start "shard" 0 1 0),
        (1, .fail 0 "disk"), (2, .reset 0), (3, .fail 0 "disk"), (4, .start "shard" 0 1 0)]
      (calls.foldl (perform 3) []).Pairwise fun earlier later =>
        earlier.shardId = later.shardId → ¬(earlier.InProgress ∧ later.InProgress) := by
  intro calls
  refine one_in_progress 3 ⟨calls, nofun, ?_, ?_, ?_, ?_, trivial⟩
  case refine_4 =>
    change ∀ operation ∈ _, _ → _ < 4
    decide
  all_goals exact fun _ _ stands after => absurd stands (Nat.not_lt_of_le after)

/-- A failed operation is retried while a later one of its shard runs. -/
theorem retried_beside_another
    : let operations := [(0, .start "shard" 0 1 0), (1, .fail 0 "disk"), (2, .start "shard" 0 1 0),
        (3, .reset 0)].foldl (@perform Unit 3) []
      operations.map (fun operation => operation.stored && operation.record.phase.isInProgress)
        = [true, true] := by
  decide

end AkiDB.Rebuild
