import Mathlib

/-!
Admission under concurrent calls: the counters are off by the number of calls dropped at an await.
-/

namespace AkiDB.Coordinator
open List

theorem countP_move {Phase : Type} (counts : Phase → Bool) {calls : List Phase} {call : Nat}
    {before : Phase} (found : calls[call]? = some before) (after : Phase)
    : (calls.set call after).countP counts + (counts before).toNat
      = calls.countP counts + (counts after).toNat := by
  obtain ⟨inside, rfl⟩ := List.getElem?_eq_some_iff.mp found
  have positive : (counts calls[call]).toNat ≤ calls.countP counts := by
    cases holds : counts calls[call] with
    | false => simp
    | true => exact countP_pos_iff.mpr ⟨_, getElem_mem inside, holds⟩
  rw [countP_set inside]
  generalize counts calls[call] = was at positive ⊢
  cases was <;> cases counts after <;>
    simp only [Bool.toNat_true, Bool.toNat_false, Bool.false_eq_true, if_true, if_false]
      at positive ⊢ <;>
    omega

structure BackpressureConfig where
  maxConcurrent : Nat
  /-- Queue depth before rejecting; zero is no limit. -/
  maxQueueDepth : Nat
  enableLoadShedding : Bool

/-- The semaphore admits at most `2 ^ 61 - 1` permits. -/
def sanitizeConfig (config : BackpressureConfig) : BackpressureConfig :=
  { config with maxConcurrent := max 1 (min config.maxConcurrent (2 ^ 61 - 1)) }

inductive CallPhase where
  /-- It has its queue slot and is at the semaphore. -/
  | waiting
  /-- The semaphore is full and the call is not to wait. -/
  | shed
  | permitted
  /-- It has given its queue slot back. -/
  | admitted
  /-- Its guard is alive. -/
  | live
  /-- The guard is being dropped and still has its permit. -/
  | leaving
  | ended
  /-- Its future was dropped at the await. -/
  | cancelled
  deriving DecidableEq

namespace CallPhase

def queued : CallPhase → Bool
  | waiting | shed | permitted => true
  | _ => false

def holdsPermit : CallPhase → Bool
  | permitted | admitted | live | leaving => true
  | _ => false

def isLive (phase : CallPhase) : Bool :=
  phase = live

def isCancelled (phase : CallPhase) : Bool :=
  phase = cancelled

end CallPhase

structure BackpressureController where
  permits : Nat
  inFlight : Nat
  queueDepth : Nat
  /-- Every call that has had a queue slot. -/
  calls : List CallPhase

inductive BackpressureAction where
  | request (rateLimited : Bool)
  | acquire (call : Nat)
  | release (call : Nat)
  | enter (call : Nat)
  | dropGuard (call : Nat)
  | returnPermit (call : Nat)
  | cancel (call : Nat)

def reserveQueueSlot (counter maxDepth : Nat) : Except Nat Nat :=
  if maxDepth > 0 ∧ counter ≥ maxDepth then .error counter else .ok (counter + 1)

namespace BackpressureController

variable (config : BackpressureConfig)

def withConfig : BackpressureController where
  permits := (sanitizeConfig config).maxConcurrent
  inFlight := 0
  queueDepth := 0
  calls := []

variable (controller : BackpressureController)

def request (rateLimited : Bool) : BackpressureController :=
  if rateLimited then controller
  else
    match reserveQueueSlot controller.queueDepth config.maxQueueDepth with
    | .error _ => controller
    | .ok depth =>
      { controller with queueDepth := depth, calls := controller.calls ++ [.waiting] }

/-- With load shedding the semaphore is tried once; without, the call waits for a permit. -/
def acquire (call : Nat) : BackpressureController :=
  match controller.calls[call]? with
  | some .waiting =>
    if controller.permits > 0 then
      {
        controller with
        permits := controller.permits - 1
        calls := controller.calls.set call .permitted
      }
    else if config.enableLoadShedding then
      { controller with calls := controller.calls.set call .shed }
    else controller
  | _ => controller

def release (call : Nat) : BackpressureController :=
  match controller.calls[call]? with
  | some .permitted =>
    {
      controller with
      queueDepth := controller.queueDepth - 1
      calls := controller.calls.set call .admitted
    }
  | some .shed =>
    {
      controller with
      queueDepth := controller.queueDepth - 1
      calls := controller.calls.set call .ended
    }
  | _ => controller

def enter (call : Nat) : BackpressureController :=
  match controller.calls[call]? with
  | some .admitted =>
    {
      controller with
      inFlight := controller.inFlight + 1
      calls := controller.calls.set call .live
    }
  | _ => controller

/-- The guard's own drop runs before its permit is dropped. -/
def dropGuard (call : Nat) : BackpressureController :=
  match controller.calls[call]? with
  | some .live =>
    {
      controller with
      inFlight := controller.inFlight - 1
      calls := controller.calls.set call .leaving
    }
  | _ => controller

def returnPermit (call : Nat) : BackpressureController :=
  match controller.calls[call]? with
  | some .leaving =>
    {
      controller with
      permits := controller.permits + 1
      calls := controller.calls.set call .ended
    }
  | _ => controller

/-- A future can be dropped at the await only, where nothing gives the slot back. -/
def cancel (call : Nat) : BackpressureController :=
  match controller.calls[call]? with
  | some .waiting =>
    if config.enableLoadShedding then controller
    else { controller with calls := controller.calls.set call .cancelled }
  | _ => controller

def perform : BackpressureAction → BackpressureController
  | .request rateLimited => controller.request config rateLimited
  | .acquire call => controller.acquire config call
  | .release call => controller.release call
  | .enter call => controller.enter call
  | .dropGuard call => controller.dropGuard call
  | .returnPermit call => controller.returnPermit call
  | .cancel call => controller.cancel config call

/-- Permits, guards and slots against the calls that have them. A cancelled call keeps its slot. -/
structure Counted : Prop where
  permits : controller.permits + controller.calls.countP CallPhase.holdsPermit
    = (sanitizeConfig config).maxConcurrent
  inFlight : controller.inFlight = controller.calls.countP CallPhase.isLive
  queueDepth : controller.queueDepth
    = controller.calls.countP CallPhase.queued + controller.calls.countP CallPhase.isCancelled

variable {config} {controller}

theorem Counted.move (counted : controller.Counted config) {call : Nat}
    {before after : CallPhase} (found : controller.calls[call]? = some before)
    {permits inFlight queueDepth : Nat}
    (permit : permits + after.holdsPermit.toNat
      = controller.permits + before.holdsPermit.toNat)
    (guard : inFlight + before.isLive.toNat = controller.inFlight + after.isLive.toNat)
    (slot : queueDepth + before.queued.toNat + before.isCancelled.toNat
      = controller.queueDepth + after.queued.toNat + after.isCancelled.toNat)
    : Counted config
        { permits, inFlight, queueDepth, calls := controller.calls.set call after } := by
  have holding := countP_move CallPhase.holdsPermit found after
  have living := countP_move CallPhase.isLive found after
  have queueing := countP_move CallPhase.queued found after
  have cancelling := countP_move CallPhase.isCancelled found after
  obtain ⟨permitsBefore, inFlightBefore, queueDepthBefore⟩ := counted
  refine ⟨?_, ?_, ?_⟩ <;> dsimp only <;> omega

theorem counted_withConfig : (withConfig config).Counted config := by
  refine ⟨?_, ?_, ?_⟩ <;> simp [withConfig]

theorem Counted.request (counted : controller.Counted config) (rateLimited : Bool)
    : (controller.request config rateLimited).Counted config := by
  unfold BackpressureController.request
  split
  · exact counted
  · split
    · exact counted
    · next depth reserved =>
        have raised : depth = controller.queueDepth + 1 := by
          unfold reserveQueueSlot at reserved
          split at reserved
          · cases reserved
          · exact (Except.ok.inj reserved).symm
        obtain ⟨permits, inFlight, queueDepth⟩ := counted
        refine ⟨?_, ?_, ?_⟩ <;>
          simp [CallPhase.holdsPermit, CallPhase.isLive, CallPhase.queued,
            CallPhase.isCancelled] <;>
          omega

/-- Every action keeps the counts. -/
theorem Counted.perform (counted : controller.Counted config) (action : BackpressureAction)
    : (controller.perform config action).Counted config := by
  cases action with
  | request rateLimited => exact counted.request rateLimited
  | acquire call =>
    show (controller.acquire config call).Counted config
    unfold BackpressureController.acquire
    split
    · next found =>
        split
        · next free =>
            refine counted.move found ?_ rfl rfl
            exact Nat.sub_add_cancel free
        · split
          · exact counted.move found rfl rfl rfl
          · exact counted
    · exact counted
  | release call =>
    have depth : ∀ {phase : CallPhase}, controller.calls[call]? = some phase →
        phase.queued = true → 0 < controller.queueDepth := by
      intro phase found queued
      have member := mem_of_getElem? found
      have positive := countP_pos_iff.mpr ⟨phase, member, queued⟩
      have total := counted.queueDepth
      omega
    show (controller.release call).Counted config
    unfold BackpressureController.release
    split
    · next found =>
        refine counted.move found rfl rfl ?_
        have positive := depth found rfl
        simp [CallPhase.queued, CallPhase.isCancelled]
        omega
    · next found =>
        refine counted.move found rfl rfl ?_
        have positive := depth found rfl
        simp [CallPhase.queued, CallPhase.isCancelled]
        omega
    · exact counted
  | enter call =>
    show (controller.enter call).Counted config
    unfold BackpressureController.enter
    split
    · next found => exact counted.move found rfl rfl rfl
    · exact counted
  | dropGuard call =>
    show (controller.dropGuard call).Counted config
    unfold BackpressureController.dropGuard
    split
    · next found =>
        refine counted.move found rfl ?_ rfl
        have positive := countP_pos_iff.mpr
          ⟨_, mem_of_getElem? found, (rfl : CallPhase.isLive .live = true)⟩
        rw [← counted.inFlight] at positive
        exact Nat.sub_add_cancel positive
    · exact counted
  | returnPermit call =>
    show (controller.returnPermit call).Counted config
    unfold BackpressureController.returnPermit
    split
    · next found => exact counted.move found rfl rfl rfl
    · exact counted
  | cancel call =>
    show (controller.cancel config call).Counted config
    unfold BackpressureController.cancel
    split
    · next found =>
        split
        · exact counted
        · exact counted.move found rfl rfl rfl
    · exact counted

def after (config : BackpressureConfig) (actions : List BackpressureAction)
    : BackpressureController :=
  actions.foldl (fun controller action => controller.perform config action) (withConfig config)

theorem counted_after (config : BackpressureConfig) (actions : List BackpressureAction)
    : (after config actions).Counted config :=
  List.foldlRecOn (motive := Counted config) _ _ counted_withConfig
    fun _ counted action _ => counted.perform action

end BackpressureController

inductive BatchPhase where
  | queued
  | processing
  | finished
  | cancelled
  deriving DecidableEq

namespace BatchPhase

def isPending : BatchPhase → Bool
  | queued | processing => true
  | _ => false

def isCancelled (phase : BatchPhase) : Bool :=
  phase = cancelled

end BatchPhase

structure BatchProcessor where
  permits : Nat
  pendingRequests : Nat
  batches : List BatchPhase

inductive BatchAction where
  | process
  | tryProcess
  | acquire (batch : Nat)
  | finish (batch : Nat)
  | cancel (batch : Nat)

namespace BatchProcessor

variable (maxPendingRequests : Nat) (processor : BatchProcessor)

def new (maxConcurrentBatches : Nat) : BatchProcessor where
  permits := maxConcurrentBatches
  pendingRequests := 0
  batches := []

def submit : BatchProcessor :=
  {
    processor with
    pendingRequests := processor.pendingRequests + 1
    batches := processor.batches ++ [.queued]
  }

/-- The batch is done: the counter goes down, and the permit goes back. -/
def finish (batch : Nat) : BatchProcessor :=
  match processor.batches[batch]? with
  | some .processing =>
    {
      permits := processor.permits + 1
      pendingRequests := processor.pendingRequests - 1
      batches := processor.batches.set batch .finished
    }
  | _ => processor

def acquire (batch : Nat) : BatchProcessor :=
  match processor.batches[batch]? with
  | some .queued =>
    if processor.permits > 0 then
      {
        processor with
        permits := processor.permits - 1
        batches := processor.batches.set batch .processing
      }
    else processor
  | _ => processor

def cancel (batch : Nat) : BatchProcessor :=
  match processor.batches[batch]? with
  | some .queued => { processor with batches := processor.batches.set batch .cancelled }
  | some .processing =>
    {
      processor with
      permits := processor.permits + 1
      batches := processor.batches.set batch .cancelled
    }
  | _ => processor

def perform : BatchAction → BatchProcessor
  | .process => processor.submit
  | .tryProcess =>
    if processor.pendingRequests ≥ maxPendingRequests then processor else processor.submit
  | .acquire batch => processor.acquire batch
  | .finish batch => processor.finish batch
  | .cancel batch => processor.cancel batch

def after (maxConcurrentBatches : Nat) (actions : List BatchAction) : BatchProcessor :=
  actions.foldl (fun processor action => processor.perform maxPendingRequests action)
    (new maxConcurrentBatches)

/-- The counter counts the batches on their way and the cancelled ones. -/
def Counted : Prop :=
  processor.pendingRequests
    = processor.batches.countP BatchPhase.isPending
      + processor.batches.countP BatchPhase.isCancelled

variable {processor}

theorem Counted.move (counted : processor.Counted) {batch : Nat} {before after : BatchPhase}
    (found : processor.batches[batch]? = some before) {permits pendingRequests : Nat}
    (pending : pendingRequests + before.isPending.toNat + before.isCancelled.toNat
      = processor.pendingRequests + after.isPending.toNat + after.isCancelled.toNat)
    : Counted { permits, pendingRequests, batches := processor.batches.set batch after } := by
  have onTheWay := countP_move BatchPhase.isPending found after
  have cancelling := countP_move BatchPhase.isCancelled found after
  unfold Counted at counted ⊢
  dsimp only
  omega

theorem Counted.submit (counted : processor.Counted) : processor.submit.Counted := by
  unfold Counted at counted ⊢
  simp [BatchProcessor.submit, BatchPhase.isPending, BatchPhase.isCancelled]
  omega

theorem Counted.perform (counted : processor.Counted) (action : BatchAction)
    : (processor.perform maxPendingRequests action).Counted := by
  cases action with
  | process => exact counted.submit
  | tryProcess =>
    dsimp only [BatchProcessor.perform]
    split
    · exact counted
    · exact counted.submit
  | acquire batch =>
    show (processor.acquire batch).Counted
    unfold BatchProcessor.acquire
    split
    · next found =>
        split
        · exact counted.move found rfl
        · exact counted
    · exact counted
  | finish batch =>
    show (processor.finish batch).Counted
    unfold BatchProcessor.finish
    split
    · next found =>
        refine counted.move found ?_
        have positive := countP_pos_iff.mpr
          ⟨_, mem_of_getElem? found, (rfl : BatchPhase.isPending .processing = true)⟩
        unfold Counted at counted
        simp [BatchPhase.isPending, BatchPhase.isCancelled]
        omega
    · exact counted
  | cancel batch =>
    show (processor.cancel batch).Counted
    unfold BatchProcessor.cancel
    split
    · next found => exact counted.move found rfl
    · next found => exact counted.move found rfl
    · exact counted

theorem counted_after (maxPendingRequests maxConcurrentBatches : Nat) (actions : List BatchAction)
    : (after maxPendingRequests maxConcurrentBatches actions).Counted :=
  List.foldlRecOn (motive := Counted) _ _ (by simp [Counted, new])
    fun _ counted action _ => counted.perform maxPendingRequests action

end BatchProcessor

theorem countP_eq_zero_iff {Phase : Type} [DecidableEq Phase] {calls : List Phase}
    {phase : Phase} {counts : Phase → Bool} (named : ∀ call, counts call = true ↔ call = phase)
    : calls.countP counts = 0 ↔ phase ∉ calls := by
  rw [countP_eq_zero]
  constructor
  · intro none member
    exact none phase member ((named phase).mpr rfl)
  · intro absent call member counted
    exact absent ((named call).mp counted ▸ member)

/-- The guards alive stay within the limit; the counters are exact if no call was dropped at an
await. -/
theorem admission_counters_exact (config : BackpressureConfig)
    (actions : List BackpressureAction) (maxPendingRequests maxConcurrentBatches : Nat)
    (batchActions : List BatchAction)
    : let controller := BackpressureController.after config actions
      let processor := BatchProcessor.after maxPendingRequests maxConcurrentBatches batchActions
      (controller.inFlight = controller.calls.countP CallPhase.isLive
        ∧ controller.inFlight ≤ (sanitizeConfig config).maxConcurrent)
      ∧ (controller.queueDepth = controller.calls.countP CallPhase.queued
          ↔ CallPhase.cancelled ∉ controller.calls)
      ∧ ((∀ call ∈ controller.calls, call = .ended ∨ call = .cancelled) →
          ((∃ depth, reserveQueueSlot controller.queueDepth config.maxQueueDepth = .ok depth)
            ↔ config.maxQueueDepth = 0
              ∨ controller.calls.countP CallPhase.isCancelled < config.maxQueueDepth))
      ∧ (processor.pendingRequests = processor.batches.countP BatchPhase.isPending
          ↔ BatchPhase.cancelled ∉ processor.batches) := by
  dsimp only
  have controller := BackpressureController.counted_after config actions
  have processor := BatchProcessor.counted_after maxPendingRequests maxConcurrentBatches
    batchActions
  generalize BackpressureController.after config actions = reached at controller ⊢
  unfold BatchProcessor.Counted at processor
  generalize BatchProcessor.after maxPendingRequests maxConcurrentBatches batchActions = batches
    at processor ⊢
  have cancelledCalls : reached.calls.countP CallPhase.isCancelled = 0
      ↔ CallPhase.cancelled ∉ reached.calls :=
    countP_eq_zero_iff fun call => by simp [CallPhase.isCancelled]
  have cancelledBatches : batches.batches.countP BatchPhase.isCancelled = 0
      ↔ BatchPhase.cancelled ∉ batches.batches :=
    countP_eq_zero_iff fun batch => by simp [BatchPhase.isCancelled]
  refine ⟨⟨controller.inFlight, ?_⟩, ?_, ?_, ?_⟩
  · -- a live guard has a permit
    have holding : reached.calls.countP CallPhase.isLive
        ≤ reached.calls.countP CallPhase.holdsPermit := by
      refine countP_mono_left ?_
      intro call _ alive
      rw [of_decide_eq_true alive]
      rfl
    have permits := controller.permits
    have inFlight := controller.inFlight
    omega
  · rw [← cancelledCalls, controller.queueDepth]
    omega
  · intro allEnded
    have nobodyWaits : reached.calls.countP CallPhase.queued = 0 := by
      rw [countP_eq_zero]
      intro call member
      rcases allEnded call member with rfl | rfl <;> decide
    -- Only dropped calls still hold a slot.
    have depth := controller.queueDepth
    rw [nobodyWaits, Nat.zero_add] at depth
    rw [depth]
    unfold reserveQueueSlot
    split
    · next full =>
        refine ⟨by simp, ?_⟩
        omega
    · next free =>
        refine ⟨fun _ => ?_, fun _ => ⟨_, rfl⟩⟩
        omega
  · rw [← cancelledBatches, processor]
    omega

/-- A client that disconnects while it waits takes the only queue slot for good. -/
theorem dropped_call_keeps_slot
    : let controller := BackpressureController.after ⟨1, 1, false⟩ [.request false, .acquire 0,
        .release 0, .enter 0, .request false, .cancel 1, .dropGuard 0, .returnPermit 0]
      let processor := BatchProcessor.after 1 1 [.tryProcess, .cancel 0]
      (controller.calls = [.ended, .cancelled]
        ∧ reserveQueueSlot controller.queueDepth 1 = .error 1)
      ∧ processor.batches = [.cancelled] ∧ processor.pendingRequests = 1 := by
  decide

end AkiDB.Coordinator
