import Mathlib
import AkiDB.Ingestion.Documents

/-!
What the broker is told about a message. A message whose events failed for good is redelivered
like any other.
-/

namespace AkiDB.Ingestion
open List

def maxDeliver : Nat := 3

inductive FailureOutcome where
  | redeliver | deadLetter
deriving DecidableEq

/-- Permanent failures are dead-lettered; others are redelivered until the attempts end. -/
def decideFailureOutcome (error : IngestionError) (deliveryAttempt : Nat) : FailureOutcome :=
  if error.isPermanent || maxDeliver ≤ deliveryAttempt then .deadLetter else .redeliver

structure DlqEntry where
  originalEvent : List UInt8
  error : String
  retryCount : Nat
  stage : String
deriving DecidableEq

inductive BrokerCall where
  | ack | nack | publish (entry : DlqEntry) | terminate
deriving DecidableEq

structure BrokerFaults where
  ack : Option IngestionError := none
  nack : Option IngestionError := none
  publish : Option IngestionError := none
  terminate : Option IngestionError := none

/-- The result for each event of a message, or why there are no events. -/
abbrev Processed := Except IngestionError (List (UploadEvent × Except IngestionError Unit))

/-- The errors of events that failed. -/
def eventErrors (outcomes : List (UploadEvent × Except IngestionError Unit))
    : List (UploadEvent × IngestionError) :=
  outcomes.filterMap fun (event, outcome) => match outcome with
    | .ok () => none
    | .error error => some (event, error)

def processMessage : Processed → Except IngestionError Unit
  | .error error => .error error
  | .ok outcomes =>
    let failures := (eventErrors outcomes).map fun (event, error) =>
      event.bucket ++ "/" ++ event.key ++ ": " ++ error.display
    if failures.isEmpty then .ok ()
    else .error (.other
      (toString failures.length ++ " upload event(s) failed: " ++ "; ".intercalate failures))

structure Delivery where
  payload : List UInt8
  attempt : Nat
deriving DecidableEq

section
variable (delivery : Delivery)

def dlqEntry (error : IngestionError) : DlqEntry where
  originalEvent := delivery.payload
  error := error.display
  retryCount := (delivery.attempt - 1) % 2 ^ 32
  stage := "processing"

def settle (faults : BrokerFaults) (delivery : Delivery) (result : Except IngestionError Unit)
    : List (BrokerCall × Bool) :=
  match result with
  | .ok () => [(.ack, faults.ack.isNone)]
  | .error error => match decideFailureOutcome error delivery.attempt with
    | .redeliver => [(.nack, faults.nack.isNone)]
    -- A failed publication is logged and passed over.
    | .deadLetter =>
      [(.publish (dlqEntry delivery error), faults.publish.isNone),
        (.terminate, faults.terminate.isNone)]

/-- Why a message failed: its own error, or those of its events. -/
def failures : Processed → List IngestionError
  | .error error => [error]
  | .ok outcomes => (eventErrors outcomes).map (·.2)

/-- All failures are permanent, or there are no attempts left. -/
def Final (processed : Processed) : Prop :=
  (∀ error ∈ failures processed, error.isPermanent = true) ∨ maxDeliver ≤ delivery.attempt

instance (delivery : Delivery) (processed : Processed) : Decidable (Final delivery processed) :=
  inferInstanceAs (Decidable (_ ∨ _))

/-- What the broker should be told: acknowledged, dead-lettered, redelivered or terminated. -/
structure Lawful (processed : Processed)
    (calls : List (BrokerCall × Bool)) : Prop where
  acknowledged : .ack ∈ calls.map (·.1) ↔ failures processed = []
  deadLettered : failures processed ≠ [] →
    ((∃ entry, .publish entry ∈ calls.map (·.1)) ↔ Final delivery processed)
  redelivered : failures processed ≠ [] → (.nack ∈ calls.map (·.1) ↔ ¬Final delivery processed)
  terminated : ∀ before after done, calls = before ++ (.terminate, done) :: after →
    ∃ entry, (.publish entry, true) ∈ before

end

/-- No event fails for good with attempts left, and the dead letter queue takes its entries. -/
structure Separable (faults : BrokerFaults) (delivery : Delivery) (processed : Processed)
    : Prop where
  transient : ∀ outcomes, processed = .ok outcomes → failures processed ≠ [] →
    Final delivery processed → maxDeliver ≤ delivery.attempt
  published : failures processed ≠ [] →
    (∀ outcomes, processed = .ok outcomes → maxDeliver ≤ delivery.attempt) →
      Final delivery processed → faults.publish = none

variable {error : IngestionError} {faults : BrokerFaults} {delivery : Delivery}

theorem decideFailureOutcome_eq {deliveryAttempt : Nat}
    : decideFailureOutcome error deliveryAttempt = .deadLetter
      ↔ error.isPermanent = true ∨ maxDeliver ≤ deliveryAttempt := by
  unfold decideFailureOutcome
  split <;> simp_all

theorem settle_redeliver (outcome : decideFailureOutcome error delivery.attempt = .redeliver)
    : settle faults delivery (.error error) = [(.nack, faults.nack.isNone)] := by
  simp only [settle, outcome]

theorem settle_deadLetter (outcome : decideFailureOutcome error delivery.attempt = .deadLetter)
    : settle faults delivery (.error error)
      = [(.publish (dlqEntry delivery error), faults.publish.isNone),
        (.terminate, faults.terminate.isNone)] := by
  simp only [settle, outcome]

theorem lawful_settle_ok {processed : Processed} (succeeded : failures processed = [])
    : Lawful delivery processed (settle faults delivery (.ok ())) where
  acknowledged := by simp [settle, succeeded]
  deadLettered := fun failed => absurd succeeded failed
  redelivered := fun failed => absurd succeeded failed
  terminated := by
    intro before after done split
    have member : (BrokerCall.terminate, done) ∈ settle faults delivery (.ok ()) :=
      split ▸ mem_append_right _ mem_cons_self
    simp [settle] at member

/-- An error is settled lawfully if it is dead-lettered just in the final cases and published
then. -/
theorem lawful_settle_error {processed : Processed} (failed : failures processed ≠ [])
    : Lawful delivery processed (settle faults delivery (.error error))
      ↔ (decideFailureOutcome error delivery.attempt = .deadLetter ↔ Final delivery processed)
        ∧ (decideFailureOutcome error delivery.attempt = .deadLetter → faults.publish = none) := by
  cases outcome : decideFailureOutcome error delivery.attempt with
  | redeliver =>
    rw [settle_redeliver outcome]
    constructor
    · intro lawful
      exact ⟨by simpa using lawful.deadLettered failed, by simp⟩
    · rintro ⟨final, _⟩
      refine ⟨by simp [failed], fun _ => by simpa using final, fun _ => by simpa using final, ?_⟩
      intro before after done split
      have member : (BrokerCall.terminate, done) ∈ [(BrokerCall.nack, faults.nack.isNone)] :=
        split ▸ mem_append_right _ mem_cons_self
      simp at member
  | deadLetter =>
    rw [settle_deadLetter outcome]
    constructor
    · intro lawful
      obtain ⟨entry, published⟩ := lawful.terminated [_] [] _ rfl
      refine ⟨by simpa using lawful.deadLettered failed, fun _ => ?_⟩
      simpa using (Prod.mk.inj (mem_singleton.mp published)).2.symm
    · rintro ⟨final, published⟩
      refine ⟨by simp [failed], fun _ => by simpa using final, fun _ => by simpa using final, ?_⟩
      intro before after done split
      cases before with
      | nil => simp at split
      | cons first before =>
        obtain ⟨rfl, _⟩ := List.cons.inj split
        rw [published rfl]
        exact ⟨_, mem_cons_self⟩

theorem processMessage_ok {outcomes}
    : (failures (.ok outcomes) = [] ∧ processMessage (.ok outcomes) = .ok ())
      ∨ (failures (.ok outcomes) ≠ []
        ∧ ∃ reason, processMessage (.ok outcomes) = .error (.other reason)) := by
  cases errors : eventErrors outcomes with
  | nil => exact .inl ⟨by simp [failures, errors], by simp [processMessage, errors]⟩
  | cons failure rest =>
    exact .inr ⟨by simp [failures, errors], _, by simp only [processMessage, errors]; rfl⟩

/-- A delivery follows the law exactly when no event fails for good with attempts left and the dead
letter queue takes what it is sent.
Witness: the cases of the result, with the verdict on each error.
-/
theorem lawful_iff_separable (faults : BrokerFaults) (delivery : Delivery) (processed : Processed)
    : Lawful delivery processed (settle faults delivery (processMessage processed))
      ↔ Separable faults delivery processed := by
  cases processed with
  | error error =>
    have verdict : decideFailureOutcome error delivery.attempt = .deadLetter
        ↔ Final delivery (.error error) := by
      simp [decideFailureOutcome_eq, Final, failures]
    rw [processMessage, lawful_settle_error (by simp [failures])]
    constructor
    · rintro ⟨_, published⟩
      exact ⟨by simp, fun _ _ final => published (verdict.mpr final)⟩
    · intro separable
      exact ⟨verdict, fun dead =>
        separable.published (by simp [failures]) (by simp) (verdict.mp dead)⟩
  | ok outcomes =>
    rcases @processMessage_ok outcomes with
      ⟨succeeded, result⟩ | ⟨failed, reason, result⟩
    · rw [result]
      exact iff_of_true (lawful_settle_ok succeeded)
        ⟨fun _ _ failed => absurd succeeded failed, fun failed => absurd succeeded failed⟩
    · have verdict : decideFailureOutcome (.other reason) delivery.attempt = .deadLetter
          ↔ maxDeliver ≤ delivery.attempt := by
        simp [decideFailureOutcome_eq, IngestionError.isPermanent]
      rw [result, lawful_settle_error failed, verdict]
      constructor
      · rintro ⟨final, published⟩
        exact ⟨fun _ _ _ => final.mpr, fun _ last _ => published (last _ rfl)⟩
      · intro separable
        exact ⟨⟨.inr, separable.transient _ rfl failed⟩,
          fun last => separable.published failed (fun _ _ => last) (.inr last)⟩

/-- An unsupported document is redelivered, and a malformed message is terminated unpublished. -/
theorem verdict_lost
    : (let processed : Processed := .ok [(⟨"documents", "notes.bin", none⟩,
        .error (.parse "Unsupported format: Unknown"))]
      (∀ error ∈ failures processed, error.isPermanent = true)
      ∧ settle {} ⟨[], 1⟩ (processMessage processed) = [(.nack, true)])
      ∧ settle { publish := some (.nats "no responders") } ⟨[], 1⟩
          (processMessage (.error (.json "expected value")))
        = [(.publish ⟨[], "JSON error: expected value", 0, "processing"⟩, false),
          (.terminate, true)] := by
  decide

end AkiDB.Ingestion
