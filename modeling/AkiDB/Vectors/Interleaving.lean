import AkiDB.Vectors.Runs
import AkiDB.Vectors.Search

/-! Requests as steps that interleave. The lock of an id is held from the checks to the answer. -/

namespace AkiDB.Vectors
open AkiDB.Common AtomicBatch Checked KeyedMaps

/-- The next step of a request in flight. -/
inductive Phase where
  | insertIndex (write : PendingWrite)
  | persist (write : PendingWrite) (internalId : Nat)
  | rollBack (write : PendingWrite) (internalId : Nat)
  | removeReplaced (write : PendingWrite) (internalId : Nat)
  | syncLexical (write : PendingWrite) (internalId : Nat) (text : String)
  | syncDocuments (write : PendingWrite) (internalId : Nat) (text : String)
  | projectGraph (write : PendingWrite) (internalId : Nat)
  | mirrorSql (write : PendingWrite) (internalId : Nat)
  | unproject (metadata : Option (List UInt8))
  | tombstone
  | deleteIndex (internalId : Nat)
  | dropLexical
  | dropDocuments
  | dropSql

inductive Answer where
  | failed
  | written
  | deleted (status : VectorService.DeleteStatus)
  deriving DecidableEq

def Answer.acknowledges : Answer → Bool
  | deleted .deleted | deleted .alreadyDeleted => true
  | _ => false

/-- One step of the request for an id, and what follows it. -/
def Phase.advance (config : ServiceConfig) (faults : WriteFaults) (id : String)
    (service : VectorService) : Phase → VectorService × (Phase ⊕ Answer)
  | insertIndex write => match service.insertIndex config faults write with
    | (.error _, next) => (next, .inr .failed)
    | (.ok internalId, next) => (next, .inl (.persist write internalId))
  | persist write internalId => match service.persist faults write internalId with
    | .error _ => (service, .inl (.rollBack write internalId))
    | .ok next => (next, .inl (.removeReplaced write internalId))
  | rollBack _ internalId => (service.deleteQuietly faults.rollback internalId, .inr .failed)
  | removeReplaced write internalId => (service.removeReplaced faults write internalId,
      match write.text with
      | some text => .inl (.syncLexical write internalId text)
      | none => .inl (.mirrorSql write internalId))
  | syncLexical write internalId text => (service.syncLexical config id text,
      .inl (.syncDocuments write internalId text))
  | syncDocuments write internalId text => (service.syncDocuments id text,
      .inl (.projectGraph write internalId))
  | projectGraph write internalId => match service.projectGraph config faults write with
    | .error _ => (service, .inr .failed)
    | .ok next => (next,
        if write.text.isSome then .inl (.mirrorSql write internalId) else .inr .written)
  | mirrorSql write internalId => (service.indexSqlMetadata config faults write internalId,
      if write.text.isSome then .inr .written else .inl (.projectGraph write internalId))
  | unproject metadata => match service.unprojectGraph config faults id metadata with
    | .error _ => (service, .inr .failed)
    | .ok next => (next, .inl .tombstone)
  | tombstone => match service.markDeleted faults id with
    | .error _ => (service, .inr .failed)
    | .ok (some internalId, next) => (next, .inl (.deleteIndex internalId))
    | .ok (none, next) => (next, .inr (.deleted
        (if next.idMapping.exists id then .alreadyDeleted else .notFound)))
  | deleteIndex internalId => match service.deleteIndex faults internalId with
    | .error _ => (service, .inr .failed)
    | .ok next => (next, .inl .dropLexical)
  | dropLexical => (service.dropLexical id, .inl .dropDocuments)
  | dropDocuments => (service.dropDocuments id, .inl .dropSql)
  | dropSql => (service.deleteSqlMetadata faults id, .inr (.deleted .deleted))

def Admission.firstPhase : Admission → Phase
  | .write pending => .insertIndex pending
  | deletion _ metadata => .unproject metadata

/-- The service, the requests in flight, and the ids whose deletion was acknowledged. -/
structure ConcurrentState where
  service : VectorService
  inFlight : KeyValueMap String Phase
  acknowledged : List String

def ConcurrentState.blank (graph sql : Bool) : ConcurrentState where
  service := .blank graph sql
  inFlight := ∅
  acknowledged := []

/-- A request is let in, takes a step, tombstones are compacted, or the process ends and
restarts. -/
inductive ConcurrentStep where
  | begin (ctx : AuthContext) (faults : WriteFaults) (request : Request)
  | advance (id : String) (faults : WriteFaults)
  | compact (removeFails : Nat → Bool)
  | restart (faults : MaintenanceFaults)

/-- The state after a step. A request is let in when its id is not locked and its checks succeed. -/
def ConcurrentStep.apply (config : ServiceConfig) (state : ConcurrentState)
    : ConcurrentStep → Option ConcurrentState
  | begin ctx faults request =>
    if state.inFlight[request.id]?.isSome then some state
    else match request.accepts config ctx faults state.service with
      | .error _ => some state
      | .ok admission => some { state with
          inFlight := state.inFlight.insert request.id admission.firstPhase }
  | advance id faults => match state.inFlight[id]? with
    | none => some state
    | some phase => match phase.advance config faults id state.service with
      | (next, .inl following) => some { state with
          service := next
          inFlight := state.inFlight.insert id following }
      | (next, .inr answer) => some
          { service := next
            inFlight := state.inFlight.erase id
            acknowledged := if answer.acknowledges then id :: state.acknowledged
              else state.acknowledged }
  | compact removeFails => some { state with
      service := state.service.compactTombstones removeFails }
  | restart faults => (state.service.restart config faults).map fun started =>
    { state with service := started, inFlight := ∅ }

/-- The states that interleavings of allowed steps reach. -/
inductive InterleavedWhere (config : ServiceConfig)
    (allowed : ConcurrentState → ConcurrentStep → Prop) : ConcurrentState → Prop where
  | blank (graph sql : Bool) : InterleavedWhere config allowed (.blank graph sql)
  | step {before after : ConcurrentState} (step : ConcurrentStep)
      (earlier : InterleavedWhere config allowed before) (permitted : allowed before step)
      (applied : step.apply config before = some after)
      : InterleavedWhere config allowed after

/-- The states that any interleaving reaches. -/
def Interleaved (config : ServiceConfig) : ConcurrentState → Prop :=
  InterleavedWhere config fun _ _ => True

variable {allowed : ConcurrentState → ConcurrentStep → Prop} {state : ConcurrentState}

/-- An invariant of every allowed step holds in every state that an interleaving reaches. -/
theorem InterleavedWhere.invariant {config} {property : ConcurrentState → Prop}
    (blank : ∀ graph sql, property (.blank graph sql))
    (step : ∀ before step after, property before → allowed before step
      → step.apply config before = some after → property after)
    (interleaved : InterleavedWhere config allowed state)
    : property state := by
  induction interleaved with
  | blank graph sql => exact blank graph sql
  | step taken _ permitted applied ih => exact step _ taken _ ih permitted applied

def runWhere (config : ServiceConfig) (allowed : ConcurrentState → ConcurrentStep → Prop)
    [∀ state step, Decidable (allowed state step)]
    : List ConcurrentStep → ConcurrentState → Option ConcurrentState
  | [], state => some state
  | step :: rest, state =>
    if allowed state step then (step.apply config state).bind (runWhere config allowed rest)
    else none

theorem InterleavedWhere.run {config} [∀ state step, Decidable (allowed state step)] {steps next}
    (interleaved : InterleavedWhere config allowed state)
    (ran : runWhere config allowed steps state = some next)
    : InterleavedWhere config allowed next := by
  induction steps generalizing state with
  | nil => cases ran; exact interleaved
  | cons step rest ih =>
    unfold runWhere at ran
    split at ran
    · next permitted =>
        obtain ⟨after, applied, remaining⟩ := Option.bind_eq_some_iff.mp ran
        exact ih (.step step interleaved permitted applied) remaining
    · cases ran

end AkiDB.Vectors
