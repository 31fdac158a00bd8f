import AkiDB.ServingState.Operations

/-!
What the validators accept, as propositions that later arguments use instead of the checking code.
-/

namespace AkiDB.ServingState
open AkiDB.Common AkiDB.Contracts Checked Utf8Text Unsigned List

/-- A text that local validation accepts, whatever error it would have raised. -/
structure AcceptedText (value : String) (maximum : Nat) : Prop where
  nonempty : trimmed value ≠ []
  trimmedEq : trimmed value = value.toList
  size : value.utf8ByteSize ≤ maximum
  printable : ¬value.toList.any isControl

variable {field value : String} {role : Role} {generation : GenerationServingState}
  {parse : String → Option Url} {record : ServingStateRecord}

theorem validateLocalText_iff {maximum : Nat} {error : String → ServingStateError}
    : validateLocalText field value maximum error = .ok () ↔ AcceptedText value maximum := by
  simp only [validateLocalText, seq_eq_ok, rejectIf_eq_ok]
  constructor
  · rintro ⟨nonempty, same, size, printable⟩
    exact { nonempty, trimmedEq := not_not.mp same, size := by omega, printable }
  · rintro ⟨nonempty, same, size, printable⟩
    exact ⟨nonempty, not_not.mpr same, by omega, printable⟩

theorem AcceptedText.of_identifier {maximum : Nat}
    (accepted : validateIdentifier field value maximum = .ok ())
    : AcceptedText value maximum := by
  simp only [validateIdentifier, validateNonemptyText, seq_eq_ok, rejectIf_eq_ok] at accepted
  obtain ⟨⟨nonempty, same, size⟩, printable⟩ := accepted
  exact { nonempty, trimmedEq := not_not.mp same, size := by omega, printable }

def AcceptedTimestamp (value : Nat) : Prop :=
  0 < value ∧ value ≤ maxSafeJsonInteger

theorem validateTimestamp_iff {value : Nat}
    : validateTimestamp field value = .ok () ↔ AcceptedTimestamp value := by
  simp only [validateTimestamp, seq_eq_ok, rejectIf_eq_ok, AcceptedTimestamp]
  omega

theorem validateSha256_iff : validateSha256 field value = .ok () ↔ isSha256 value := by
  simp [validateSha256]

variable (environment : Environment)

theorem mutationFingerprint_isSha256 (mutation : KnowledgeMutation)
    : isSha256 (mutationFingerprint environment mutation) := by
  obtain ⟨size, digits⟩ := hex_wellFormed (environment.mutationDigest mutation)
  rw [environment.mutationDigest_length] at size
  simp [isSha256, mutationFingerprint, size, digits]

def markerOf (mutation : KnowledgeMutation) : MutationMarker := {
  mutationId := mutation.mutationId
  sequence := mutation.sequence
  mutationSha256 := mutationFingerprint environment mutation }

theorem validateMarker_markerOf {mutation} (accepted : mutation.Accepted)
    : validateMarker (markerOf environment mutation) = .ok () := by
  simp only [validateMarker, seq_eq_ok, validateLocalText_iff, validateSha256_iff, rejectIf_eq_ok]
  exact ⟨AcceptedText.of_identifier accepted.mutationId,
    mutationFingerprint_isSha256 environment mutation, accepted.positive⟩

def Role.Admits : Role → LocalGenerationState → Prop
  | active, state => state = .serving
  | previous, state => state = .ready
  | staged, state => state ≠ .serving

/-- A generation that may be stored in a role of a scope's record. -/
structure GenerationValid (parse : String → Option Url) (scope : KnowledgeScope) (role : Role)
    (generation : GenerationServingState) : Prop where
  manifest : generation.manifest.validate parse = .ok ()
  digest : isSha256 generation.manifestSha256
  scope : generation.manifest.scope = scope
  base : generation.manifest.baseSequence ≤ generation.appliedSequence
  safe : generation.appliedSequence ≤ maxSafeJsonInteger
  reached : generation.state = .ready ∨ generation.state = .serving →
    generation.manifest.targetSequence ≤ generation.appliedSequence
  fresh : generation.state = .staged → generation.appliedSequence = generation.manifest.baseSequence
  failure : generation.state = .failed →
    ∃ text, generation.lastError = some text ∧ AcceptedText text maxFailureBytes
  healthy : generation.state ≠ .failed → generation.lastError = none
  admitted : role.Admits generation.state

theorem validateRole_iff
    : validateRole role generation = .ok () ↔ role.Admits generation.state := by
  cases role <;> simp [validateRole, Role.Admits]

theorem validateFailureEvidence_iff
    : validateFailureEvidence role generation = .ok ()
      ↔ (generation.state = .failed →
          ∃ text, generation.lastError = some text ∧ AcceptedText text maxFailureBytes)
        ∧ (generation.state ≠ .failed → generation.lastError = none) := by
  cases state : generation.state <;> cases evidence : generation.lastError <;>
    simp [validateFailureEvidence, state, evidence, validateLocalText_iff]

theorem validateGenerationState_iff {scope}
    : validateGenerationState parse role generation scope = .ok ()
      ↔ GenerationValid parse scope role generation := by
  simp only [validateGenerationState, seq_eq_ok, mapError_eq_ok, rejectIf_eq_ok,
    validateSha256_iff, validateFailureEvidence_iff, validateRole_iff]
  constructor
  · rintro ⟨manifest, digest, scopeEq, bounds, reached, fresh, ⟨failure, healthy⟩, admitted⟩
    exact {
      manifest, digest, failure, healthy, admitted
      scope := not_not.mp scopeEq
      base := by omega
      safe := by omega
      reached := fun state => not_lt.mp fun early => reached ⟨state, early⟩
      fresh := fun state => not_not.mp fun advanced => fresh ⟨state, advanced⟩ }
  · intro valid
    refine ⟨valid.manifest, valid.digest, not_not.mpr valid.scope, ?_, ?_, ?_,
      ⟨valid.failure, valid.healthy⟩, valid.admitted⟩
    · have := valid.base
      have := valid.safe
      omega
    · rintro ⟨state, early⟩
      have := valid.reached state
      omega
    · rintro ⟨state, advanced⟩
      exact advanced (valid.fresh state)

/-- A record that may be stored for its own scope. -/
structure RecordValid (parse : String → Option Url) (replicaId : String)
    (record : ServingStateRecord) : Prop where
  schema : record.schemaVersion = servingStateSchemaVersion
  scope : record.scope.validate = .ok ()
  timestamp : AcceptedTimestamp record.updatedAtMs
  replica : record.replicaId = replicaId
  generations : ∀ role generation, record.generation role = some generation →
    GenerationValid parse record.scope role generation
  distinct : ∀ role role' generation generation',
    record.generation role = some generation → record.generation role' = some generation' →
    generation.id = generation'.id → role = role'
  rollback : record.active = none → record.previous = none

theorem validateGenerations_nil {seen}
    : validateGenerations parse record [] seen = .ok () := rfl

/-- One role of the validation loop. -/
theorem validateGenerations_cons {rest : List Role} {seen}
    : validateGenerations parse record (role :: rest) seen = .ok ()
      ↔ (∀ generation, record.generation role = some generation →
          GenerationValid parse record.scope role generation ∧ generation.id ∉ seen)
        ∧ validateGenerations parse record rest
            ((record.generation role).toList.map (·.id) ++ seen) = .ok () := by
  cases occupied : record.generation role with
  | none => simp [validateGenerations, occupied]
  | some generation =>
    simp only [validateGenerations, occupied, seq_eq_ok, validateGenerationState_iff,
      rejectIf_eq_ok, Option.some.injEq, forall_eq', Option.toList_some, map_cons,
      map_nil, cons_append, nil_append]
    exact and_assoc.symm

theorem validateGenerations_iff
    : validateGenerations parse record [.active, .previous, .staged] [] = .ok ()
      ↔ (∀ role generation, record.generation role = some generation →
          GenerationValid parse record.scope role generation)
        ∧ ∀ role role' generation generation', record.generation role = some generation →
            record.generation role' = some generation' →
            generation.id = generation'.id → role = role' := by
  simp only [validateGenerations_cons, validateGenerations_nil, append_nil, and_true,
    not_mem_nil, not_false_eq_true, mem_append, mem_map, Option.mem_toList,
    not_or, not_exists, not_and]
  constructor
  · rintro ⟨active, previous, staged⟩
    refine ⟨?_, ?_⟩
    · intro role generation found
      cases role with
      | active => exact active generation found
      | previous => exact (previous generation found).1
      | staged => exact (staged generation found).1
    · intro role role' generation generation' found found' same
      cases role <;> cases role'
      case active.active | previous.previous | staged.staged => rfl
      case active.previous =>
        exact absurd same ((previous generation' found').2 generation found)
      case active.staged =>
        exact absurd same ((staged generation' found').2.2 generation found)
      case previous.active =>
        exact absurd same.symm ((previous generation found).2 generation' found')
      case previous.staged =>
        exact absurd same ((staged generation' found').2.1 generation found)
      case staged.active =>
        exact absurd same.symm ((staged generation found).2.2 generation' found')
      case staged.previous =>
        exact absurd same.symm ((staged generation found).2.1 generation' found')
  · rintro ⟨valid, distinct⟩
    have separate : ∀ role role' generation, record.generation role = some generation →
        role' ≠ role → ∀ other, record.generation role' = some other →
        other.id ≠ generation.id := by
      intro role role' generation found different other otherFound same
      exact different (distinct role' role other generation otherFound found same)
    exact ⟨fun generation found => valid _ generation found,
      fun generation found => ⟨valid _ generation found,
        separate _ .active generation found (by decide)⟩,
      fun generation found => ⟨valid _ generation found,
        separate _ .previous generation found (by decide),
        separate _ .active generation found (by decide)⟩⟩

theorem validateRecord_iff {replicaId : String}
    : validateRecord parse record replicaId = .ok () ↔ RecordValid parse replicaId record := by
  simp only [validateRecord, seq_eq_ok, mapError_eq_ok, rejectIf_eq_ok, validateTimestamp_iff,
    validateGenerations_iff]
  constructor
  · rintro ⟨schema, scope, timestamp, replica, ⟨generations, distinct⟩, rollback⟩
    exact {
      scope, timestamp, generations, distinct
      schema := not_not.mp schema
      replica := not_not.mp replica
      rollback := fun absent => not_not.mp fun retained => rollback ⟨absent, retained⟩ }
  · intro valid
    refine ⟨not_not.mpr valid.schema, valid.scope, valid.timestamp,
      not_not.mpr valid.replica, ⟨valid.generations, valid.distinct⟩, ?_⟩
    rintro ⟨absent, retained⟩
    exact retained (valid.rollback absent)

end AkiDB.ServingState
