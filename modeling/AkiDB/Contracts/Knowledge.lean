import AkiDB.Library.Checked
import AkiDB.Library.Unsigned
import AkiDB.Library.Utf8Text

/-! The knowledge-serving contracts and the validation that each must pass at the boundary. -/

namespace AkiDB.Contracts
open Checked Unsigned Utf8Text

inductive ContractViolationKind where
  | exceedsMaximum
  | belowMinimum
  | empty
  | invalidFormat
  | invalidNumber
  deriving DecidableEq, Repr

structure ContractViolation where
  field : String
  message : String
  kind : ContractViolationKind
  deriving DecidableEq, Repr

abbrev ContractResult (α : Type) : Type := Except ContractViolation α

def violation (field message : String) (kind : ContractViolationKind) : ContractViolation :=
  { field, message, kind }

namespace ContractViolation

def exceedsMaximum (field : String) (actual max : Nat) : ContractViolation :=
  violation field s!"{field} ({actual}) exceeds maximum ({max})" .exceedsMaximum

def empty (field : String) : ContractViolation :=
  violation field s!"{field} cannot be empty" .empty

def display (error : ContractViolation) : String :=
  s!"Contract violation in {error.field}: {error.message}"

end ContractViolation

def knowledgeSchemaVersion : Nat := 1
def maxSafeJsonInteger : Nat := 9007199254740991
def maxScopeBytes : Nat := 255
def maxIdBytes : Nat := 1024
def maxModelIdBytes : Nat := 512
def maxGraphSchemaBytes : Nat := 512
def maxUriBytes : Nat := 4096
def maxFailureBytes : Nat := 16384
def maxEmbeddingDimensions : Nat := 16384

theorem lt_range64_of_safe {value : Nat} (safe : value ≤ maxSafeJsonInteger)
    : value < range64 :=
  Nat.lt_of_le_of_lt safe (by decide)

def validateSchemaVersion (version : Nat) : ContractResult Unit :=
  rejectIf (version ≠ knowledgeSchemaVersion) (violation "schema_version"
      s!"unsupported schema_version {version}; expected {knowledgeSchemaVersion}"
      .invalidFormat)

def validateNonemptyText (field value : String) (maximum : Nat) : ContractResult Unit := do
  rejectIf (trimmed value = []) (.empty field)
  rejectIf (trimmed value ≠ value.toList)
    (violation field s!"{field} must not have leading or trailing whitespace" .invalidFormat)
  rejectIf (value.utf8ByteSize > maximum) (.exceedsMaximum field value.utf8ByteSize maximum)

def validateIdentifier (field value : String) (maximum : Nat) : ContractResult Unit := do
  validateNonemptyText field value maximum
  rejectIf (value.toList.any isControl)
    (violation field s!"{field} must not contain control characters" .invalidFormat)

def isSha256 (digest : String) : Bool :=
  digest.utf8ByteSize == 64 && (bytes digest).all isLowerHex

def validateSha256 (field digest : String) : ContractResult Unit :=
  rejectIf (¬isSha256 digest)
    (violation field s!"{field} must be exactly 64 lowercase hexadecimal characters" .invalidFormat)

def validateSafeJsonInteger (field : String) (value : Nat) : ContractResult Unit :=
  rejectIf (value > maxSafeJsonInteger)
    (violation field s!"{field} must not exceed the JSON safe integer maximum" .exceedsMaximum)

def validateTimestamp (field : String) (timestampMs : Nat) : ContractResult Unit := do
  rejectIf (timestampMs = 0) (violation field s!"{field} must be greater than zero" .belowMinimum)
  validateSafeJsonInteger field timestampMs

/-- The parts of a parsed absolute URL that validation looks at. -/
structure Url where
  scheme : String
  hostStr : Option String
  path : String
  username : String
  password : Option String
  fragment : Option String
  deriving DecidableEq, Repr

/-- `parse` stands for the URL library's parser. -/
def validateUri (parse : String → Option Url) (uri : String) : ContractResult Unit := do
  validateNonemptyText "uri" uri maxUriBytes
  rejectIf (uri.toList.any isControl)
    (violation "uri" "uri must not contain control characters" .invalidFormat)
  let parsed ← okOr (parse uri)
    (violation "uri" "uri must be an absolute object URI" .invalidFormat)
  rejectIf (¬(parsed.scheme = "s3" ∨ parsed.scheme = "https"))
    (violation "uri" "uri scheme must be s3 or https" .invalidFormat)
  rejectIf (parsed.hostStr = none ∨ parsed.path = "" ∨ parsed.path = "/")
    (violation "uri" "uri must include an object authority and path" .invalidFormat)
  rejectIf (parsed.username ≠ "" ∨ parsed.password ≠ none)
    (violation "uri" "uri must not embed credentials" .invalidFormat)
  rejectIf (parsed.fragment ≠ none)
    (violation "uri" "uri must not include a fragment" .invalidFormat)

structure KnowledgeScope where
  workspaceId : String
  collection : String
  deriving DecidableEq, Repr

def KnowledgeScope.validate (scope : KnowledgeScope) : ContractResult Unit := do
  validateIdentifier "workspace_id" scope.workspaceId maxScopeBytes
  validateIdentifier "collection" scope.collection maxScopeBytes

structure ImmutableObjectReference where
  uri : String
  sha256 : String
  sizeBytes : Nat
  deriving DecidableEq, Repr

def ImmutableObjectReference.validate (parse : String → Option Url)
    (reference : ImmutableObjectReference) : ContractResult Unit := do
  validateUri parse reference.uri
  validateSha256 "sha256" reference.sha256
  rejectIf (reference.sizeBytes = 0)
    (violation "size_bytes" "size_bytes must be greater than zero" .belowMinimum)
  validateSafeJsonInteger "size_bytes" reference.sizeBytes

inductive KnowledgeBundleFormat where
  | ndjsonV1
  deriving DecidableEq, Repr

inductive KnowledgeBundleCompression where
  | none
  | zstd
  deriving DecidableEq, Repr

structure KnowledgeGenerationManifest where
  schemaVersion : Nat
  workspaceId : String
  collection : String
  generationId : String
  parentGenerationId : Option String
  createdAtMs : Nat
  embeddingModelId : String
  embeddingDimensions : Nat
  graphSchemaVersion : String
  bundleFormat : KnowledgeBundleFormat
  bundleCompression : KnowledgeBundleCompression
  bundle : ImmutableObjectReference
  baseSequence : Nat
  targetSequence : Nat
  expectedVectorCount : Nat
  expectedEdgeCount : Nat
  deriving DecidableEq, Repr

namespace KnowledgeGenerationManifest

def scope (manifest : KnowledgeGenerationManifest) : KnowledgeScope :=
  { workspaceId := manifest.workspaceId, collection := manifest.collection }

def validateParent (manifest : KnowledgeGenerationManifest) : ContractResult Unit :=
  match manifest.parentGenerationId with
  | none => .ok ()
  | some parent => do
    validateIdentifier "parent_generation_id" parent maxIdBytes
    rejectIf (parent = manifest.generationId) (violation "parent_generation_id"
        "parent_generation_id must differ from generation_id" .invalidFormat)

def validate (parse : String → Option Url) (manifest : KnowledgeGenerationManifest)
    : ContractResult Unit := do
  validateSchemaVersion manifest.schemaVersion
  manifest.scope.validate
  validateIdentifier "generation_id" manifest.generationId maxIdBytes
  manifest.validateParent
  validateTimestamp "created_at_ms" manifest.createdAtMs
  validateIdentifier "embedding_model_id" manifest.embeddingModelId maxModelIdBytes
  rejectIf (manifest.embeddingDimensions = 0
      ∨ manifest.embeddingDimensions > maxEmbeddingDimensions)
    (violation "embedding_dimensions"
      s!"embedding_dimensions must be between 1 and {maxEmbeddingDimensions}" .invalidFormat)
  validateIdentifier "graph_schema_version" manifest.graphSchemaVersion maxGraphSchemaBytes
  manifest.bundle.validate parse
  validateSafeJsonInteger "base_sequence" manifest.baseSequence
  validateSafeJsonInteger "target_sequence" manifest.targetSequence
  validateSafeJsonInteger "expected_vector_count" manifest.expectedVectorCount
  validateSafeJsonInteger "expected_edge_count" manifest.expectedEdgeCount
  rejectIf (manifest.targetSequence < manifest.baseSequence) (violation "target_sequence"
      "target_sequence must be greater than or equal to base_sequence" .belowMinimum)

end KnowledgeGenerationManifest

inductive KnowledgeOperation where
  | upsert
  | delete
  deriving DecidableEq, Repr

structure KnowledgeMutation where
  schemaVersion : Nat
  mutationId : String
  workspaceId : String
  collection : String
  generationId : String
  sequence : Nat
  operation : KnowledgeOperation
  chunkId : String
  payload : Option ImmutableObjectReference
  createdAtMs : Nat
  deriving DecidableEq, Repr

namespace KnowledgeMutation

def scope (mutation : KnowledgeMutation) : KnowledgeScope :=
  { workspaceId := mutation.workspaceId, collection := mutation.collection }

def validatePayload (parse : String → Option Url) (mutation : KnowledgeMutation)
    : ContractResult Unit :=
  match mutation.operation, mutation.payload with
  | .upsert, some payload => payload.validate parse
  | .upsert, none =>
    .error (violation "payload" "upsert mutations require an immutable payload reference" .empty)
  | .delete, none => .ok ()
  | .delete, some _ =>
    .error (violation "payload" "delete mutations must not include a payload" .invalidFormat)

def validate (parse : String → Option Url) (mutation : KnowledgeMutation)
    : ContractResult Unit := do
  validateSchemaVersion mutation.schemaVersion
  mutation.scope.validate
  validateIdentifier "mutation_id" mutation.mutationId maxIdBytes
  validateIdentifier "generation_id" mutation.generationId maxIdBytes
  validateIdentifier "chunk_id" mutation.chunkId maxIdBytes
  rejectIf (mutation.sequence = 0)
    (violation "sequence" "sequence must be greater than zero" .belowMinimum)
  validateSafeJsonInteger "sequence" mutation.sequence
  validateTimestamp "created_at_ms" mutation.createdAtMs
  mutation.validatePayload parse

end KnowledgeMutation

inductive ReplicaState where
  | catchingUp
  | ready
  | serving
  | failed
  deriving DecidableEq, Repr

structure ReplicaCheckpoint where
  schemaVersion : Nat
  replicaId : String
  workspaceId : String
  collection : String
  generationId : String
  manifestSha256 : String
  appliedSequence : Nat
  state : ReplicaState
  lastError : Option String
  updatedAtMs : Nat
  deriving DecidableEq, Repr

namespace ReplicaCheckpoint

def scope (checkpoint : ReplicaCheckpoint) : KnowledgeScope :=
  { workspaceId := checkpoint.workspaceId, collection := checkpoint.collection }

def validateLastError (checkpoint : ReplicaCheckpoint) : ContractResult Unit :=
  match checkpoint.state, checkpoint.lastError with
  | .failed, some error => validateNonemptyText "last_error" error maxFailureBytes
  | .failed, none =>
    .error (violation "last_error" "failed checkpoints require non-empty failure evidence" .empty)
  | _, some _ =>
    .error (violation "last_error" "non-failed checkpoints must not include last_error"
      .invalidFormat)
  | _, none => .ok ()

def validate (checkpoint : ReplicaCheckpoint) : ContractResult Unit := do
  validateSchemaVersion checkpoint.schemaVersion
  checkpoint.scope.validate
  validateIdentifier "replica_id" checkpoint.replicaId maxIdBytes
  validateIdentifier "generation_id" checkpoint.generationId maxIdBytes
  validateSha256 "manifest_sha256" checkpoint.manifestSha256
  validateSafeJsonInteger "applied_sequence" checkpoint.appliedSequence
  validateTimestamp "updated_at_ms" checkpoint.updatedAtMs
  checkpoint.validateLastError

end ReplicaCheckpoint

theorem validateIdentifier_size {field value : String} {maximum : Nat}
    (accepted : validateIdentifier field value maximum = .ok ())
    : value.utf8ByteSize ≤ maximum := by
  simp only [validateIdentifier, validateNonemptyText, seq_eq_ok, rejectIf_eq_ok] at accepted
  omega

theorem KnowledgeScope.validate_sizes {scope : KnowledgeScope} (accepted : scope.validate = .ok ())
    : scope.workspaceId.utf8ByteSize ≤ maxScopeBytes
      ∧ scope.collection.utf8ByteSize ≤ maxScopeBytes := by
  simp only [KnowledgeScope.validate, seq_eq_ok] at accepted
  exact ⟨validateIdentifier_size accepted.1, validateIdentifier_size accepted.2⟩

/-- The facts about an accepted manifest that serving relies on. -/
structure KnowledgeGenerationManifest.Accepted (manifest : KnowledgeGenerationManifest)
    : Prop where
  scope : manifest.scope.validate = .ok ()
  generationId : manifest.generationId.utf8ByteSize ≤ maxIdBytes
  baseSequence : manifest.baseSequence ≤ maxSafeJsonInteger
  targetSequence : manifest.targetSequence ≤ maxSafeJsonInteger
  ordered : manifest.baseSequence ≤ manifest.targetSequence

variable {parse : String → Option Url}

theorem KnowledgeGenerationManifest.accepted_of_validate {manifest : KnowledgeGenerationManifest}
    (accepted : manifest.validate parse = .ok ())
    : manifest.Accepted := by
  simp only [KnowledgeGenerationManifest.validate, validateSafeJsonInteger, seq_eq_ok,
    rejectIf_eq_ok] at accepted
  obtain ⟨_, scope, generation, _, _, _, _, _, _, base, target, _, _, ordered⟩ := accepted
  exact {
    scope
    generationId := validateIdentifier_size generation
    baseSequence := by omega
    targetSequence := by omega
    ordered := by omega }

/-- The facts about an accepted mutation that serving relies on. -/
structure KnowledgeMutation.Accepted (mutation : KnowledgeMutation) : Prop where
  scope : mutation.scope.validate = .ok ()
  mutationId : validateIdentifier "mutation_id" mutation.mutationId maxIdBytes = .ok ()
  generationId : mutation.generationId.utf8ByteSize ≤ maxIdBytes
  positive : mutation.sequence ≠ 0
  sequence : mutation.sequence ≤ maxSafeJsonInteger

variable {mutation : KnowledgeMutation}

theorem KnowledgeMutation.accepted_of_validate (accepted : mutation.validate parse = .ok ())
    : mutation.Accepted := by
  simp only [KnowledgeMutation.validate, validateSafeJsonInteger, seq_eq_ok,
    rejectIf_eq_ok] at accepted
  obtain ⟨_, scope, mutationId, generation, _, positive, sequence, _, _⟩ := accepted
  exact {
    scope
    mutationId
    generationId := validateIdentifier_size generation
    positive
    sequence := by omega }

theorem KnowledgeMutation.Accepted.inRange (accepted : mutation.Accepted)
    : mutation.sequence < range64 :=
  lt_range64_of_safe accepted.sequence

end AkiDB.Contracts
