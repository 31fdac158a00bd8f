import AkiDB.Library.ByteFraming
import AkiDB.Library.Checked
import AkiDB.Library.Utf8Text

/-!
Access proofs of the memory ledger, what their signature covers, and the checks that admit an
operation.
-/

namespace AkiDB.Memory
open Checked Utf8Text ByteFraming

inductive Sensitivity where
  | «public»
  | internal
  | confidential
  | restricted
  deriving DecidableEq

structure MemoryScope where
  workspaceId : String
  «namespace» : String
  entityKey : String
  dataSubjectId : Option String
  ownerAgentId : Option String
  sessionId : Option String
  taskId : Option String
  sensitivity : Sensitivity
  allowedPurposes : List String
  deriving DecidableEq

inductive MemoryLedgerError where
  | invalidRequest (message : String)
  | unauthorizedAccess
  deriving DecidableEq

abbrev LedgerResult := Except MemoryLedgerError

def maxMemoryIdBytes : Nat := 1024
def maxAccessScopeValues : Nat := 256

/-- Fields authorized by the security boundary before an operation reaches storage. -/
structure MemoryAccessGrant where
  principalId : String
  credentialId : String
  workspaceId : String
  «namespace» : String
  requestPurpose : String
  delegatedAgentId : Option String
  allowSharedMemory : Bool
  entityKeys : List String
  dataSubjectIds : List String
  requireDataSubject : Bool
  sessionIds : List String
  requireSession : Bool
  taskIds : List String
  requireTask : Bool
  sensitivities : List Sensitivity
  capability : String
  authorizationEpoch : Nat
  grantVersion : Nat
  authorizationDecisionId : String
  systemJob : Bool
  deriving DecidableEq

structure MemoryAccessProof where
  grant : MemoryAccessGrant
  signature : Bytes
  deriving DecidableEq

def validateText (field value : String) (maximum : Nat) : LedgerResult Unit :=
  rejectIf (trimmed value = [] ∨ trimmed value ≠ value.toList ∨ value.utf8ByteSize > maximum
      ∨ Char.ofNat 0 ∈ value.toList)
    (.invalidRequest s!"{field} must be non-empty, trimmed, NUL-free, and at most {maximum} bytes")

def validateLocalId (field value : String) : LedgerResult Unit := do
  validateText field value maxMemoryIdBytes
  rejectIf (value.toList.any isControl)
    (.invalidRequest s!"{field} must not contain control characters")

def validateOptionalLocalId (field : String) (value : Option String) : LedgerResult Unit :=
  match value with
  | none => .ok ()
  | some value => validateLocalId field value

def validateScopeValues (field : String) (values : List String) : LedgerResult Unit := do
  rejectIf (values.length > maxAccessScopeValues)
    (.invalidRequest s!"{field} must contain at most {maxAccessScopeValues} values")
  checkDistinct (validateLocalId field)
    (.invalidRequest s!"{field} must not contain duplicates") values

def recognizedCapabilities : List String :=
  ["memory.observe", "memory.propose", "memory.remember", "memory.read", "memory.recall",
    "memory.correct", "memory.retract", "memory.forget", "memory.history", "memory.export",
    "memory.replay", "memory.delete.plan", "memory.delete.execute", "memory.admin"]

variable (grant : MemoryAccessGrant)

def validateAccessGrant : LedgerResult Unit := do
  validateLocalId "access principal_id" grant.principalId
  validateLocalId "access credential_id" grant.credentialId
  validateLocalId "access workspace_id" grant.workspaceId
  validateLocalId "access namespace" grant.namespace
  validateLocalId "access request_purpose" grant.requestPurpose
  validateOptionalLocalId "access delegated_agent_id" grant.delegatedAgentId
  validateScopeValues "access entity_keys" grant.entityKeys
  validateScopeValues "access data_subject_ids" grant.dataSubjectIds
  validateScopeValues "access session_ids" grant.sessionIds
  validateScopeValues "access task_ids" grant.taskIds
  rejectIf (grant.entityKeys = []) (.invalidRequest "access entity_keys must not be empty")
  rejectIf (grant.requireDataSubject ∧ grant.dataSubjectIds = [])
    (.invalidRequest "required data-subject access constraint has no values")
  rejectIf (grant.requireSession ∧ grant.sessionIds = [])
    (.invalidRequest "required session access constraint has no values")
  rejectIf (grant.requireTask ∧ grant.taskIds = [])
    (.invalidRequest "required task access constraint has no values")
  rejectIf (grant.sensitivities = []) (.invalidRequest "access sensitivities must not be empty")
  rejectIf (¬grant.sensitivities.Nodup)
    (.invalidRequest "access sensitivities must not contain duplicates")
  validateLocalId "access capability" grant.capability
  validateLocalId "access authorization_decision_id" grant.authorizationDecisionId
  rejectIf (grant.authorizationEpoch = 0 ∨ grant.grantVersion = 0) (.invalidRequest
      "access authorization_epoch and grant_version must be greater than zero")
  rejectIf (grant.systemJob ∧ (grant.principalId ≠ "system:memory-runtime"
      ∨ grant.credentialId ≠ "internal:process" ∨ grant.capability ≠ "memory.admin"))
    (.invalidRequest "system-job access is reserved for the process Memory runtime")
  rejectIf (grant.capability ∉ recognizedCapabilities)
    (.invalidRequest "access capability is not a recognized Memory capability")

def pushScopeValues (values : List String) : Bytes :=
  beBytes 4 values.length ++ frame (values.map bytes)

def flag (value : Bool) : Bytes :=
  [if value then 1 else 0]

def optionalComponent : Option String → Bytes
  | some value => 1 :: component (bytes value)
  | none => [0]

def sensitivityRank : Sensitivity → Nat
  | .public => 1
  | .internal => 2
  | .confidential => 3
  | .restricted => 4

def sensitivityBytes (sensitivities : List Sensitivity) : Bytes :=
  beBytes 4 sensitivities.length
    ++ sensitivities.map fun sensitivity => UInt8.ofNat (sensitivityRank sensitivity)

/-- The bytes that a proof's signature covers. -/
def encodeAccessGrant : LedgerResult Bytes := do
  validateAccessGrant grant
  pure (bytes "akidb-memory-access-proof" ++ [0] ++ bytes "v2" ++ [0]
    ++ component (bytes grant.principalId)
    ++ component (bytes grant.credentialId)
    ++ component (bytes grant.workspaceId)
    ++ component (bytes grant.namespace)
    ++ component (bytes grant.requestPurpose)
    ++ optionalComponent grant.delegatedAgentId
    ++ flag grant.allowSharedMemory
    ++ pushScopeValues grant.entityKeys
    ++ pushScopeValues grant.dataSubjectIds
    ++ flag grant.requireDataSubject
    ++ pushScopeValues grant.sessionIds
    ++ flag grant.requireSession
    ++ pushScopeValues grant.taskIds
    ++ flag grant.requireTask
    ++ sensitivityBytes grant.sensitivities
    ++ component (bytes grant.capability)
    ++ beBytes 8 grant.authorizationEpoch
    ++ beBytes 8 grant.grantVersion
    ++ component (bytes grant.authorizationDecisionId)
    ++ flag grant.systemJob)

/-- A signing key together with the message authentication code it is used with. -/
structure AccessKey where
  key : Bytes
  hmacSha256 : Bytes → Bytes → Bytes

namespace AccessKey

variable (access : AccessKey)

def issue (grant : MemoryAccessGrant) : LedgerResult MemoryAccessProof := do
  let encoded ← encodeAccessGrant grant
  pure { grant, signature := access.hmacSha256 access.key encoded }

variable (proof : MemoryAccessProof)

def verify : LedgerResult Unit := do
  let encoded ← (encodeAccessGrant proof.grant).mapError fun _ => .unauthorizedAccess
  rejectIf (access.hmacSha256 access.key encoded ≠ proof.signature) .unauthorizedAccess

theorem verify_of_issue {grant proof} (issued : access.issue grant = .ok proof)
    : proof.grant = grant ∧ access.verify proof = .ok () := by
  simp only [issue, bind_eq_ok, pure_eq_ok] at issued
  obtain ⟨encoded, encodes, rfl⟩ := issued
  simp [verify, bind_eq_ok, encodes]

def authorizeCapability (allowedCapabilities : List String)
    : LedgerResult Unit := do
  access.verify proof
  rejectIf (¬proof.grant.systemJob ∧ proof.grant.capability ∉ allowedCapabilities)
    .unauthorizedAccess

def authorizeWorkspaceCapability (workspaceId : String)
    (allowedCapabilities : List String) : LedgerResult Unit := do
  access.authorizeCapability proof allowedCapabilities
  rejectIf (proof.grant.workspaceId ≠ workspaceId) .unauthorizedAccess

end AccessKey

def authorizeNamespace (proof : MemoryAccessProof) (recordNamespace : String)
    : LedgerResult Unit :=
  rejectIf (¬proof.grant.systemJob ∧ proof.grant.namespace ≠ recordNamespace) .unauthorizedAccess

def scopeValueMatches (values : List String) (value : Option String) (requireValue : Bool)
    : Bool :=
  match value with
  | some value => values.any fun allowed => allowed == "**" || allowed == value
  | none => !requireValue

/-- An agent's record is for that agent; a delegated one reads shared records only if granted. -/
def ownerMatches (scope : MemoryScope) : Bool :=
  match scope.ownerAgentId with
  | some owner => grant.delegatedAgentId == some owner
  | none => grant.delegatedAgentId.isNone || grant.allowSharedMemory

def scopeAdmitted (scope : MemoryScope) : Bool :=
  grant.systemJob
    || (scope.allowedPurposes.any (· == grant.requestPurpose)
      && ownerMatches grant scope
      && scopeValueMatches grant.entityKeys (some scope.entityKey) false
      && scopeValueMatches grant.dataSubjectIds scope.dataSubjectId grant.requireDataSubject
      && scopeValueMatches grant.sessionIds scope.sessionId grant.requireSession
      && scopeValueMatches grant.taskIds scope.taskId grant.requireTask
      && decide (scope.sensitivity ∈ grant.sensitivities))

/-- A foreign namespace is an error; any other mismatch answers false. -/
def authorizeRecordScope (proof : MemoryAccessProof) (scope : MemoryScope)
    : LedgerResult Bool := do
  authorizeNamespace proof scope.namespace
  pure (scopeAdmitted proof.grant scope)

/-- An operation on one record, which is loaded under the workspace it was admitted for. -/
def AccessKey.authorizeRecord (access : AccessKey) (allowedCapabilities : List String)
    (proof : MemoryAccessProof) (scope : MemoryScope) : LedgerResult Bool := do
  access.authorizeWorkspaceCapability proof scope.workspaceId allowedCapabilities
  authorizeRecordScope proof scope

theorem AccessKey.authorizeRecord_eq_true {access : AccessKey} {allowed proof scope}
    (verified : access.verify proof = .ok ()) (principal : proof.grant.systemJob = false)
    : access.authorizeRecord allowed proof scope = .ok true
      ↔ proof.grant.capability ∈ allowed
        ∧ proof.grant.workspaceId = scope.workspaceId
        ∧ proof.grant.namespace = scope.namespace
        ∧ scopeAdmitted proof.grant scope = true := by
  simp only [authorizeRecord, authorizeWorkspaceCapability, authorizeCapability,
    authorizeRecordScope, authorizeNamespace, seq_eq_ok, rejectIf_eq_ok, pure_eq_ok, verified,
    principal]
  simp [and_assoc]

end AkiDB.Memory
