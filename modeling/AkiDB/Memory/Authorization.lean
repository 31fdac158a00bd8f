import AkiDB.Memory.Access
import Mathlib.Data.Set.Basic

/-!
The narrowing of a principal's grants to one request, and what request selectors can do to
records.
-/

namespace AkiDB.Memory
open Checked Utf8Text ByteFraming

inductive StatusCode where
  | permissionDenied
  | invalidArgument
  | internal
  deriving DecidableEq

structure Status where
  code : StatusCode
  message : String
  deriving DecidableEq

def maxAuthValueBytes : Nat := 1024

structure MemoryAuthContext where
  principalId : String
  credentialId : String
  eligible : Bool
  denialReason : String
  authorizationEpoch : Nat
  grantVersion : Nat
  processWorkspaceId : String
  workspaces : List String
  namespaces : List String
  agentIds : List String
  allowSharedMemory : Bool
  entityKeys : List String
  dataSubjectIds : List String
  sessionIds : List String
  taskIds : List String
  sensitivities : List Sensitivity
  purposes : List String
  capabilities : List String
  accessIssuer : AccessKey

/-- Exact request selectors; an empty list inherits the grant. -/
structure MemoryScopeSelector where
  entityKeys : List String := []
  dataSubjectIds : List String := []
  sessionIds : List String := []
  taskIds : List String := []
  maximumSensitivity : Option Sensitivity := none
  deriving DecidableEq

structure ScopeRequest where
  workspaceId : String
  «namespace» : String
  requestPurpose : String
  delegatedAgentId : Option String
  capability : String
  deriving DecidableEq

structure AuthorizedMemoryContext where
  principalId : String
  credentialId : String
  request : ScopeRequest
  authorizationEpoch : Nat
  grantVersion : Nat
  authorizationDecisionId : String
  accessProof : MemoryAccessProof

/-! Narrowing one component -/

def validateRequestSelector (field value : String) : Except Status Unit :=
  rejectIf (value = "" ∨ trimmed value ≠ value.toList ∨ value.utf8ByteSize > maxAuthValueBytes
      ∨ value.toList.any isControl)
    ⟨.invalidArgument,
      s!"{field} must be non-empty, trimmed, bounded, and contain no control characters"⟩

def checkAgent (check : String → Except Status Unit) : Option String → Except Status Unit
  | some agentId => check agentId
  | none => .ok ()

def namespaceMatches (grant requested : String) : Bool :=
  if grant = "**" then true
  else
    match grant.toList.dropSuffix? "/**".toList with
    | some stem =>
      requested.toList == stem
        || match requested.toList.dropPrefix? stem with
          | some below => below.head? == some '/'
          | none => false
    | none => grant == requested

def effectiveScopeValues (field : String) (grants requested : List String)
    : Except Status (List String) :=
  if requested = [] then .ok grants
  else do
    go requested []
    pure requested
where
  go : List String → List String → Except Status Unit
    | [], _ => .ok ()
    | value :: rest, unique => do
      validateRequestSelector field value
      rejectIf ('*' ∈ value.toList)
        ⟨.invalidArgument, s!"{field} request selectors cannot contain wildcards"⟩
      rejectIf (value ∈ unique)
        ⟨.invalidArgument, s!"{field} request selectors cannot contain duplicates"⟩
      rejectIf (¬∃ grant ∈ grants, grant = "**" ∨ grant = value) ⟨.permissionDenied,
          s!"requested Memory {field} selector is outside the principal grant"⟩
      go rest (value :: unique)

def effectiveSensitivities (grants : List Sensitivity) (maximum : Option Sensitivity)
    : Except Status (List Sensitivity) :=
  match maximum with
  | none => .ok grants
  | some maximum => do
    let values := grants.filter fun value => sensitivityRank value ≤ sensitivityRank maximum
    rejectIf (values = []) ⟨.permissionDenied,
        "requested maximum Memory sensitivity excludes every principal grant"⟩
    pure values

namespace MemoryAuthContext

variable (context : MemoryAuthContext)

/-- The request lies inside the principal's workspaces, namespaces, purposes, capabilities,
agents. -/
def checkRequest (request : ScopeRequest) : Except Status Unit := do
  rejectIf (¬context.eligible) ⟨.permissionDenied, context.denialReason⟩
  validateRequestSelector "workspace_id" request.workspaceId
  validateRequestSelector "namespace" request.namespace
  validateRequestSelector "request_purpose" request.requestPurpose
  validateRequestSelector "capability" request.capability
  checkAgent (validateRequestSelector "delegated_agent_id") request.delegatedAgentId
  rejectIf (request.workspaceId ≠ context.processWorkspaceId
      ∨ request.workspaceId ∉ context.workspaces)
    ⟨.permissionDenied, "requested Memory workspace is not granted to this principal"⟩
  rejectIf (¬∃ grant ∈ context.namespaces, namespaceMatches grant request.namespace)
    ⟨.permissionDenied, "requested Memory namespace is not granted to this principal"⟩
  rejectIf (¬∃ grant ∈ context.purposes, grant = "**" ∨ grant = request.requestPurpose)
    ⟨.permissionDenied, "requested Memory purpose is not granted to this principal"⟩
  rejectIf (request.capability ∉ context.capabilities)
    ⟨.permissionDenied, "required Memory capability is not granted to this principal"⟩
  checkAgent (fun agentId => rejectIf
      (¬∃ granted ∈ context.agentIds, granted = "**" ∨ granted = agentId)
      ⟨.permissionDenied, "delegated agent is not granted to this principal"⟩)
    request.delegatedAgentId

/-- The grant that is signed for a request. -/
def scopedGrant (decisionId : String) (request : ScopeRequest) (scope : MemoryScopeSelector)
    : Except Status MemoryAccessGrant := do
  let entityKeys ← effectiveScopeValues "entity_keys" context.entityKeys scope.entityKeys
  rejectIf (entityKeys = []) ⟨.permissionDenied, "principal has no effective Memory entity grant"⟩
  let dataSubjectIds ←
    effectiveScopeValues "data_subject_ids" context.dataSubjectIds scope.dataSubjectIds
  let sessionIds ← effectiveScopeValues "session_ids" context.sessionIds scope.sessionIds
  let taskIds ← effectiveScopeValues "task_ids" context.taskIds scope.taskIds
  let sensitivities ← effectiveSensitivities context.sensitivities scope.maximumSensitivity
  pure
    {
      principalId := context.principalId
      credentialId := context.credentialId
      workspaceId := request.workspaceId
      «namespace» := request.namespace
      requestPurpose := request.requestPurpose
      delegatedAgentId := request.delegatedAgentId
      allowSharedMemory := context.allowSharedMemory
      entityKeys
      dataSubjectIds
      requireDataSubject := !scope.dataSubjectIds.isEmpty
      sessionIds
      requireSession := !scope.sessionIds.isEmpty
      taskIds
      requireTask := !scope.taskIds.isEmpty
      sensitivities
      capability := request.capability
      authorizationEpoch := context.authorizationEpoch
      grantVersion := context.grantVersion
      authorizationDecisionId := decisionId
      systemJob := false
    }

/-- Intersect a request with the principal's grants and sign the result under a fresh decision
id. -/
def authorizeScoped (decisionId : String) (request : ScopeRequest)
    (scope : MemoryScopeSelector) : Except Status AuthorizedMemoryContext := do
  context.checkRequest request
  let grant ← context.scopedGrant decisionId request scope
  let accessProof ← (context.accessIssuer.issue grant).mapError fun _ =>
    ⟨.internal, "failed to issue Memory access proof"⟩
  pure
    {
      principalId := context.principalId
      credentialId := context.credentialId
      request
      authorizationEpoch := context.authorizationEpoch
      grantVersion := context.grantVersion
      authorizationDecisionId := decisionId
      accessProof
    }

def authorizedRecords (allowedCapabilities : List String) (issued : AuthorizedMemoryContext)
    : Set MemoryScope :=
  { scope | context.accessIssuer.authorizeRecord allowedCapabilities issued.accessProof scope
      = .ok true }

end MemoryAuthContext

/-! Comparing selectors -/

/-- A component that was in use keeps its values and may gain others. -/
def ValuesExtended (before after : List String) : Prop :=
  before = after ∨ before ≠ [] ∧ before ⊆ after

/-- A component that was not in use may be selected. -/
def ValuesAdded (before after : List String) : Prop :=
  before = after ∨ before = []

namespace MemoryScopeSelector

/-- Selectors already in use are extended by further values. -/
structure Extended (before after : MemoryScopeSelector) : Prop where
  entityKeys : ValuesExtended before.entityKeys after.entityKeys
  dataSubjectIds : ValuesExtended before.dataSubjectIds after.dataSubjectIds
  sessionIds : ValuesExtended before.sessionIds after.sessionIds
  taskIds : ValuesExtended before.taskIds after.taskIds
  maximumSensitivity : before.maximumSensitivity = after.maximumSensitivity
    ∨ ∃ old new, before.maximumSensitivity = some old ∧ after.maximumSensitivity = some new
      ∧ sensitivityRank old ≤ sensitivityRank new

/-- Selectors for components not selected before are added. -/
structure Added (before after : MemoryScopeSelector) : Prop where
  entityKeys : ValuesAdded before.entityKeys after.entityKeys
  dataSubjectIds : ValuesAdded before.dataSubjectIds after.dataSubjectIds
  sessionIds : ValuesAdded before.sessionIds after.sessionIds
  taskIds : ValuesAdded before.taskIds after.taskIds
  maximumSensitivity : before.maximumSensitivity = after.maximumSensitivity
    ∨ before.maximumSensitivity = none

end MemoryScopeSelector

/-- Selecting `fine` asks for no more than selecting `coarse` does. -/
def ValuesWithin (fine coarse : List String) : Prop :=
  coarse = [] ∨ fine ≠ [] ∧ fine ⊆ coarse

def MaximumWithin (fine coarse : Option Sensitivity) : Prop :=
  ∀ high, coarse = some high → ∃ low, fine = some low ∧ sensitivityRank low ≤ sensitivityRank high

theorem ValuesWithin.refl (values : List String) : ValuesWithin values values := by
  cases values with
  | nil => exact .inl rfl
  | cons value rest => exact .inr ⟨by simp, List.Subset.refl _⟩

variable {before after : List String}

theorem ValuesExtended.within (extended : ValuesExtended before after)
    : ValuesWithin before after := by
  rcases extended with rfl | ⟨used, kept⟩
  · exact .refl _
  · exact .inr ⟨used, kept⟩

theorem ValuesAdded.within (added : ValuesAdded before after)
    : ValuesWithin after before := by
  rcases added with rfl | rfl
  · exact .refl _
  · exact .inl rfl

namespace MemoryScopeSelector

/-- Every component of `fine` asks for no more than that of `coarse`. -/
structure Within (fine coarse : MemoryScopeSelector) : Prop where
  entityKeys : ValuesWithin fine.entityKeys coarse.entityKeys
  dataSubjectIds : ValuesWithin fine.dataSubjectIds coarse.dataSubjectIds
  sessionIds : ValuesWithin fine.sessionIds coarse.sessionIds
  taskIds : ValuesWithin fine.taskIds coarse.taskIds
  maximumSensitivity : MaximumWithin fine.maximumSensitivity coarse.maximumSensitivity

theorem within_default (selector : MemoryScopeSelector) : selector.Within {} :=
  ⟨.inl rfl, .inl rfl, .inl rfl, .inl rfl, by intro high absent; cases absent⟩

variable {before after : MemoryScopeSelector}

theorem Extended.within (extended : before.Extended after)
    : before.Within after := by
  refine ⟨extended.entityKeys.within, extended.dataSubjectIds.within,
    extended.sessionIds.within, extended.taskIds.within, ?_⟩
  intro high selected
  rcases extended.maximumSensitivity with same | ⟨old, new, wasOld, isNew, rises⟩
  · exact ⟨high, same.trans selected, Nat.le_refl _⟩
  · cases isNew.symm.trans selected
    exact ⟨old, wasOld, rises⟩

theorem Added.within (added : before.Added after)
    : after.Within before := by
  refine ⟨added.entityKeys.within, added.dataSubjectIds.within, added.sessionIds.within,
    added.taskIds.within, ?_⟩
  intro high selected
  rcases added.maximumSensitivity with same | unselected
  · exact ⟨high, same.symm.trans selected, Nat.le_refl _⟩
  · cases unselected.symm.trans selected

end MemoryScopeSelector

/-! What narrowing one component does -/

variable {grants : List String}

theorem effectiveScopeValues_eq_ok {field requested values}
    (accepted : effectiveScopeValues field grants requested = .ok values)
    : requested = [] ∧ values = grants
      ∨ requested ≠ [] ∧ values = requested
        ∧ ∀ value ∈ requested, "**" ∈ grants ∨ value ∈ grants := by
  unfold effectiveScopeValues at accepted
  split at accepted
  · next unselected => exact .inl ⟨unselected, by cases accepted; rfl⟩
  · next selected =>
      obtain ⟨checked, returned⟩ := seq_eq_ok.mp accepted
      refine .inr ⟨selected, (pure_eq_ok.mp returned).symm, ?_⟩
      clear accepted returned selected
      generalize ([] : List String) = unique at checked
      induction requested generalizing unique with
      | nil => simp
      | cons value rest ih =>
        simp only [effectiveScopeValues.go, seq_eq_ok, rejectIf_eq_ok, not_not] at checked
        obtain ⟨-, -, -, ⟨grant, granted, covers⟩, later⟩ := checked
        intro other member
        rcases List.mem_cons.mp member with rfl | inRest
        · rcases covers with rfl | rfl
          · exact .inl granted
          · exact .inr granted
        · exact ih (value :: unique) later other inRest

theorem scopeValueMatches_mono {field fine coarse fineValues coarseValues value}
    (within : ValuesWithin fine coarse)
    (fineAccepted : effectiveScopeValues field grants fine = .ok fineValues)
    (coarseAccepted : effectiveScopeValues field grants coarse = .ok coarseValues)
    (opened : scopeValueMatches fineValues value (!fine.isEmpty) = true)
    : scopeValueMatches coarseValues value (!coarse.isEmpty) = true := by
  rcases effectiveScopeValues_eq_ok coarseAccepted with
    ⟨rfl, rfl⟩ | ⟨selected, rfl, -⟩
  · rcases effectiveScopeValues_eq_ok fineAccepted with ⟨rfl, rfl⟩ | ⟨-, rfl, granted⟩
    · exact opened
    · cases value with
      | none => rfl
      | some value =>
        simp only [scopeValueMatches, List.any_eq_true, Bool.or_eq_true, beq_iff_eq]
          at opened ⊢
        obtain ⟨allowed, member, covers⟩ := opened
        rcases granted allowed member with wildcard | listed
        · exact ⟨"**", wildcard, .inl rfl⟩
        · exact ⟨allowed, listed, covers⟩
  · rcases within with rfl | ⟨used, kept⟩
    · exact absurd rfl selected
    · rcases effectiveScopeValues_eq_ok fineAccepted with ⟨rfl, -⟩ | ⟨-, rfl, -⟩
      · exact absurd rfl used
      · cases value with
        | none => simp [scopeValueMatches, used] at opened
        | some value =>
          simp only [scopeValueMatches, List.any_eq_true] at opened ⊢
          obtain ⟨allowed, member, covers⟩ := opened
          exact ⟨allowed, kept member, covers⟩

theorem mem_effectiveSensitivities {grants values maximum sensitivity}
    (accepted : effectiveSensitivities grants maximum = .ok values)
    : sensitivity ∈ values
      ↔ sensitivity ∈ grants
        ∧ ∀ high, maximum = some high → sensitivityRank sensitivity ≤ sensitivityRank high := by
  cases maximum with
  | none =>
    cases accepted
    simp
  | some high =>
    simp only [effectiveSensitivities, seq_eq_ok, pure_eq_ok] at accepted
    obtain ⟨-, rfl⟩ := accepted
    simp

namespace MemoryAuthContext

variable {context : MemoryAuthContext} {request : ScopeRequest}

variable {decisionId : String} {selector : MemoryScopeSelector} {issued : AuthorizedMemoryContext}

/-- What an accepted request went through. -/
theorem authorizeScoped_eq_ok
    (accepted : context.authorizeScoped decisionId request selector = .ok issued)
    : context.checkRequest request = .ok ()
      ∧ context.scopedGrant decisionId request selector = .ok issued.accessProof.grant
      ∧ context.accessIssuer.verify issued.accessProof = .ok () := by
  simp only [authorizeScoped, bind_eq_ok, exists_unit, mapError_eq_ok, pure_eq_ok] at accepted
  obtain ⟨checked, grant, granted, proof, signed, rfl⟩ := accepted
  obtain ⟨same, verified⟩ := context.accessIssuer.verify_of_issue signed
  exact ⟨checked, same ▸ granted, verified⟩

/-- The records opened under an accepted request. -/
theorem mem_authorizedRecords {allowed scope}
    (accepted : context.authorizeScoped decisionId request selector = .ok issued)
    : scope ∈ context.authorizedRecords allowed issued
      ↔ request.capability ∈ allowed
        ∧ request.workspaceId = scope.workspaceId
        ∧ request.namespace = scope.namespace
        ∧ scopeAdmitted issued.accessProof.grant scope = true := by
  obtain ⟨-, granted, verified⟩ := authorizeScoped_eq_ok accepted
  simp only [scopedGrant, bind_eq_ok, exists_unit, pure_eq_ok] at granted
  obtain ⟨_, -, -, _, -, _, -, _, -, _, -, grant⟩ := granted
  have principal : issued.accessProof.grant.systemJob = false := by rw [← grant]
  refine (AccessKey.authorizeRecord_eq_true verified principal).trans ?_
  simp [← grant]

theorem authorizedRecords_mono {fineDecision coarseDecision fine coarse fineIssued coarseIssued}
    (within : fine.Within coarse)
    (fineAccepted : context.authorizeScoped fineDecision request fine = .ok fineIssued)
    (coarseAccepted : context.authorizeScoped coarseDecision request coarse = .ok coarseIssued)
    (allowed : List String)
    : context.authorizedRecords allowed fineIssued
      ⊆ context.authorizedRecords allowed coarseIssued := by
  intro scope opened
  rw [mem_authorizedRecords fineAccepted] at opened
  rw [mem_authorizedRecords coarseAccepted]
  obtain ⟨capable, workspace, sameNamespace, admitted⟩ := opened
  refine ⟨capable, workspace, sameNamespace, ?_⟩
  obtain ⟨-, fineGranted, -⟩ := authorizeScoped_eq_ok fineAccepted
  obtain ⟨-, coarseGranted, -⟩ := authorizeScoped_eq_ok coarseAccepted
  simp only [scopedGrant, bind_eq_ok, exists_unit, pure_eq_ok] at fineGranted coarseGranted
  obtain ⟨_, fineEntities, -, _, fineSubjects, _, fineSessions, _, fineTasks, _, fineLevels,
    fineGrant⟩ := fineGranted
  obtain ⟨_, coarseEntities, -, _, coarseSubjects, _, coarseSessions, _, coarseTasks, _,
    coarseLevels, coarseGrant⟩ := coarseGranted
  rw [← fineGrant] at admitted
  rw [← coarseGrant]
  simp only [scopeAdmitted, Bool.false_or, Bool.and_eq_true, decide_eq_true_eq] at admitted ⊢
  obtain ⟨⟨⟨⟨⟨⟨purpose, owner⟩, entity⟩, subject⟩, session⟩, task⟩, level⟩ := admitted
  refine ⟨⟨⟨⟨⟨⟨purpose, owner⟩, ?_⟩, ?_⟩, ?_⟩, ?_⟩, ?_⟩
  · -- every record has an entity, so whether one is required makes no difference
    exact @scopeValueMatches_mono _ _ _ _ _ _ (some scope.entityKey) within.entityKeys
      fineEntities coarseEntities entity
  · exact scopeValueMatches_mono within.dataSubjectIds fineSubjects coarseSubjects subject
  · exact scopeValueMatches_mono within.sessionIds fineSessions coarseSessions session
  · exact scopeValueMatches_mono within.taskIds fineTasks coarseTasks task
  · rw [mem_effectiveSensitivities fineLevels] at level
    rw [mem_effectiveSensitivities coarseLevels]
    refine ⟨level.1, ?_⟩
    intro high selected
    obtain ⟨low, fineMaximum, below⟩ := within.maximumSensitivity high selected
    exact (level.2 low fineMaximum).trans below

/-- Selectors only narrow, and what is opened lies in the requested workspace and a granted
namespace.
Witness: each comparison is one of selectors.
-/
theorem selectors_only_narrow (context : MemoryAuthContext) (request : ScopeRequest)
    (decisionId : String) (selector : MemoryScopeSelector) (issued : AuthorizedMemoryContext)
    (accepted : context.authorizeScoped decisionId request selector = .ok issued)
    (allowed : List String)
    : (∀ otherDecision unselected,
        context.authorizeScoped otherDecision request {} = .ok unselected →
          context.authorizedRecords allowed issued ⊆ context.authorizedRecords allowed unselected)
      ∧ (∀ otherDecision further extended, selector.Extended further →
        context.authorizeScoped otherDecision request further = .ok extended →
          context.authorizedRecords allowed issued ⊆ context.authorizedRecords allowed extended)
      ∧ (∀ otherDecision further narrowed, selector.Added further →
        context.authorizeScoped otherDecision request further = .ok narrowed →
          context.authorizedRecords allowed narrowed ⊆ context.authorizedRecords allowed issued)
      ∧ ∀ scope ∈ context.authorizedRecords allowed issued, scope.workspaceId = request.workspaceId
          ∧ ∃ grant ∈ context.namespaces, namespaceMatches grant scope.namespace := by
  refine ⟨?_, ?_, ?_, ?_⟩
  · intro otherDecision unselected without
    exact authorizedRecords_mono selector.within_default accepted without allowed
  · intro otherDecision further extended grows others
    exact authorizedRecords_mono grows.within accepted others allowed
  · intro otherDecision further narrowed adds others
    exact authorizedRecords_mono adds.within others accepted allowed
  · intro scope opened
    obtain ⟨-, workspace, sameNamespace, -⟩ := (mem_authorizedRecords accepted).mp opened
    obtain ⟨checked, -, -⟩ := authorizeScoped_eq_ok accepted
    refine ⟨workspace.symm, sameNamespace ▸ ?_⟩
    simp only [checkRequest, seq_eq_ok, rejectIf_eq_ok, not_not] at checked
    obtain ⟨-, -, -, -, -, -, -, granted, -⟩ := checked
    exact granted

def sampleContext : MemoryAuthContext where
  principalId := "service:ingestion"
  credentialId := "credential-1"
  eligible := true
  denialReason := ""
  authorizationEpoch := 1
  grantVersion := 1
  processWorkspaceId := "default"
  workspaces := ["default"]
  namespaces := ["team/**"]
  agentIds := []
  allowSharedMemory := false
  entityKeys := ["service:ingestion"]
  dataSubjectIds := ["**"]
  sessionIds := ["session-1", "session-2"]
  taskIds := []
  sensitivities := [.public, .internal]
  purposes := ["**"]
  capabilities := ["memory.read"]
  accessIssuer := ⟨[7], fun key message => key ++ message⟩

def sampleRequest : ScopeRequest := ⟨"default", "team/search", "support", none, "memory.read"⟩

def sampleScope (sessionId : Option String) : MemoryScope where
  workspaceId := "default"
  «namespace» := "team/search"
  entityKey := "service:ingestion"
  dataSubjectId := none
  ownerAgentId := none
  sessionId := sessionId
  taskId := none
  sensitivity := .internal
  allowedPurposes := ["support"]

/-- A proof for one session opens a record of it, and no more than the unselected proof. -/
theorem one_session_narrows
    : ∃ issued,
        sampleContext.authorizeScoped "authz_1" sampleRequest { sessionIds := ["session-1"] }
          = .ok issued
        ∧ sampleScope (some "session-1") ∈ sampleContext.authorizedRecords ["memory.read"] issued
        ∧ ∀ otherDecision unselected,
          sampleContext.authorizeScoped otherDecision sampleRequest {} = .ok unselected →
            sampleContext.authorizedRecords ["memory.read"] issued
              ⊆ sampleContext.authorizedRecords ["memory.read"] unselected := by
  have evaluated : (sampleContext.authorizeScoped "authz_1" sampleRequest
      { sessionIds := ["session-1"] }).toOption.any (fun issued =>
        decide (sampleContext.accessIssuer.authorizeRecord ["memory.read"] issued.accessProof
          (sampleScope (some "session-1")) = .ok true)) = true := by
    decide +kernel
  cases accepted : sampleContext.authorizeScoped "authz_1" sampleRequest
      { sessionIds := ["session-1"] } with
  | error status => simp [accepted, Except.toOption] at evaluated
  | ok issued =>
    simp only [accepted, Except.toOption, Option.any_some, decide_eq_true_eq] at evaluated
    exact ⟨issued, rfl, evaluated,
      (selectors_only_narrow sampleContext sampleRequest "authz_1" _ issued accepted
        ["memory.read"]).1⟩

end MemoryAuthContext

end AkiDB.Memory
