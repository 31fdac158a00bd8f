import Mathlib.Data.String.Basic
import AkiDB.Library.SelfDelimiting
import AkiDB.Library.SortedByKey
import AkiDB.Memory.Access

/-!
What the signature and the scope digest of a grant cover: the whole grant can be read back from the
bytes that are signed, and its scope up to order from those that are digested.
-/

namespace AkiDB.Memory
open List Checked Utf8Text ByteFraming SelfDelimiting SortedByKey

abbrev FitsText (text : String) : Prop :=
  text.utf8ByteSize < 256 ^ 4

abbrev FitsTexts (values : List String) : Prop :=
  values.length < 256 ^ 4 ∧ ∀ text ∈ values, FitsText text

/-- Lengths and counts are below those of their fields, and numbers are machine words. -/
structure MemoryAccessGrant.Fits (grant : MemoryAccessGrant) : Prop where
  ids : FitsText grant.principalId ∧ FitsText grant.credentialId ∧ FitsText grant.capability
    ∧ FitsText grant.authorizationDecisionId
  scope : FitsText grant.workspaceId ∧ FitsText grant.namespace ∧ FitsText grant.requestPurpose
    ∧ (∀ text ∈ grant.delegatedAgentId, FitsText text) ∧ FitsTexts grant.entityKeys
    ∧ FitsTexts grant.dataSubjectIds ∧ FitsTexts grant.sessionIds ∧ FitsTexts grant.taskIds
    ∧ grant.sensitivities.length < 256 ^ 4
  numbers : grant.authorizationEpoch < 256 ^ 8 ∧ grant.grantVersion < 256 ^ 8

/-- The part of an encoded grant that its scope digest covers as well, in front of the rest. -/
def scopeBytes (grant : MemoryAccessGrant) (rest : Bytes) : Bytes :=
  component (bytes grant.workspaceId) ++ (component (bytes grant.namespace)
    ++ (component (bytes grant.requestPurpose) ++ (optionalComponent grant.delegatedAgentId
    ++ (flag grant.allowSharedMemory ++ (pushScopeValues grant.entityKeys
    ++ (pushScopeValues grant.dataSubjectIds ++ (flag grant.requireDataSubject
    ++ (pushScopeValues grant.sessionIds ++ (flag grant.requireSession
    ++ (pushScopeValues grant.taskIds ++ (flag grant.requireTask
    ++ (sensitivityBytes grant.sensitivities ++ rest))))))))))))

/-- The grant with the lists of its scope in order. -/
def sortedScope (grant : MemoryAccessGrant) : MemoryAccessGrant :=
  { grant with
    entityKeys := sorted id grant.entityKeys
    dataSubjectIds := sorted id grant.dataSubjectIds
    sessionIds := sorted id grant.sessionIds
    taskIds := sorted id grant.taskIds
    sensitivities := sorted sensitivityRank grant.sensitivities }

def accessScopeSha256 (sha256 : Bytes → String) (grant : MemoryAccessGrant) : String :=
  sha256 (bytes "akidb-memory-effective-scope" ++ [0] ++ bytes "v1" ++ [0]
    ++ scopeBytes (sortedScope grant) [])

/-- The fields of the scope agree, and its lists do so up to order. -/
def SameScope (left right : MemoryAccessGrant) : Prop :=
  left.workspaceId = right.workspaceId ∧ left.namespace = right.namespace
    ∧ left.requestPurpose = right.requestPurpose ∧ left.delegatedAgentId = right.delegatedAgentId
    ∧ left.allowSharedMemory = right.allowSharedMemory ∧ left.entityKeys ~ right.entityKeys
    ∧ left.dataSubjectIds ~ right.dataSubjectIds
    ∧ left.requireDataSubject = right.requireDataSubject ∧ left.sessionIds ~ right.sessionIds
    ∧ left.requireSession = right.requireSession ∧ left.taskIds ~ right.taskIds
    ∧ left.requireTask = right.requireTask ∧ left.sensitivities ~ right.sensitivities

theorem sensitivityRank_injective : Function.Injective sensitivityRank := by
  intro left right
  cases left <;> cases right <;> decide

theorem readsBack_text : ReadsBack FitsText fun text => component (bytes text) := by
  have reads := readsBack_component.comap fun _ _ => bytes_inj
  simp only [bytes_length] at reads
  exact reads

theorem readsBack_flag : ReadsBack (fun _ => True) flag :=
  .of_length 1 (fun _ => rfl) fun left _ right _ => by revert left right; decide

theorem readsBack_optionalComponent
    : ReadsBack (fun value => ∀ text ∈ value, FitsText text) optionalComponent := by
  intro left right leftRest rightRest leftFits rightFits same
  cases left <;> cases right
  · exact ⟨rfl, (cons.inj same).2⟩
  · cases (cons.inj same).1
  · cases (cons.inj same).1
  · obtain ⟨rfl, rests⟩ := readsBack_text (leftFits _ rfl) (rightFits _ rfl) (cons.inj same).2
    exact ⟨rfl, rests⟩

theorem readsBack_pushScopeValues : ReadsBack FitsTexts pushScopeValues := by
  intro left right leftRest rightRest leftFits rightFits same
  simp only [pushScopeValues, frame, flatMap_map] at same
  exact readsBack_text.counted 4 leftFits rightFits same

theorem readsBack_sensitivityBytes
    : ReadsBack (fun sensitivities => sensitivities.length < 256 ^ 4) sensitivityBytes := by
  have ranks : ReadsBack (fun _ => True) fun sensitivity : Sensitivity =>
      [UInt8.ofNat (sensitivityRank sensitivity)] :=
    .of_length 1 (fun _ => rfl) fun left _ right _ => by
      cases left <;> cases right <;> decide
  intro left right leftRest rightRest leftFits rightFits same
  simp only [sensitivityBytes, map_eq_flatMap] at same
  exact ranks.counted 4 ⟨leftFits, fun _ _ => trivial⟩ ⟨rightFits, fun _ _ => trivial⟩ same

/-- The fields that `scopeBytes` joins. -/
def scopeFields (grant : MemoryAccessGrant) :=
  (grant.workspaceId, grant.namespace, grant.requestPurpose, grant.delegatedAgentId,
    grant.allowSharedMemory, grant.entityKeys, grant.dataSubjectIds, grant.requireDataSubject,
    grant.sessionIds, grant.requireSession, grant.taskIds, grant.requireTask, grant.sensitivities)

variable {left right : MemoryAccessGrant} {leftRest rightRest : Bytes}

theorem scopeFields_of_scopeBytes (leftFits : left.Fits) (rightFits : right.Fits)
    (same : scopeBytes left leftRest = scopeBytes right rightRest)
    : scopeFields left = scopeFields right ∧ leftRest = rightRest := by
  have text := readsBack_text
  have values := readsBack_pushScopeValues
  have reads := text.prod <| text.prod <| text.prod <| readsBack_optionalComponent.prod <|
    readsBack_flag.prod <| values.prod <| values.prod <| readsBack_flag.prod <| values.prod <|
    readsBack_flag.prod <| values.prod <| readsBack_flag.prod readsBack_sensitivityBytes
  refine reads ?_ ?_ (by simpa only [scopeFields, scopeBytes, append_assoc] using same)
  · simpa [scopeFields] using leftFits.scope
  · simpa [scopeFields] using rightFits.scope

@[simp]
theorem fitsTexts_sorted (values : List String)
    : FitsTexts (sorted id values) ↔ FitsTexts values := by
  simp only [FitsTexts, (sorted_perm values).length_eq, (sorted_perm values).mem_iff]

theorem sortedScope_fits {grant : MemoryAccessGrant} (fits : grant.Fits)
    : (sortedScope grant).Fits where
  ids := fits.ids
  scope := by simpa [sortedScope, (sorted_perm _).length_eq] using fits.scope
  numbers := fits.numbers

theorem encodeAccessGrant_inj {encoded : Bytes} (leftFits : left.Fits) (rightFits : right.Fits)
    (leftEncodes : encodeAccessGrant left = .ok encoded)
    (rightEncodes : encodeAccessGrant right = .ok encoded)
    : left = right := by
  simp only [encodeAccessGrant, seq_eq_ok, pure_eq_ok, append_assoc] at leftEncodes rightEncodes
  obtain ⟨_, rfl⟩ := leftEncodes
  have same := append_cancel_left (append_cancel_left (append_cancel_left
    (append_cancel_left rightEncodes.2)))
  -- One field after the other is read off the front of what is left.
  obtain ⟨principals, same⟩ := readsBack_text rightFits.ids.1 leftFits.ids.1 same
  obtain ⟨credentials, same⟩ := readsBack_text rightFits.ids.2.1 leftFits.ids.2.1 same
  obtain ⟨scopes, same⟩ := scopeFields_of_scopeBytes rightFits leftFits same
  obtain ⟨capabilities, same⟩ := readsBack_text rightFits.ids.2.2.1 leftFits.ids.2.2.1 same
  obtain ⟨epochs, same⟩ := readsBack_beBytes 8 rightFits.numbers.1 leftFits.numbers.1 same
  obtain ⟨versions, same⟩ := readsBack_beBytes 8 rightFits.numbers.2 leftFits.numbers.2 same
  obtain ⟨decisions, same⟩ := readsBack_text rightFits.ids.2.2.2 leftFits.ids.2.2.2 same
  obtain ⟨jobs, _⟩ := readsBack_flag trivial trivial (congrArg (· ++ []) same)
  cases left
  cases right
  simp_all [scopeFields]

theorem accessScopeSha256_iff {sha256 : Bytes → String} (injective : Function.Injective sha256)
    (leftFits : left.Fits) (rightFits : right.Fits)
    : accessScopeSha256 sha256 left = accessScopeSha256 sha256 right ↔ SameScope left right := by
  have fields : scopeFields (sortedScope left) = scopeFields (sortedScope right)
      ↔ SameScope left right := by
    simp [scopeFields, sortedScope, SameScope, sorted_eq_iff Function.injective_id,
      sorted_eq_iff sensitivityRank_injective]
  rw [← fields]
  refine ⟨fun same => ?_, fun same => ?_⟩
  · exact (scopeFields_of_scopeBytes (sortedScope_fits leftFits) (sortedScope_fits rightFits)
      (append_cancel_left (injective same))).1
  · simp only [scopeFields, Prod.mk.injEq] at same
    simp only [accessScopeSha256, scopeBytes, same]

/-- Encoded grants agree only if the grants do, a signature verifies for no other grant, and scope
digests agree exactly for the same scope.
Witness: the encoding is a row of self-delimiting codes.
-/
theorem access_encodings_determine (access : AccessKey) (sha256 : Bytes → String)
    (left right : { grant : MemoryAccessGrant // grant.Fits })
    : (∀ encoded, encodeAccessGrant left = .ok encoded → encodeAccessGrant right = .ok encoded →
        left = right)
      ∧ (Function.Injective (access.hmacSha256 access.key) → ∀ proof,
        access.issue left = .ok proof →
          (access.verify ⟨right, proof.signature⟩ = .ok () ↔ left = right))
      ∧ (Function.Injective sha256 →
        (accessScopeSha256 sha256 left = accessScopeSha256 sha256 right
          ↔ SameScope left right)) := by
  have encodings {encoded} (leftEncodes : encodeAccessGrant left = .ok encoded)
      (rightEncodes : encodeAccessGrant right = .ok encoded) : left = right :=
    Subtype.ext (encodeAccessGrant_inj left.2 right.2 leftEncodes rightEncodes)
  refine ⟨fun _ => encodings, fun unforgeable proof issued => ⟨fun verified => ?_, ?_⟩,
    fun injective => accessScopeSha256_iff injective left.2 right.2⟩
  · simp only [AccessKey.issue, bind_eq_ok, pure_eq_ok] at issued
    obtain ⟨encoded, encodes, rfl⟩ := issued
    simp only [AccessKey.verify, bind_eq_ok, mapError_eq_ok, rejectIf_eq_ok, not_not] at verified
    obtain ⟨_, otherEncodes, signatures⟩ := verified
    exact encodings encodes (unforgeable signatures ▸ otherEncodes)
  · rintro rfl
    obtain ⟨granted, verified⟩ := access.verify_of_issue issued
    rw [← granted]
    exact verified

theorem purposes_tell_grants_apart
    : let grant (purpose : String) : MemoryAccessGrant := ⟨"user", "key", "default", "team",
        purpose, none, false, ["user"], [], false, [], false, [], false, [.public], "memory.read",
        1, 1, "decision", false⟩
      encodeAccessGrant (grant "read") ≠ encodeAccessGrant (grant "audit") := by
  intro grant same
  have fits : (grant "read").Fits ∧ (grant "audit").Fits := by
    constructor <;> constructor <;> decide
  have accepted : (encodeAccessGrant (grant "read")).isOk = true := by decide +kernel
  cases encodes : encodeAccessGrant (grant "read") with
  | error _ => simp [encodes, Except.isOk, Except.toBool] at accepted
  | ok encoded =>
    have equal := (access_encodings_determine ⟨[], fun _ _ => []⟩ (fun _ => "") ⟨_, fits.1⟩
      ⟨_, fits.2⟩).1 encoded encodes (same.symm.trans encodes)
    have purposes : "read" = "audit" := congrArg (·.1.requestPurpose) equal
    exact absurd purposes (by decide)

end AkiDB.Memory
