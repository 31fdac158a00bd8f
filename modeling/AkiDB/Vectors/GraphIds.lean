import AkiDB.Library.SizedKeys
import AkiDB.Vectors.Projection

/-! Node ids determine what they name: workspace, kind and id can be read back from them. -/

namespace AkiDB.Vectors
open List GraphNodeId SizedKeys

theorem stripLeading_append (leading text : List Char)
    : stripLeading leading (leading ++ text) = some text := by
  induction leading with
  | nil => rfl
  | cons char rest ih => simpa [stripLeading] using ih

variable {separator : Char} {front : List Char}

theorem splitOnce_append (absent : separator ∉ front) (rest : List Char)
    : splitOnce separator (front ++ separator :: rest) = some (front, rest) := by
  induction front with
  | nil => simp [splitOnce]
  | cons char front ih =>
    rw [mem_cons, not_or] at absent
    simp [splitOnce, Ne.symm absent.1, ih absent.2]

theorem splitAtBytes_append (front rest : List Char)
    : splitAtBytes (String.utf8Len front) (front ++ rest) = some (front, rest) := by
  induction front with
  | nil => simp [splitAtBytes]
  | cons char front ih =>
    have positive := char.utf8Size_pos
    rw [String.utf8Len_cons, cons_append]
    obtain ⟨count, same⟩ : ∃ count, String.utf8Len front + char.utf8Size = count + 1 :=
      ⟨String.utf8Len front + char.utf8Size - 1, by omega⟩
    rw [same, splitAtBytes, if_pos (by omega),
      show count + 1 - char.utf8Size = String.utf8Len front by omega, ih]
    rfl

theorem separator_notMem_toDigits (value : Nat) : ':' ∉ Nat.toDigits 10 value := by
  intro member
  have digit := Nat.isDigit_of_mem_toDigits (by decide) (by decide) member
  exact absurd digit (by decide)

theorem eq_of_parseDigits {digits} {value read : Nat}
    (parsed : parseDigits value digits = some read)
    : read = Nat.ofDigitChars 10 digits value := by
  induction digits generalizing value with
  | nil => cases parsed; rfl
  | cons digit rest ih =>
    unfold parseDigits at parsed
    split at parsed
    · exact ih parsed
    · cases parsed

theorem parseUsize_eq (value : Nat)
    : parseUsize (Nat.toDigits 10 value) = parseDigits 0 (Nat.toDigits 10 value) := by
  have unsigned : '+' ∉ Nat.toDigits 10 value := fun member =>
    absurd (Nat.isDigit_of_mem_toDigits (by decide) (by decide) member) (by decide)
  unfold parseUsize
  split
  · next empty => exact absurd empty Nat.toDigits_ne_nil
  · next sign => exact absurd (sign ▸ mem_cons_self) unsigned
  · next sign => exact absurd (sign ▸ mem_cons_self) unsigned
  · rfl

theorem eq_of_parseUsize {value read : Nat}
    (parsed : parseUsize (Nat.toDigits 10 value) = some read) : read = value := by
  rw [parseUsize_eq] at parsed
  rw [eq_of_parseDigits parsed]
  exact Nat.ofDigitChars_toDigits (by decide) (by decide)

theorem toList_scopedId (workspaceId localId : String)
    : (scopedId workspaceId localId).toList
      = "workspace:".toList ++ (Nat.toDigits 10 workspaceId.utf8ByteSize
        ++ ':' :: (workspaceId.toList ++ ':' :: localId.toList)) := by
  change ("workspace:" ++ toString workspaceId.utf8ByteSize ++ ":" ++ workspaceId ++ ":"
    ++ localId).toList = _
  simp [String.toList_append, Nat.toList_repr, Nat.toString_eq_repr]

theorem utf8Len_toList (text : String) : String.utf8Len text.toList = text.utf8ByteSize := by
  rw [← String.utf8ByteSize_ofList, String.ofList_toList]

variable {workspaceId otherWorkspace : String}

/-- A scoped id has one workspace and one local part: digits end at the first separator. -/
theorem scopedId_inj {localId otherLocal} (same : scopedId workspaceId localId
      = scopedId otherWorkspace otherLocal)
    : workspaceId = otherWorkspace ∧ localId = otherLocal := by
  have chars := congrArg String.toList same
  rw [toList_scopedId, toList_scopedId] at chars
  obtain ⟨digits, rest⟩ := append_separator_inj (separator_notMem_toDigits _)
    (separator_notMem_toDigits _) (append_cancel_left chars)
  have sizes : workspaceId.utf8ByteSize = otherWorkspace.utf8ByteSize := by
    have read := congrArg (Nat.ofDigitChars 10 · 0) digits
    simpa [Nat.ofDigitChars_toDigits] using read
  have split := splitAtBytes_append workspaceId.toList (':' :: localId.toList)
  rw [rest, utf8Len_toList, sizes, ← utf8Len_toList, splitAtBytes_append] at split
  simp only [Option.some.injEq, Prod.mk.injEq, List.cons.injEq, true_and] at split
  exact ⟨(String.toList_inj.mp split.1).symm, (String.toList_inj.mp split.2).symm⟩

theorem scopedParts_eq (workspaceId localId : String)
    : scopedParts (scopedId workspaceId localId)
      = (parseUsize (Nat.toDigits 10 workspaceId.utf8ByteSize)).map fun _ =>
        (workspaceId, localId) := by
  have split := splitAtBytes_append workspaceId.toList (':' :: localId.toList)
  rw [utf8Len_toList] at split
  simp only [scopedParts, toList_scopedId, stripLeading_append,
    splitOnce_append (separator_notMem_toDigits _), Option.bind_eq_bind, Option.bind_some]
  cases parsed : parseUsize (Nat.toDigits 10 workspaceId.utf8ByteSize) with
  | none => rfl
  | some read =>
    cases eq_of_parseUsize parsed
    simp only [Option.bind_some, split, String.ofList_toList, Option.map_some]

theorem asKey_inj {kind other : NodeKind} (same : kind.asKey = other.asKey) : kind = other := by
  revert same
  cases kind <;> cases other <;> decide

variable (kind : NodeKind)

theorem separator_notMem_asKey : ':' ∉ kind.asKey.toList := by
  cases kind <;> decide

def localNodeId (id : String) : String :=
  s!"{kind.asKey}:{id}"

theorem toList_localNodeId (id : String)
    : (localNodeId kind id).toList = kind.asKey.toList ++ ':' :: id.toList := by
  change (kind.asKey ++ ":" ++ id).toList = _
  simp [String.toList_append]

variable {other : String} {otherKind : NodeKind}

theorem localNodeId_inj {kind : NodeKind} {id : String}
    (same : localNodeId kind id = localNodeId otherKind other)
    : kind = otherKind ∧ id = other := by
  have chars := congrArg String.toList same
  rw [toList_localNodeId, toList_localNodeId] at chars
  obtain ⟨keys, ids⟩ :=
    append_separator_inj (separator_notMem_asKey _) (separator_notMem_asKey _) chars
  exact ⟨asKey_inj (String.toList_inj.mp keys), String.toList_inj.mp ids⟩

theorem localNodeId_ne_scopedId (id workspaceId localId : String)
    : localNodeId kind id ≠ scopedId workspaceId localId := by
  intro same
  have chars := congrArg String.toList same
  have workspace : "workspace:".toList = "workspace".toList ++ [':'] := by decide
  rw [toList_localNodeId, toList_scopedId, workspace, append_assoc, singleton_append] at chars
  obtain ⟨keys, _⟩ := append_separator_inj (separator_notMem_asKey _) (by decide) chars
  have key := String.toList_inj.mp keys
  revert key
  cases kind <;> decide

theorem graphNodeId_inj {kind id}
    (same : graphNodeId workspaceId kind id = graphNodeId otherWorkspace otherKind other)
    : workspaceId = otherWorkspace ∧ kind = otherKind ∧ id = other := by
  change scopedGraphNodeId _ (localNodeId ..) = scopedGraphNodeId _ (localNodeId ..) at same
  unfold scopedGraphNodeId at same
  split at same
  · next default =>
      split at same
      · next otherDefault =>
          obtain ⟨kinds, ids⟩ := localNodeId_inj same
          exact ⟨default.trans otherDefault.symm, kinds, ids⟩
      · exact absurd same (localNodeId_ne_scopedId _ _ _ _)
  · split at same
    · exact absurd same.symm (localNodeId_ne_scopedId _ _ _ _)
    · obtain ⟨workspaces, locals⟩ := scopedId_inj same
      obtain ⟨kinds, ids⟩ := localNodeId_inj locals
      exact ⟨workspaces, kinds, ids⟩

theorem scopedParts_localNodeId (id : String)
    : scopedParts (localNodeId kind id) = none := by
  have other : stripLeading "workspace:".toList (localNodeId kind id).toList = none := by
    rw [toList_localNodeId]
    cases kind <;> rfl
  simp only [scopedParts, other, Option.bind_eq_bind, Option.bind_none]

theorem isSameWorkspace_graphNodeId (workspaceId : String) (kind otherKind : NodeKind)
    (id other : String)
    : GraphNodeId.isSameWorkspace (graphNodeId workspaceId kind id)
        (graphNodeId workspaceId otherKind other) := by
  change GraphNodeId.isSameWorkspace (scopedGraphNodeId _ (localNodeId ..))
    (scopedGraphNodeId _ (localNodeId ..))
  unfold scopedGraphNodeId GraphNodeId.isSameWorkspace GraphNodeId.workspaceId
  split
  · rw [scopedParts_localNodeId, scopedParts_localNodeId]
  · rw [scopedParts_eq, scopedParts_eq, Option.map_map, Option.map_map]
    rfl

theorem chunkNodeId_eq (workspaceId vectorId : String)
    : chunkNodeId workspaceId vectorId = graphNodeId workspaceId .chunk vectorId := rfl

theorem chunkNodeId_inj {vectorId}
    (same : chunkNodeId workspaceId vectorId = chunkNodeId otherWorkspace other)
    : workspaceId = otherWorkspace ∧ vectorId = other := by
  rw [chunkNodeId_eq, chunkNodeId_eq] at same
  obtain ⟨workspaces, _, ids⟩ := graphNodeId_inj same
  exact ⟨workspaces, ids⟩

theorem parseDigits_of_lt {digits : List Char} {value : Nat}
    (each : ∀ digit ∈ digits, digit.isDigit) (fits : Nat.ofDigitChars 10 digits value < 2 ^ 64)
    : parseDigits value digits = some (Nat.ofDigitChars 10 digits value) := by
  induction digits generalizing value with
  | nil => rfl
  | cons digit rest ih =>
    rw [forall_mem_cons] at each
    rw [Nat.ofDigitChars_cons] at fits ⊢
    -- What is read so far is at most the number in the end.
    have small : 10 * value + (digit.toNat - '0'.toNat) < 2 ^ 64 := by
      rw [Nat.ofDigitChars_eq_ofDigitChars_zero] at fits
      have := Nat.le_mul_of_pos_left (10 * value + (digit.toNat - '0'.toNat))
        (Nat.pow_pos (n := rest.length) (by decide : 0 < 10))
      omega
    rw [parseDigits, if_pos ⟨each.1, small⟩, ih each.2 fits]

theorem parseUsize_toDigits {value : Nat} (fits : value < 2 ^ 64)
    : parseUsize (Nat.toDigits 10 value) = some value := by
  have same : Nat.ofDigitChars 10 (Nat.toDigits 10 value) 0 = value :=
    Nat.ofDigitChars_toDigits (by decide) (by decide)
  have each (digit : Char) (member : digit ∈ Nat.toDigits 10 value) : digit.isDigit :=
    Nat.isDigit_of_mem_toDigits (by decide) (by decide) member
  rw [parseUsize_eq, parseDigits_of_lt each (same.symm ▸ fits), same]

theorem scopedParts_graphNodeId {workspaceId : String} (short : workspaceId.utf8ByteSize < 2 ^ 64)
    (kind : NodeKind) (id : String)
    : scopedParts (graphNodeId workspaceId kind id)
      = if workspaceId = "default" then none else some (workspaceId, localNodeId kind id) := by
  change scopedParts (scopedGraphNodeId workspaceId (localNodeId kind id)) = _
  unfold scopedGraphNodeId
  split
  · exact scopedParts_localNodeId kind id
  · rw [scopedParts_eq, parseUsize_toDigits short]
    rfl

/-- Node ids of workspaces that fit in memory read back as what they were made of.
Witness: the digits of the length are read back, and the length ends the workspace.
-/
theorem graphNodeId_reads_back (workspace other : {text : String // text.utf8ByteSize < 2 ^ 64})
    (kind otherKind : NodeKind) (id otherId : String)
    : (GraphNodeId.workspaceId (graphNodeId workspace kind id)).getD "default" = workspace.1
      ∧ localId (graphNodeId workspace kind id) = localNodeId kind id
      ∧ asChunkVectorId (graphNodeId workspace kind id) = (if kind = .chunk then some id else none)
      ∧ (isSameWorkspace (graphNodeId workspace kind id) (graphNodeId other otherKind otherId)
        ↔ workspace = other) := by
  have parts := scopedParts_graphNodeId workspace.2 kind id
  have read : localId (graphNodeId workspace kind id) = localNodeId kind id := by
    unfold localId
    rw [parts]
    split
    · next default =>
      unfold graphNodeId scopedGraphNodeId
      rw [if_pos default]
      rfl
    · rfl
  unfold isSameWorkspace asChunkVectorId GraphNodeId.workspaceId
  rw [read, parts, scopedParts_graphNodeId other.2, toList_localNodeId, Subtype.ext_iff]
  refine ⟨?_, rfl, ?_, ?_⟩
  · split
    · next default => exact default.symm
    · rfl
  · cases kind <;> simp [NodeKind.asKey, stripLeading]
  · clear parts read
    split <;> split <;> grind

theorem separated_id_reads_back
    : asChunkVectorId (graphNodeId "team" .chunk "a:chunk:b") = some "a:chunk:b" :=
  (graphNodeId_reads_back ⟨"team", by decide⟩ ⟨"team", by decide⟩ .chunk .chunk "a:chunk:b"
    "c").2.2.1

end AkiDB.Vectors
