import AkiDB.ServingState.Operations

/-! The key encoding separates its four families and their components. -/

namespace AkiDB.ServingState
open AkiDB.Contracts Checked Utf8Text ByteFraming AtomicBatch Unsigned List

/-- A place in the store, before it is encoded as a key. -/
inductive Slot where
  | state (scope : KnowledgeScope)
  | checkpoint (scope : KnowledgeScope) (generationId : String)
  | sequence (scope : KnowledgeScope) (generationId : String) (sequence : Nat)
  | identity (scope : KnowledgeScope) (generationId mutationId : String)
  deriving DecidableEq

namespace Slot

def key : Slot → Bytes
  | state scope => stateKey scope
  | checkpoint scope generationId => checkpointKey scope generationId
  | sequence scope generationId number => mutationSequenceKey scope generationId number
  | identity scope generationId mutationId =>
    mutationIdentityKey scope generationId mutationId

def scope : Slot → KnowledgeScope
  | state scope => scope
  | checkpoint scope _ => scope
  | sequence scope _ _ => scope
  | identity scope _ _ => scope

def InRange : Slot → Prop
  | sequence _ _ number => number < range64
  | _ => True

/-- The component sizes that validation enforces before a key is written. -/
def Short : Slot → Prop
  | state scope => scope.validate = .ok ()
  | checkpoint scope generationId =>
    scope.validate = .ok () ∧ generationId.utf8ByteSize ≤ maxIdBytes
  | sequence scope generationId number =>
    scope.validate = .ok () ∧ generationId.utf8ByteSize ≤ maxIdBytes ∧ number < range64
  | identity scope generationId mutationId =>
    scope.validate = .ok () ∧ generationId.utf8ByteSize ≤ maxIdBytes
    ∧ mutationId.utf8ByteSize ≤ maxIdBytes

theorem Short.inRange {slot : Slot} (short : slot.Short) : slot.InRange := by
  cases slot with
  | sequence _ _ _ => exact short.2.2
  | _ => trivial

end Slot

/-- A compound key determines its kind, scope and components as soon as one side is short. -/
theorem compoundKey_inj {leftKind rightKind leftScope rightScope left right}
    (same : compoundKey leftKind leftScope left = compoundKey rightKind rightScope right)
    (bound : (compoundKey rightKind rightScope right).length < 256 ^ 4)
    : leftKind = rightKind ∧ leftScope = rightScope ∧ left = right := by
  simp only [compoundKey, length_append] at same bound
  have framed := frame_inj (append_cancel_left same) (by omega)
  simp only [List.cons.injEq] at framed
  obtain ⟨kinds, workspaces, collections, components⟩ := framed
  refine ⟨kinds, ?_, components⟩
  cases leftScope
  cases rightScope
  simp only [KnowledgeScope.mk.injEq]
  exact ⟨bytes_inj workspaces, bytes_inj collections⟩

@[simp]
theorem keyNamespace_length : keyNamespace.length = 27 := by decide

theorem Slot.Short.key_length {slot : Slot} (short : slot.Short)
    : slot.key.length < 256 ^ 4 := by
  have scopeSizes : ∀ scope : KnowledgeScope, scope.validate = .ok () →
      scope.workspaceId.utf8ByteSize ≤ 255 ∧ scope.collection.utf8ByteSize ≤ 255 :=
    fun scope accepted => KnowledgeScope.validate_sizes accepted
  cases slot with
  | state scope =>
    have sizes := scopeSizes scope short
    have kind : "state".utf8ByteSize = 5 := by decide
    simp [Slot.key, stateKey, compoundKey, kind]
    omega
  | checkpoint scope generationId =>
    have sizes := scopeSizes scope short.1
    have generation : generationId.utf8ByteSize ≤ 1024 := short.2
    have kind : "checkpoint".utf8ByteSize = 10 := by decide
    simp [Slot.key, checkpointKey, compoundKey, kind]
    omega
  | sequence scope generationId number =>
    have sizes := scopeSizes scope short.1
    have generation : generationId.utf8ByteSize ≤ 1024 := short.2.1
    have kind : "mutation-sequence".utf8ByteSize = 17 := by decide
    simp [Slot.key, mutationSequenceKey, compoundKey, kind]
    omega
  | identity scope generationId mutationId =>
    have sizes := scopeSizes scope short.1
    have generation : generationId.utf8ByteSize ≤ 1024 := short.2.1
    have mutation : mutationId.utf8ByteSize ≤ 1024 := short.2.2
    have kind : "mutation-identity".utf8ByteSize = 17 := by decide
    simp [Slot.key, mutationIdentityKey, compoundKey, kind]
    omega

def Slot.kind : Slot → String
  | .state _ => "state"
  | .checkpoint _ _ => "checkpoint"
  | .sequence _ _ _ => "mutation-sequence"
  | .identity _ _ _ => "mutation-identity"

def Slot.components : Slot → List Bytes
  | .state _ => []
  | .checkpoint _ generationId => [bytes generationId]
  | .sequence _ generationId number => [bytes generationId, beBytes 8 number]
  | .identity _ generationId mutationId => [bytes generationId, bytes mutationId]

theorem Slot.key_eq (slot : Slot)
    : slot.key = compoundKey (bytes slot.kind) slot.scope slot.components := by
  cases slot <;> rfl

/-- Distinct slots have distinct keys, whatever the reader asks for. -/
theorem Slot.key_inj {left right : Slot} (inRange : left.InRange) (short : right.Short)
    (same : left.key = right.key)
    : left = right := by
  have bound := short.key_length
  rw [Slot.key_eq, Slot.key_eq right] at same
  rw [Slot.key_eq right] at bound
  obtain ⟨kinds, scopes, components⟩ := compoundKey_inj same bound
  have kindsEq := bytes_inj kinds
  cases left <;> cases right <;> simp only [Slot.kind, String.reduceEq] at kindsEq
  case state.state => exact congrArg _ scopes
  case checkpoint.checkpoint =>
    simp only [Slot.components, List.cons.injEq, and_true] at components
    simp only [Slot.scope] at scopes
    rw [scopes, bytes_inj components]
  case sequence.sequence =>
    simp only [Slot.components, List.cons.injEq, and_true] at components
    simp only [Slot.scope] at scopes
    have sequences := beBytes_inj inRange short.2.2 components.2
    rw [scopes, bytes_inj components.1, sequences]
  case identity.identity =>
    simp only [Slot.components, List.cons.injEq, and_true] at components
    simp only [Slot.scope] at scopes
    rw [scopes, bytes_inj components.1, bytes_inj components.2]

/-- A key belongs to a scope when it is a compound key of that scope, of whatever kind. -/
def KeyOfScope (scope : KnowledgeScope) (key : Bytes) : Prop :=
  ∃ kind components, key = compoundKey kind scope components

theorem Slot.Short.key_ofScope {slot : Slot} (short : slot.Short) {scope}
    (belongs : KeyOfScope scope slot.key)
    : scope = slot.scope := by
  obtain ⟨kind, components, same⟩ := belongs
  have bound := short.key_length
  rw [Slot.key_eq] at same bound
  exact (compoundKey_inj same.symm bound).2.1

def read (backend : Backend) (slot : Slot) : Option StoredValue :=
  backend[slot.key]?

@[simp]
theorem read_empty (slot : Slot) : read ∅ slot = none := by
  simp [read]

abbrev SlotWrite : Type := Slot × StoredValue

def SlotWrite.operation (write : SlotWrite) : Write :=
  .put write.1.key write.2

def writeSlots (backend : Backend) (writes : List SlotWrite) : Backend :=
  applyBatch backend (writes.map SlotWrite.operation)

section
variable {backend : Backend} {writes : List SlotWrite}
  (short : ∀ write ∈ writes, write.1.Short) (slot : Slot) (inRange : slot.InRange)
include short inRange

theorem read_writeSlots_untouched (others : ∀ write ∈ writes, write.1 ≠ slot)
    : read (writeSlots backend writes) slot = read backend slot := by
  apply applyBatch_untouched
  intro operation member
  obtain ⟨write, written, rfl⟩ := mem_map.mp member
  intro same
  exact others write written (Slot.key_inj inRange (short write written) same.symm).symm

theorem read_writeSlots_cases {value} (found : read (writeSlots backend writes) slot = some value)
    : (slot, value) ∈ writes
      ∨ ((∀ write ∈ writes, write.1 ≠ slot) ∧ read backend slot = some value) := by
  have puts : ∀ deleted, .delete deleted ∉ writes.map SlotWrite.operation := by
    intro deleted member
    obtain ⟨write, _, impossible⟩ := mem_map.mp member
    cases impossible
  rcases applyBatch_get_of_puts backend puts found with written | ⟨others, before⟩
  · obtain ⟨write, member, same⟩ := mem_map.mp written
    simp only [SlotWrite.operation, BatchOperation.put.injEq] at same
    have slots := Slot.key_inj inRange (short write member) same.1.symm
    refine .inl ?_
    rw [slots, ← same.2]
    exact member
  · refine .inr ⟨?_, before⟩
    intro write member same
    exact others write.operation (mem_map_of_mem member) (congrArg Slot.key same)

theorem read_writeSlots_written {value} (written : (slot, value) ∈ writes)
    (only : ∀ write ∈ writes, write.1 = slot → write.2 = value)
    : read (writeSlots backend writes) slot = some value := by
  have put : .put slot.key value ∈ writes.map SlotWrite.operation :=
    mem_map.mpr ⟨(slot, value), written, rfl⟩
  apply applyBatch_put backend put
  intro operation member same
  obtain ⟨write, writeMember, rfl⟩ := mem_map.mp member
  have slots := Slot.key_inj inRange (short write writeMember) same.symm
  have values := only write writeMember slots.symm
  simp only [SlotWrite.operation, values, ← slots]

end

theorem writeSlots_otherScope {backend : Backend} {writes} (short : ∀ write ∈ writes, write.1.Short)
    {scope other} (within : ∀ write ∈ writes, write.1.scope = scope) (different : other ≠ scope)
    {key : Bytes} (belongs : KeyOfScope other key)
    : (writeSlots backend writes)[key]? = backend[key]? := by
  apply applyBatch_untouched
  intro operation member same
  obtain ⟨write, written, rfl⟩ := mem_map.mp member
  have sameKey : write.1.key = key := same
  rw [← sameKey] at belongs
  exact different (((short write written).key_ofScope belongs).trans (within write written))

end AkiDB.ServingState
