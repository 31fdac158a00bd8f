import AkiDB.Library.Runs
import AkiDB.Vectors.HnswSnapshot

/-!
The tombstones on their own: shrinking keeps the count, and in the last byte the bits, of deleted
ids that it puts out of reach.
-/

namespace AkiDB.Vectors
open AkiDB.Common Checked Runs

structure TombstoneBitset where
  data : TombstoneBytes
  capacity : Fin (2 ^ 64)
  deletedCount : Nat
  deriving DecidableEq

namespace TombstoneBitset

variable (bitset : TombstoneBitset)

def byteCount (capacity : Fin (2 ^ 64)) : Nat :=
  (capacity + 7) / 8

def empty (capacity : Fin (2 ^ 64)) : TombstoneBitset :=
  ⟨⟨byteCount capacity, ∅⟩, capacity, 0⟩

/-- The bit of an id that the tombstones reach. -/
def bitOf (id : Int) : Except AkiDbError Nat := do
  rejectIf (id < 0) (.invalidParameter
    s!"Internal ID {id} is invalid (negative IDs not allowed)")
  rejectIf ((bitset.capacity : Nat) ≤ id.toNat) (.invalidParameter
    s!"Internal ID {id} exceeds capacity {bitset.capacity.val}")
  return id.toNat

def markDeleted (id : Int) : Except AkiDbError TombstoneBitset := do
  let bit ← bitset.bitOf id
  if bit ∈ bitset.data.bits then return bitset
  return { bitset with
    data.bits := insert bit bitset.data.bits
    deletedCount := min (bitset.deletedCount + 1) (2 ^ 64 - 1) }

def clearDeleted (id : Int) : Except AkiDbError TombstoneBitset := do
  let bit ← bitset.bitOf id
  if bit ∉ bitset.data.bits then return bitset
  return { bitset with
    data.bits := bitset.data.bits.erase bit
    deletedCount := bitset.deletedCount - 1 }

def isDeleted (id : Int) : Bool :=
  0 ≤ id ∧ id < bitset.capacity.val ∧ id.toNat ∈ bitset.data.bits

def reset : TombstoneBitset :=
  { bitset with data.bits := ∅, deletedCount := 0 }

def resize (capacity : Fin (2 ^ 64)) : TombstoneBitset :=
  { bitset with
    -- Whole bytes are dropped or added; neither the last byte nor the count is looked at.
    data := ⟨byteCount capacity, bitset.data.bits.filter (· < 8 * byteCount capacity)⟩
    capacity }

/-- The bitset that is restored from what was saved. -/
def restored : Except AkiDbError TombstoneBitset := do
  let bits ← tryRestore bitset.capacity bitset.deletedCount bitset.data
  return ⟨⟨bitset.data.length, bits⟩, bitset.capacity, bitset.deletedCount⟩

inductive Call where
  | markDeleted (id : Int)
  | clearDeleted (id : Int)
  | reset
  | resize (capacity : Fin (2 ^ 64))

/-- The bitset after a call; one that fails leaves it as it was. -/
def step : Call → TombstoneBitset
  | .markDeleted id => (bitset.markDeleted id).toOption.getD bitset
  | .clearDeleted id => (bitset.clearDeleted id).toOption.getD bitset
  | .reset => bitset.reset
  | .resize capacity => bitset.resize capacity

/-- Resizing leaves every deleted id in reach. -/
def KeepsDeleted : Call → Prop
  | .resize capacity => ∀ id, bitset.isDeleted id → id < capacity.val
  | _ => True

/-- The bits are those of ids in reach, and as many as counted. -/
structure Sound : Prop where
  length : bitset.data.length = byteCount bitset.capacity
  covered : ∀ bit ∈ bitset.data.bits, bit < bitset.capacity
  counted : bitset.deletedCount = bitset.data.bits.card

variable {bitset}

theorem Sound.isDeleted (sound : bitset.Sound) (id : Int)
    : bitset.isDeleted id ↔ 0 ≤ id ∧ id.toNat ∈ bitset.data.bits := by
  simp only [TombstoneBitset.isDeleted, decide_eq_true_eq]
  refine and_congr_right fun positive => and_iff_right_of_imp fun member => ?_
  have := sound.covered _ member
  omega

theorem bitOf_eq_ok {id : Int} {bit : Nat} (reached : bitset.bitOf id = .ok bit)
    : bit < bitset.capacity := by
  simp only [bitOf, seq_eq_ok, rejectIf_eq_ok, pure_eq_ok] at reached
  omega

theorem Sound.markDeleted (sound : bitset.Sound) {id : Int} {marked : TombstoneBitset}
    (succeeds : bitset.markDeleted id = .ok marked)
    : marked.Sound := by
  simp only [TombstoneBitset.markDeleted, bind_eq_ok] at succeeds
  obtain ⟨bit, reached, returned⟩ := succeeds
  have inReach := bitOf_eq_ok reached
  split at returned <;> obtain rfl := pure_eq_ok.mp returned
  · exact sound
  · next absent =>
      have covered : ∀ other ∈ insert bit bitset.data.bits, other < (bitset.capacity : Nat) :=
        Finset.forall_mem_insert .. |>.mpr ⟨inReach, sound.covered⟩
      refine ⟨sound.length, covered, ?_⟩
      -- The ids in reach are fewer than the count can tell, so it does not stop short.
      have card : _ ≤ (Finset.range bitset.capacity).card :=
        Finset.card_le_card fun other member => Finset.mem_range.mpr (covered other member)
      rw [Finset.card_insert_of_notMem absent, Finset.card_range] at card
      simp only [Finset.card_insert_of_notMem absent, sound.counted]
      omega

theorem Sound.clearDeleted (sound : bitset.Sound) {id : Int} {cleared : TombstoneBitset}
    (succeeds : bitset.clearDeleted id = .ok cleared)
    : cleared.Sound := by
  simp only [TombstoneBitset.clearDeleted, bind_eq_ok] at succeeds
  obtain ⟨bit, _, returned⟩ := succeeds
  split at returned <;> obtain rfl := pure_eq_ok.mp returned
  · exact sound
  · next present =>
      refine ⟨sound.length, fun _ member => sound.covered _ (Finset.mem_of_mem_erase member), ?_⟩
      simp only [Finset.card_erase_of_mem (not_not.mp present), sound.counted]

theorem Sound.resize (sound : bitset.Sound) {capacity : Fin (2 ^ 64)}
    (keeps : bitset.KeepsDeleted (.resize capacity))
    : (bitset.resize capacity).Sound := by
  have inReach : ∀ bit ∈ bitset.data.bits, bit < (capacity : Nat) := by
    intro bit member
    exact_mod_cast keeps bit ((sound.isDeleted bit).mpr ⟨by omega, member⟩)
  have kept : bitset.data.bits.filter (· < 8 * byteCount capacity) = bitset.data.bits := by
    refine Finset.filter_true_of_mem fun bit member => ?_
    have := inReach bit member
    unfold byteCount
    omega
  exact ⟨rfl, fun bit member => inReach bit (Finset.mem_of_mem_filter _ member), by
    rw [TombstoneBitset.resize, kept, sound.counted]⟩

/-- Calls that keep deleted ids in reach keep the count. -/
theorem Sound.step (sound : bitset.Sound) {call : Call} (keeps : bitset.KeepsDeleted call)
    : (bitset.step call).Sound := by
  cases call with
  | markDeleted id =>
    rw [TombstoneBitset.step]
    cases result : bitset.markDeleted id with
    | error => exact sound
    | ok => exact sound.markDeleted result
  | clearDeleted id =>
    rw [TombstoneBitset.step]
    cases result : bitset.clearDeleted id with
    | error => exact sound
    | ok => exact sound.clearDeleted result
  | reset => exact ⟨sound.length, by simp [TombstoneBitset.step, reset], rfl⟩
  | resize capacity => exact sound.resize keeps

/-- Along runs whose resizing leaves every deleted id in reach, the count is that of the deleted
ids, what is saved is restored, and resizing neither drops nor invents tombstones. -/
theorem tombstones_counted_and_restored (capacity : Fin (2 ^ 64))
    (calls : { calls : List Call // Along step KeepsDeleted (empty capacity) calls })
    : let bitset := calls.1.foldl step (empty capacity)
      bitset.deletedCount
          = ((Finset.range bitset.capacity).filter fun id : Nat => bitset.isDeleted id).card
        ∧ bitset.restored = .ok bitset
        ∧ ∀ (capacity : Fin (2 ^ 64)) (id : Int),
          (id < bitset.capacity.val → id < capacity.val →
            (bitset.resize capacity).isDeleted id = bitset.isDeleted id)
          ∧ (bitset.capacity.val ≤ id → (bitset.resize capacity).isDeleted id = false) := by
  intro bitset
  have sound : bitset.Sound :=
    calls.2.invariant (fun _ _ sound => sound.step) ⟨rfl, by simp [empty], rfl⟩
  refine ⟨?_, ?_, fun capacity id => ⟨fun below inReach => ?_, fun above => ?_⟩⟩
  · rw [sound.counted]
    congr 1
    ext bit
    simp only [Finset.mem_filter, Finset.mem_range, sound.isDeleted]
    exact ⟨fun member => ⟨sound.covered _ member, by omega, member⟩, fun found => found.2.2⟩
  · have restores :=
      SizedRun.tryRestore_eq_ok.mpr ⟨sound.length, sound.covered, sound.counted.symm, rfl⟩
    exact bind_eq_ok.mpr ⟨_, restores, rfl⟩
  · have reached : id.toNat < 8 * byteCount capacity ∨ id < 0 := by unfold byteCount; omega
    simp only [TombstoneBitset.isDeleted, TombstoneBitset.resize, Finset.mem_filter]
    grind
  · have absent : id.toNat ∉ bitset.data.bits := fun member => by
      have := sound.covered _ member
      omega
    simp [TombstoneBitset.isDeleted, TombstoneBitset.resize, absent]

theorem grown_tombstones_restored
    : let bitset := [.markDeleted 7, .resize 16].foldl step (empty 8)
      bitset.deletedCount = 1 ∧ bitset.restored = .ok bitset := by
  have kept := tombstones_counted_and_restored 8 ⟨[.markDeleted 7, .resize 16], trivial,
    fun id deleted => ?_, trivial⟩
  · exact ⟨by decide, kept.2.1⟩
  · have inReach : id < 8 := (of_decide_eq_true deleted).2.1
    exact inReach.trans (by decide)

/-- Shrinking below a deleted id and growing again. -/
theorem shrunk_tombstones_keep_count
    : let marked := ((empty 8).markDeleted 7).toOption.getD (empty 8)
      let shrunk := marked.resize 4
      shrunk.deletedCount = 1 ∧ (∀ id < 4, ¬shrunk.isDeleted (id : Nat))
        ∧ shrunk.restored.toOption = none ∧ (shrunk.resize 8).isDeleted 7 := by
  decide

end TombstoneBitset

end AkiDB.Vectors
