import Mathlib.Data.Prod.Lex
import Mathlib.Data.String.Basic
import AkiDB.Library.SelfDelimiting
import AkiDB.Library.SortedByKey
import AkiDB.Library.Utf8Text

/-!
The fingerprint of the vectors that a snapshot may serve. Records are sorted by their ids only, so
those that share both ids are hashed in the order in which they are given.
-/

namespace AkiDB.Vectors
open List ByteFraming SelfDelimiting SortedByKey

/-- An active durable vector with the bits of its values. -/
structure DurableVectorRef where
  externalId : String
  internalId : Int
  vector : List (BitVec 32)
deriving DecidableEq

namespace DurableVectorRef

/-- The lengths are machine words and the internal id is a signed one. -/
structure Fits (record : DurableVectorRef) : Prop where
  externalId : record.externalId.utf8ByteSize < 256 ^ 8
  internalId : -2 ^ 63 ≤ record.internalId ∧ record.internalId < 2 ^ 63
  vector : record.vector.length < 256 ^ 8

def ids (record : DurableVectorRef) : String ×ₗ Int :=
  toLex (record.externalId, record.internalId)

def encode (record : DurableVectorRef) : Bytes :=
  beBytes 8 record.externalId.utf8ByteSize ++ Utf8Text.bytes record.externalId
    ++ beBytes 8 (record.internalId % 2 ^ 64).toNat
    ++ beBytes 8 record.vector.length ++ record.vector.flatMap fun value => beBytes 4 value.toNat

end DurableVectorRef

open DurableVectorRef

def durableVectorFingerprint (sha256 : Bytes → String) (records : List DurableVectorRef) : String :=
  sha256 (Utf8Text.bytes "akidb-hnsw-payload-v1" ++ beBytes 8 records.length
    ++ (sorted ids records).flatMap encode)

theorem readsBack_encode : ReadsBack Fits encode := by
  intro left right leftRest rightRest leftFits rightFits same
  -- Signed words are written as the unsigned words with the same bits.
  have internalIds : Set.InjOn (fun id : Int => (id % 2 ^ 64).toNat)
      {id | -2 ^ 63 ≤ id ∧ id < 2 ^ 63} := by
    intro first firstFits second secondFits converted
    simp only [Set.mem_ofPred_eq] at firstFits secondFits converted
    omega
  have values : ReadsBack (fun _ => True) fun value : BitVec 32 => beBytes 4 value.toNat :=
    .of_length 4 (fun _ => beBytes_length ..) fun first _ second _ codes =>
      BitVec.eq_of_toNat_eq (beBytes_inj first.isLt second.isLt codes)
  simp only [encode, append_assoc] at same
  obtain ⟨sizes, same⟩ := readsBack_beBytes 8 leftFits.externalId rightFits.externalId same
  rw [← Utf8Text.bytes_length, ← Utf8Text.bytes_length] at sizes
  obtain ⟨externalIds, same⟩ := append_inj same sizes
  obtain ⟨words, same⟩ := readsBack_beBytes 8 (by omega) (by omega) same
  obtain ⟨lengths, same⟩ := readsBack_beBytes 8 leftFits.vector rightFits.vector same
  obtain ⟨vectors, rests⟩ :=
    values.flatMap lengths (fun _ _ => trivial) (fun _ _ => trivial) same
  obtain ⟨externalId, internalId, vector⟩ := left
  obtain ⟨otherId, otherInternal, otherVector⟩ := right
  obtain rfl := Utf8Text.bytes_inj externalIds
  obtain rfl := internalIds leftFits.internalId rightFits.internalId words
  obtain rfl : vector = otherVector := vectors
  exact ⟨rfl, rests⟩

/-- Records as many as a machine word counts. -/
abbrev DurableVectors :=
  { records : List DurableVectorRef // records.length < 256 ^ 8 ∧ ∀ record ∈ records, record.Fits }

theorem sorted_of_fingerprint {sha256 : Bytes → String}
    (injective : Function.Injective sha256) (left right : DurableVectors)
    (same : durableVectorFingerprint sha256 left = durableVectorFingerprint sha256 right)
    : sorted ids left.1 = sorted ids right.1 := by
  have bytes := injective same
  rw [append_assoc, append_assoc] at bytes
  obtain ⟨lengths, codes⟩ :=
    readsBack_beBytes 8 left.2.1 right.2.1 (append_cancel_left bytes)
  refine (readsBack_encode.flatMap ?_ ?_ ?_ (congrArg (· ++ []) codes)).1
  · rw [(sorted_perm _).length_eq, (sorted_perm _).length_eq, lengths]
  · exact fun record member => left.2.2 record ((sorted_perm _).mem_iff.mp member)
  · exact fun record member => right.2.2 record ((sorted_perm _).mem_iff.mp member)

/-- Lists with one fingerprint are equal as multisets, and all orders of a list have one exactly if
its records that share both ids are equal.
Witness: among such records, sorting by the ids leaves no choice.
-/
theorem fingerprints_agree (sha256 : { digest : Bytes → String // Function.Injective digest })
    (left : DurableVectors)
    : (∀ right : DurableVectors,
        durableVectorFingerprint sha256 left = durableVectorFingerprint sha256 right →
          left.1 ~ right.1)
      ∧ ((∀ right : DurableVectors, left.1 ~ right.1 →
          durableVectorFingerprint sha256 left = durableVectorFingerprint sha256 right)
        ↔ ∀ first ∈ left.1, ∀ second ∈ left.1, first.ids = second.ids → first = second) := by
  refine ⟨fun right same => perm_of_sorted (sorted_of_fingerprint sha256.2 left right same),
    fun agree first member second other same => ?_, fun unique right perm => ?_⟩
  · by_contra differ
    have perm : left.1 ~ first :: second :: (left.1.erase first).erase second :=
      (perm_cons_erase member).trans
        ((perm_cons_erase ((mem_erase_of_ne (Ne.symm differ)).mpr other)).cons first)
    have order {values} (perm : left.1 ~ values) : sorted ids left.1 = sorted ids values :=
      sorted_of_fingerprint sha256.2 left ⟨values, perm.length_eq ▸ left.2.1,
        fun record among => left.2.2 record (perm.mem_iff.mpr among)⟩ (agree _ perm)
    exact differ (eq_of_orderedInsert_comm same
      ((order perm).symm.trans (order (perm.trans (.swap ..)))))
  · rw [durableVectorFingerprint, durableVectorFingerprint, sorted_eq_of_perm unique perm,
      perm.length_eq]

theorem distinct_ids_reordered
    : ∃ sha256, Function.Injective sha256
      ∧ durableVectorFingerprint sha256 [⟨"a", 0, [0]⟩, ⟨"b", 1, [1]⟩]
        = durableVectorFingerprint sha256 [⟨"b", 1, [1]⟩, ⟨"a", 0, [0]⟩] := by
  have digest : Function.Injective fun bytes : Bytes =>
      String.ofList (bytes.map Char.ofUInt8) := by
    intro left right same
    refine map_injective_iff.mpr (fun byte other codes => ?_) (String.ofList_injective same)
    exact UInt8.toUInt32_inj.mp (congrArg Char.val codes)
  have fits : ∀ record ∈ [(⟨"a", 0, [0]⟩ : DurableVectorRef), ⟨"b", 1, [1]⟩], record.Fits := by
    simp only [forall_mem_cons]
    exact ⟨⟨by decide, by decide, by decide⟩, ⟨by decide, by decide, by decide⟩, nofun⟩
  refine ⟨_, digest, ((fingerprints_agree ⟨_, digest⟩ ⟨_, by decide, fits⟩).2.mpr ?_)
    ⟨_, by decide, fun record member => fits record (by simpa [or_comm] using member)⟩ (.swap ..)⟩
  simp [ids]

/-- Records with the same ids and different vectors, in both orders. -/
theorem reordered_fingerprint_differs
    : let first : DurableVectorRef := ⟨"a", 0, [0]⟩
      let second : DurableVectorRef := ⟨"a", 0, [1]⟩
      [first, second] ~ [second, first] ∧ ∀ sha256, Function.Injective sha256 →
        durableVectorFingerprint sha256 [first, second]
          ≠ durableVectorFingerprint sha256 [second, first] := by
  refine ⟨.swap .., fun sha256 injective same => ?_⟩
  have bytes := append_cancel_left (injective same)
  simp [sorted, insertionSort, orderedInsert, ids, encode] at bytes
  exact absurd (readsBack_beBytes 4 (by norm_num) (by norm_num) bytes).1 (by norm_num)

end AkiDB.Vectors
