import AkiDB.Coordinator.Selection
import AkiDB.Library.KeyedMaps

/-!
The consistent-hash ring of the shard router: an id belongs to the first place at or after its
hash.
-/

namespace AkiDB.Coordinator
open AtomicBatch KeyedMaps List

def virtualNodesPerShard : Nat := 150

def hashKey (key : String) : UInt64 :=
  let hash := key.toUTF8.toList.foldl
    (fun hash byte => (hash ^^^ byte.toUInt64) * 0x00000100000001B3) 0xcbf29ce484222325
  let hash := (hash ^^^ (hash >>> 33)) * 0xff51afd7ed558ccd
  let hash := (hash ^^^ (hash >>> 33)) * 0xc4ceb9fe1a85ec53
  hash ^^^ (hash >>> 33)

def virtualNodes (shard : ShardInfo) : List Nat :=
  (List.range virtualNodesPerShard).map fun vnode => (hashKey s!"{shard.id}:{vnode}").toNat

variable (ring : KeyValueMap Nat Nat)

def insertShard (shard : ShardInfo × Nat) : KeyValueMap Nat Nat :=
  (virtualNodes shard.1).foldl (fun ring place => ring.insert place shard.2) ring

def rebuildRing (shards : List ShardInfo) : KeyValueMap Nat Nat :=
  shards.zipIdx.foldl insertShard ∅

def successor (hash : Nat) : Option (Nat × Nat) :=
  (ring.toList.find? (hash ≤ ·.1)).or ring.toList.head?

def routeIndex (shards : List ShardInfo) (id : String) : Option Nat :=
  (successor (rebuildRing shards) (hashKey id).toNat).map (·.2)

def route (shards : List ShardInfo) (id : String) : Option ShardInfo :=
  (routeIndex shards id).bind (shards[·]?)

/-- Whether one place comes before another, going round from a hash. -/
def Sooner (hash left right : Nat) : Prop :=
  (hash ≤ left ∧ right < hash) ∨ ((hash ≤ left ↔ hash ≤ right) ∧ left < right)

theorem pairwise_places : ring.toList.Pairwise fun left right => left.1 < right.1 :=
  ring.ordered_keys_toList.imp Nat.compare_eq_lt.mp

variable {place index : Nat}

theorem successor_spec {ring} {hash : Nat} (next : successor ring hash = some (place, index))
    : ring[place]? = some index
      ∧ ∀ other held, ring[other]? = some held → ¬Sooner hash other place := by
  have ordered := pairwise_places ring
  simp only [← (lists_toList ring).mem_iff]
  unfold successor at next
  cases found : ring.toList.find? (hash ≤ ·.1) with
  | some row =>
    rw [found] at next
    obtain rfl : row = (place, index) := Option.some.inj next
    obtain ⟨reached, before, after, split, early⟩ := find?_eq_some_iff_append.mp found
    simp only [decide_eq_true_eq] at reached
    rw [split] at ordered ⊢
    refine ⟨by simp, fun other held member sooner => ?_⟩
    rcases mem_append.mp member with earlier | later
    · have small := early _ earlier
      simp only [Bool.not_eq_true', decide_eq_false_iff_not] at small
      unfold Sooner at sooner
      omega
    · have larger : place ≤ other := by
        rcases mem_cons.mp later with same | behind
        · exact le_of_eq (congrArg Prod.fst same).symm
        · exact ((pairwise_cons.mp (pairwise_append.mp ordered).2.1).1 _ behind).le
      unfold Sooner at sooner
      omega
  | none =>
    rw [found] at next
    have small := find?_eq_none.mp found
    obtain ⟨rest, split⟩ := head?_eq_some_iff.mp next
    rw [split] at ordered small ⊢
    refine ⟨by simp, fun other held member sooner => ?_⟩
    have first := small _ member
    simp only [decide_eq_true_eq] at first
    rcases mem_cons.mp member with same | behind
    · have equal : other = place := congrArg Prod.fst same
      unfold Sooner at sooner
      omega
    · have larger := (pairwise_cons.mp ordered).1 _ behind
      unfold Sooner at sooner
      dsimp only at larger
      omega

theorem successor_isSome {ring} (found : ring[place]? = some index) (hash : Nat)
    : (successor ring hash).isSome := by
  have member := (lists_toList ring).mem_iff place index |>.mpr found
  obtain ⟨first, rest, split⟩ := exists_cons_of_ne_nil (ne_nil_of_mem member)
  simp [successor, split]

theorem successor_of_subset {ring fewer} {hash other : Nat}
    (subset : ∀ (place held : Nat), fewer[place]? = some held → ∃ index : Nat,
      ring[place]? = some index) (next : successor ring hash = some (place, index))
    (held : fewer[place]? = some other)
    : successor fewer hash = some (place, other) := by
  obtain ⟨⟨first, held'⟩, next'⟩ := Option.isSome_iff_exists.mp (successor_isSome held hash)
  obtain ⟨found, soonest⟩ := successor_spec next
  obtain ⟨found', soonest'⟩ := successor_spec next'
  obtain ⟨_, also⟩ := subset first held' found'
  have here := soonest first _ also
  have there := soonest' place other held
  obtain rfl : first = place := by
    unfold Sooner at here there
    omega
  rw [next', ← Option.some.inj (held.symm.trans found')]

theorem lookup_insertShards (shards : List (ShardInfo × Nat)) (place : Nat)
    : (shards.foldl insertShard ∅)[place]?
      = (shards.reverse.find? fun shard => place ∈ virtualNodes shard.1).map (·.2) := by
  have inserted (ring : KeyValueMap Nat Nat) (shard : ShardInfo × Nat)
      : (insertShard ring shard)[place]?
        = if place ∈ virtualNodes shard.1 then some shard.2 else ring[place]? := by
    unfold insertShard
    generalize virtualNodes shard.1 = places
    induction places generalizing ring with
    | nil => simp
    | cons first rest ih =>
      rw [foldl_cons, ih, lookup_insert]
      by_cases later : place ∈ rest
      · simp [later]
      · by_cases here : first = place
        · simp [here]
        · simp [later, here, Ne.symm here]
  induction shards using List.reverseRecOn with
  | nil => simp
  | append_singleton earlier last ih =>
    rw [foldl_concat, inserted, ih, reverse_concat, find?_cons]
    by_cases here : place ∈ virtualNodes last.1 <;> simp [here]

theorem find?_of_sublist {α : Type} {rows kept : List α} {test : α → Bool} {row : α}
    (distinct : rows.Nodup) (sublist : kept.Sublist rows) (member : row ∈ kept)
    (found : rows.find? test = some row) : kept.find? test = some row := by
  induction sublist with
  | slnil => simp at member
  | cons first below ih =>
    rw [nodup_cons] at distinct
    by_cases here : test first
    · rw [find?_cons_of_pos here] at found
      exact absurd (below.subset member) (Option.some.inj found ▸ distinct.1)
    · rw [find?_cons_of_neg here] at found
      exact ih distinct.2 member found
  | cons_cons first below ih =>
    rw [nodup_cons] at distinct
    by_cases here : test first
    · rwa [find?_cons_of_pos here] at found ⊢
    · rw [find?_cons_of_neg here] at found ⊢
      rcases mem_cons.mp member with rfl | later
      · exact absurd (find?_some found) here
      · exact ih distinct.2 later found

def ownerAt (shards : List ShardInfo) (place : Nat) : Option (ShardInfo × Nat) :=
  shards.zipIdx.reverse.find? fun shard => place ∈ virtualNodes shard.1

variable (shards : List ShardInfo)

theorem lookup_rebuildRing (place : Nat)
    : (rebuildRing shards)[place]? = (ownerAt shards place).map (·.2) :=
  lookup_insertShards shards.zipIdx place

theorem ownerAt_fst (place : Nat)
    : (ownerAt shards place).map (·.1)
      = shards.reverse.find? fun shard => place ∈ virtualNodes shard := by
  conv_rhs => rw [← zipIdx_map_fst 0 shards, ← map_reverse, find?_map]
  rfl

theorem getElem?_of_ownerAt {shards} {row} (owner : ownerAt shards place = some row)
    : shards[row.2]? = some row.1 :=
  mem_zipIdx_iff_getElem?.mp (mem_reverse.mp (mem_of_find?_eq_some owner))

theorem exists_lookup_iff (place : Nat)
    : (∃ index : Nat, (rebuildRing shards)[place]? = some index)
      ↔ ∃ shard ∈ shards, place ∈ virtualNodes shard := by
  rw [← Option.isSome_iff_exists, lookup_rebuildRing, Option.isSome_map,
    ← @Option.isSome_map _ _ (·.1), ownerAt_fst, find?_isSome]
  simp

/-- With any shard configured, every id belongs to one that has the first virtual node at or after
its hash, going round.
Witness: the successor on the ring, which has just these nodes.
-/
theorem routed_to_first_place (first : ShardInfo) (rest : List ShardInfo) (id : String)
    : ∃ shard ∈ first :: rest, route (first :: rest) id = some shard
      ∧ ∃ place ∈ virtualNodes shard, ∀ other ∈ first :: rest, ∀ elsewhere ∈ virtualNodes other,
        ¬Sooner (hashKey id).toNat elsewhere place := by
  have some_place := (exists_lookup_iff (first :: rest) (hashKey s!"{first.id}:{0}").toNat).mpr
    ⟨first, mem_cons_self, mem_map.mpr ⟨0, by decide, rfl⟩⟩
  obtain ⟨_, held⟩ := some_place
  obtain ⟨⟨place, index⟩, next⟩ := Option.isSome_iff_exists.mp
    (successor_isSome held (hashKey id).toNat)
  obtain ⟨found, soonest⟩ := successor_spec next
  rw [lookup_rebuildRing] at found
  obtain ⟨row, owner, rfl⟩ := Option.map_eq_some_iff.mp found
  have here := getElem?_of_ownerAt owner
  refine ⟨row.1, mem_of_getElem? here, ?_, place, ?_, fun other member elsewhere has => ?_⟩
  · rw [route, routeIndex, next]
    exact here
  · simpa using find?_some owner
  · obtain ⟨held, lies⟩ := (exists_lookup_iff (first :: rest) elsewhere).mpr ⟨other, member, has⟩
    exact soonest elsewhere held lies

/-- Shards that are removed, or were not there yet, move no id that belongs to another.
Witness: the place of the id is met first on both rings.
-/
theorem route_kept {shards : List ShardInfo} {kept : List (ShardInfo × Nat)}
    (sublist : kept.Sublist shards.zipIdx) {id : String} {shard : ShardInfo} {index : Nat}
    (routed : routeIndex shards id = some index) (still : (shard, index) ∈ kept)
    : route shards id = some shard ∧ route (kept.map (·.1)) id = some shard := by
  obtain ⟨⟨place, held⟩, next, rfl⟩ := Option.map_eq_some_iff.mp routed
  have here : shards[held]? = some shard :=
    mem_zipIdx_iff_getElem?.mp (sublist.subset still)
  refine ⟨by rw [route, routed]; exact here, ?_⟩
  have found := (successor_spec next).1
  rw [lookup_rebuildRing] at found
  obtain ⟨row, owner, rfl⟩ := Option.map_eq_some_iff.mp found
  obtain rfl : shard = row.1 := Option.some.inj (here.symm.trans (getElem?_of_ownerAt owner))
  have distinct : shards.zipIdx.reverse.Nodup := by
    rw [nodup_reverse]
    exact Nodup.of_map Prod.snd (by rw [zipIdx_map_snd]; exact nodup_range')
  have first := find?_of_sublist distinct sublist.reverse (mem_reverse.mpr still) owner
  have shared : (ownerAt (kept.map (·.1)) place).map (·.1) = some row.1 := by
    rw [ownerAt_fst, ← map_reverse, find?_map]
    exact congrArg (Option.map Prod.fst) first
  obtain ⟨last, keeper, same⟩ := Option.map_eq_some_iff.mp shared
  have subset (place held : Nat) (among : (rebuildRing (kept.map (·.1)))[place]? = some held)
      : ∃ index : Nat, (rebuildRing shards)[place]? = some index := by
    obtain ⟨shard, member, has⟩ := (exists_lookup_iff _ place).mp ⟨held, among⟩
    refine (exists_lookup_iff shards place).mpr ⟨shard, ?_, has⟩
    have below := sublist.map Prod.fst
    rw [zipIdx_map_fst] at below
    exact below.subset member
  have there : (rebuildRing (kept.map (·.1)))[place]? = some last.2 := by
    rw [lookup_rebuildRing, keeper]
    rfl
  have after := successor_of_subset subset next there
  rw [route, routeIndex, after, ← same]
  exact getElem?_of_ownerAt keeper

/-- Three shards of which the middle one is removed. -/
theorem middle_shard_removed
    : let shards : List ShardInfo := [⟨"shard-0", true⟩, ⟨"shard-1", true⟩, ⟨"shard-2", true⟩]
      let kept : List ShardInfo := [⟨"shard-0", true⟩, ⟨"shard-2", true⟩]
      route shards "b" = some ⟨"shard-0", true⟩ ∧ route kept "b" = some ⟨"shard-0", true⟩ :=
  @route_kept [⟨"shard-0", true⟩, ⟨"shard-1", true⟩, ⟨"shard-2", true⟩]
    [(⟨"shard-0", true⟩, 0), (⟨"shard-2", true⟩, 2)] (by decide) "b" ⟨"shard-0", true⟩ 0
    (by decide +kernel) (by decide)

end AkiDB.Coordinator
