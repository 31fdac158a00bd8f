import Mathlib.Data.List.Nodup
import Mathlib.Data.List.Perm.Lattice
import Mathlib.Logic.Function.Basic
import Mathlib.Tactic.Common

/-!
Shard health: which shards a fan-out queries, and the claims by which one search probes a retried
one.
-/

namespace AkiDB.Coordinator
open List Function

structure ShardInfo where
  id : String
  healthy : Bool
  deriving DecidableEq

/-- When a probe was claimed, with the search that claimed it, which the router never reads. -/
structure ProbeClaim where
  claimedAt : Nat
  search : Nat
  deriving DecidableEq

/-- The router without its hash ring; instants are natural numbers. -/
structure ShardRouter where
  shards : List ShardInfo
  unhealthySince : String → Option Nat
  probesInFlight : String → Option ProbeClaim

structure Selection where
  selected : List ShardInfo
  heldBack : List String
  probesInFlight : String → Option ProbeClaim

/-- The retry window of an unhealthy shard has elapsed, or it was never seen failing. -/
def retryDue (retryAfter now : Nat) : Option Nat → Bool
  | some since => retryAfter ≤ now - since
  | none => true

def probeClaimed (retryAfter now : Nat) : Option ProbeClaim → Bool
  | some claim => now - claim.claimedAt < retryAfter
  | none => false

namespace ShardRouter

variable (router : ShardRouter)

def new (shards : List ShardInfo) : ShardRouter where
  shards := shards
  unhealthySince := fun _ => none
  probesInFlight := fun _ => none

def shardIds : List String :=
  router.shards.map (·.id)

def considerShard (retryAfter now search : Nat) (selection : Selection) (shard : ShardInfo)
    : Selection :=
  if shard.healthy then { selection with selected := selection.selected ++ [shard] }
  else if retryDue retryAfter now (router.unhealthySince shard.id)
      && !probeClaimed retryAfter now (selection.probesInFlight shard.id) then
    {
      selection with
      selected := selection.selected ++ [shard]
      probesInFlight :=
        update selection.probesInFlight shard.id (some ⟨now, search⟩)
    }
  else { selection with heldBack := selection.heldBack ++ [shard.id] }

/-- Select the shards to query; when all would be held back, all are queried and none is claimed. -/
def fanoutSelection (retryAfter now search : Nat) : Selection :=
  let selection := router.shards.foldl (router.considerShard retryAfter now search)
    ⟨[], [], router.probesInFlight⟩
  if selection.selected = [] ∧ router.shards ≠ [] then
    { selection with selected := router.shards, heldBack := [] }
  else selection

def releaseProbeClaims (shardIds : List String) : ShardRouter :=
  {
    router with
    probesInFlight :=
      shardIds.foldl (fun probes shardId => update probes shardId none) router.probesInFlight
  }

def setHealth (shardId : String) (healthy : Bool) : List ShardInfo → List ShardInfo
  | [] => []
  | shard :: rest =>
    if shard.id = shardId then { shard with healthy } :: rest
    else shard :: setHealth shardId healthy rest

def updateHealth (now : Nat) (shardId : String) (healthy : Bool) : ShardRouter :=
  if shardId ∈ router.shardIds then
    {
      shards := setHealth shardId healthy router.shards
      probesInFlight := update router.probesInFlight shardId none
      unhealthySince :=
        update router.unhealthySince shardId (if healthy then none else some now)
    }
  else router

variable (retryAfter now search : Nat)

theorem considerShard_split (selection : Selection) (shard : ShardInfo)
    : ((router.considerShard retryAfter now search selection shard).selected.map (·.id)
        ++ (router.considerShard retryAfter now search selection shard).heldBack).Perm
        (shard.id :: (selection.selected.map (·.id) ++ selection.heldBack)) := by
  unfold considerShard
  split
  · simp
  · split
    · simp
    · simp [← append_assoc]

/-- Every shard is either selected or held back. -/
theorem selectionLoop_split (shards : List ShardInfo) (selection : Selection)
    : ((shards.foldl (router.considerShard retryAfter now search) selection).selected.map (·.id)
        ++ (shards.foldl (router.considerShard retryAfter now search) selection).heldBack).Perm
        (shards.map (·.id) ++ (selection.selected.map (·.id) ++ selection.heldBack)) := by
  induction shards generalizing selection with
  | nil => simp
  | cons shard rest ih =>
    refine (ih _).trans ?_
    refine ((router.considerShard_split retryAfter now search selection shard).append_left
      (rest.map (·.id))).trans ?_
    simp

theorem selectionLoop_keeps {shards : List ShardInfo} {selection : Selection} {shard : ShardInfo}
    (member : shard ∈ selection.selected)
    : shard ∈ (shards.foldl (router.considerShard retryAfter now search) selection).selected := by
  induction shards generalizing selection with
  | nil => exact member
  | cons first rest ih =>
    apply ih
    unfold considerShard
    split
    · exact mem_append_left _ member
    · split
      · exact mem_append_left _ member
      · exact member

/-- A shard may be probed: it is unhealthy, its retry is due, and no young claim is on it. -/
def ProbeDue (retryAfter now : Nat) (shardId : String) : Prop :=
  (∃ shard ∈ router.shards, shard.id = shardId ∧ shard.healthy = false)
    ∧ retryDue retryAfter now (router.unhealthySince shardId) = true
    ∧ probeClaimed retryAfter now (router.probesInFlight shardId) = false

theorem selectionLoop_claims {shards : List ShardInfo} (distinct : (shards.map (·.id)).Nodup)
    (selection : Selection) (shardId : String)
    : let after := shards.foldl (router.considerShard retryAfter now search) selection
      after.probesInFlight shardId = selection.probesInFlight shardId
      ∨ after.probesInFlight shardId = some ⟨now, search⟩
        ∧ (∃ shard ∈ after.selected, shard.id = shardId)
        ∧ (∃ shard ∈ shards, shard.id = shardId ∧ shard.healthy = false)
        ∧ retryDue retryAfter now (router.unhealthySince shardId) = true
        ∧ probeClaimed retryAfter now (selection.probesInFlight shardId) = false := by
  induction shards generalizing selection with
  | nil => exact .inl rfl
  | cons shard rest ih =>
    rw [map_cons, nodup_cons] at distinct
    obtain ⟨fresh, distinct⟩ := distinct
    have later := ih distinct (router.considerShard retryAfter now search selection shard)
    dsimp only [foldl_cons]
    by_cases here : shard.id = shardId
    · subst here
      -- what is decided here is final, since the id does not come again
      have final : ¬∃ other ∈ rest, other.id = shard.id ∧ other.healthy = false := by
        rintro ⟨other, member, same, -⟩
        exact fresh (same ▸ mem_map_of_mem member)
      rcases later with kept | ⟨-, -, again, -⟩
      · rw [kept]
        by_cases due : shard.healthy = false
            ∧ retryDue retryAfter now (router.unhealthySince shard.id) = true
            ∧ probeClaimed retryAfter now (selection.probesInFlight shard.id) = false
        · refine .inr ⟨?_, ⟨shard, ?_, rfl⟩, ⟨shard, mem_cons_self, rfl, due.1⟩, due.2⟩
          · simp [considerShard, due]
          · apply selectionLoop_keeps
            simp [considerShard, due]
        · left
          unfold considerShard
          split
          · rfl
          · split
            · simp_all
            · rfl
      · exact absurd again final
    · have same : (router.considerShard retryAfter now search selection shard).probesInFlight
          shardId = selection.probesInFlight shardId := by
        unfold considerShard
        split
        · rfl
        · split
          · exact update_of_ne (Ne.symm here) _ _
          · rfl
      rw [same] at later
      rcases later with kept | ⟨claimed, selected, ⟨other, member, found⟩, due⟩
      · exact .inl kept
      · exact .inr ⟨claimed, selected, ⟨other, mem_cons_of_mem _ member, found⟩, due⟩

theorem fanoutSelection_split
    : ((router.fanoutSelection retryAfter now search).selected.map (·.id)
        ++ (router.fanoutSelection retryAfter now search).heldBack).Perm router.shardIds := by
  unfold fanoutSelection
  dsimp only
  split
  · simp [shardIds]
  · simpa [shardIds] using router.selectionLoop_split retryAfter now search router.shards
      ⟨[], [], router.probesInFlight⟩

theorem fanoutSelection_claims {retryAfter now search : Nat} (distinct : router.shardIds.Nodup)
    (shardId : String)
    : let after := router.fanoutSelection retryAfter now search
      after.probesInFlight shardId = router.probesInFlight shardId
      ∨ after.probesInFlight shardId = some ⟨now, search⟩
        ∧ (∃ shard ∈ after.selected, shard.id = shardId)
        ∧ router.ProbeDue retryAfter now shardId := by
  have loop := router.selectionLoop_claims retryAfter now search distinct
    ⟨[], [], router.probesInFlight⟩ shardId
  unfold fanoutSelection
  dsimp only
  split
  · next fallback =>
      rcases loop with kept | ⟨-, ⟨shard, selected, -⟩, -⟩
      · exact .inl kept
      · simp [fallback.1] at selected
  · exact loop

theorem setHealth_ids (shardId : String) (healthy : Bool) (shards : List ShardInfo)
    : (setHealth shardId healthy shards).map (·.id) = shards.map (·.id) := by
  induction shards with
  | nil => rfl
  | cons shard rest ih =>
    unfold setHealth
    split
    · rfl
    · rw [map_cons, ih, map_cons]

theorem mem_setHealth {shardId healthy shards} (distinct : (shards.map (·.id)).Nodup) {shard}
    (member : shard ∈ setHealth shardId healthy shards)
    : shard.id = shardId ∧ shard.healthy = healthy ∨ shard.id ≠ shardId ∧ shard ∈ shards := by
  induction shards with
  | nil => simp [setHealth] at member
  | cons first rest ih =>
    rw [map_cons, nodup_cons] at distinct
    unfold setHealth at member
    split at member
    · next same =>
        rcases mem_cons.mp member with rfl | later
        · exact .inl ⟨same, rfl⟩
        · refine .inr ⟨?_, mem_cons_of_mem _ later⟩
          intro again
          exact distinct.1 (same.trans again.symm ▸ mem_map_of_mem later)
    · next other =>
        rcases mem_cons.mp member with rfl | later
        · exact .inr ⟨other, mem_cons_self⟩
        · rcases ih distinct.2 later with found | ⟨differs, kept⟩
          · exact .inl found
          · exact .inr ⟨differs, mem_cons_of_mem _ kept⟩

def Healthy (shardId : String) : Prop :=
  ∀ shard ∈ router.shards, shard.id = shardId → shard.healthy = true

@[simp]
theorem shardIds_updateHealth (shardId : String) (healthy : Bool)
    : (router.updateHealth now shardId healthy).shardIds = router.shardIds := by
  unfold updateHealth
  split
  · exact setHealth_ids shardId healthy router.shards
  · rfl

variable {router}

theorem updateHealth_other {now : Nat} {shardId other healthy} (distinct : router.shardIds.Nodup)
    (differs : other ≠ shardId)
    : let after := router.updateHealth now shardId healthy
      after.unhealthySince other = router.unhealthySince other
      ∧ after.probesInFlight other = router.probesInFlight other
      ∧ (router.Healthy other → after.Healthy other) := by
  unfold updateHealth
  split
  · refine ⟨update_of_ne differs _ _, update_of_ne differs _ _, ?_⟩
    intro wasHealthy shard member named
    rcases mem_setHealth distinct member with ⟨same, -⟩ | ⟨-, kept⟩
    · exact absurd (named.symm.trans same) differs
    · exact wasHealthy shard kept named
  · exact ⟨rfl, rfl, id⟩

theorem updateHealth_same {now : Nat} {shardId healthy} (distinct : router.shardIds.Nodup)
    (configured : shardId ∈ router.shardIds)
    : let after := router.updateHealth now shardId healthy
      after.unhealthySince shardId = (if healthy then none else some now)
      ∧ after.probesInFlight shardId = none ∧ (healthy = true → after.Healthy shardId) := by
  unfold updateHealth
  rw [if_pos configured]
  refine ⟨update_self .., update_self .., ?_⟩
  rintro rfl shard member named
  rcases mem_setHealth distinct member with ⟨-, marked⟩ | ⟨differs, -⟩
  · exact marked
  · exact absurd named differs

theorem updateHealth_claim {now : Nat} {marked shardId healthy claim}
    (held : (router.updateHealth now marked healthy).probesInFlight shardId = some claim)
    : router.probesInFlight shardId = some claim := by
  unfold updateHealth at held
  split at held
  · by_cases same : shardId = marked
    · subst same
      simp at held
    · dsimp only at held
      rwa [update_of_ne same] at held
  · exact held

def markHealthy (router : ShardRouter) (now : Nat) (responding : List String) : ShardRouter :=
  responding.foldl (fun router shardId => router.updateHealth now shardId true) router

theorem markHealthy_spec {now : Nat} {responding} (distinct : router.shardIds.Nodup)
    (configured : responding ⊆ router.shardIds)
    : let after := router.markHealthy now responding
      after.shardIds = router.shardIds
      ∧ (∀ shardId claim, after.probesInFlight shardId = some claim →
          router.probesInFlight shardId = some claim)
      ∧ ∀ shardId, (shardId ∈ responding ∨ router.Healthy shardId → after.Healthy shardId)
        ∧ (shardId ∉ responding → after.unhealthySince shardId = router.unhealthySince shardId
            ∧ after.probesInFlight shardId = router.probesInFlight shardId) := by
  induction responding generalizing router with
  | nil =>
    refine ⟨rfl, fun _ _ held => held, fun shardId => ⟨?_, fun _ => ⟨rfl, rfl⟩⟩⟩
    rintro (absent | healthy)
    · simp at absent
    · exact healthy
  | cons first rest ih =>
    obtain ⟨here, later⟩ := cons_subset.mp configured
    have marked := @updateHealth_same router now first true distinct here
    obtain ⟨ids, claims, each⟩ := @ih (router.updateHealth now first true)
      (by simpa using distinct) (by simpa using later)
    refine ⟨ids.trans (by simp), ?_, ?_⟩
    · intro shardId claim held
      exact updateHealth_claim (claims shardId claim held)
    · intro shardId
      by_cases same : shardId = first
      · subst same
        refine ⟨fun _ => (each shardId).1 (.inr (marked.2.2 rfl)), ?_⟩
        intro absent
        exact absurd mem_cons_self absent
      · obtain ⟨since, claim, healthy⟩ :=
          @updateHealth_other router now first shardId true distinct same
        refine ⟨?_, ?_⟩
        · rintro (member | wasHealthy)
          · refine (each shardId).1 (.inl ?_)
            exact (mem_cons.mp member).resolve_left same
          · exact (each shardId).1 (.inr (healthy wasHealthy))
        · intro absent
          obtain ⟨since', claim'⟩ := (each shardId).2
            fun member => absent (mem_cons_of_mem _ member)
          exact ⟨since'.trans since, claim'.trans claim⟩

theorem releaseProbeClaims_apply (router : ShardRouter) (released : List String) (shardId : String)
    : (router.releaseProbeClaims released).probesInFlight shardId
      = if shardId ∈ released then none else router.probesInFlight shardId := by
  unfold releaseProbeClaims
  generalize router.probesInFlight = probes
  induction released generalizing probes with
  | nil => simp
  | cons first rest ih =>
    rw [foldl_cons, ih]
    by_cases later : shardId ∈ rest
    · simp [later]
    · by_cases here : shardId = first
      · simp [here]
      · simp [later, here]

end ShardRouter

end AkiDB.Coordinator
