import Mathlib

/-!
Breadth-first search over labelled successors finds what it handles at the depth of a shortest
walk.
-/

namespace BreadthFirst
open List

variable {Node Label : Type*}

/-- A walk from a start, with the labels of its steps. -/
inductive Walk (next : Node → List (Label × Node)) (start : Node) : List Label → Node → Prop
  | nil : Walk next start [] start
  | step {path node label target} (before : Walk next start path node)
      (leads : (label, target) ∈ next node) : Walk next start (path ++ [label]) target

theorem Walk.mono {next more : Node → List (Label × Node)} (within : ∀ node, next node ⊆ more node)
    {start path target} (walk : Walk next start path target) : Walk more start path target := by
  induction walk with
  | nil => exact .nil
  | step _ leads ih => exact .step ih (within _ leads)

/-- The state of a search that follows nodes of a depth below the limit. -/
structure Layered (next : Node → List (Label × Node)) (start : Node) (limit : Nat)
    (handled waiting : List (Node × Nat)) : Prop where
  started : (start, 0) ∈ handled ++ waiting
  distinct : ((handled ++ waiting).map Prod.fst).Nodup
  ordered : (handled ++ waiting).Pairwise fun earlier later => earlier.2 ≤ later.2
  close : ∀ first ∈ waiting.head?, ∀ entry ∈ waiting, entry.2 ≤ first.2 + 1
  walked : ∀ entry ∈ handled ++ waiting,
    entry.2 ≤ limit ∧ ∃ path, path.length = entry.2 ∧ Walk next start path entry.1
  followed : ∀ entry ∈ handled, entry.2 < limit → ∀ step ∈ next entry.1,
    ∃ depth ≤ entry.2 + 1, (step.2, depth) ∈ handled ++ waiting

namespace Layered

variable {next : Node → List (Label × Node)} {start node : Node} {limit depth : Nat}
  {handled waiting : List (Node × Nat)} {path : List Label}

theorem initial : Layered next start limit [] [(start, 0)] where
  started := by simp
  distinct := by simp
  ordered := by simp
  close := by simp
  walked := by
    rintro entry member
    cases mem_singleton.mp member
    exact ⟨Nat.zero_le _, [], rfl, .nil⟩
  followed := by simp

theorem push {label target} (layered : Layered next start limit handled ((node, depth) :: waiting))
    (below : depth < limit) (leads : (label, target) ∈ next node)
    (fresh : target ∉ (handled ++ (node, depth) :: waiting).map Prod.fst)
    : Layered next start limit handled ((node, depth) :: (waiting ++ [(target, depth + 1)])) := by
  have extended : handled ++ (node, depth) :: (waiting ++ [(target, depth + 1)])
      = (handled ++ (node, depth) :: waiting) ++ [(target, depth + 1)] := by simp
  have last : ∀ entry ∈ handled ++ (node, depth) :: waiting, entry.2 ≤ depth + 1 := by
    intro entry member
    rcases mem_append.mp member with earlier | waits
    · exact ((pairwise_append.mp layered.ordered).2.2 entry earlier (node, depth)
        mem_cons_self).trans (Nat.le_succ depth)
    · exact layered.close (node, depth) rfl entry waits
  constructor
  · rw [extended]
    exact mem_append_left _ layered.started
  · rw [extended, map_append, nodup_append]
    refine ⟨layered.distinct, by simp, ?_⟩
    rintro other among _ single rfl
    cases mem_singleton.mp single
    exact fresh among
  · rw [extended, pairwise_append]
    refine ⟨layered.ordered, by simp, fun entry member new single => ?_⟩
    cases mem_singleton.mp single
    exact last entry member
  · rintro first ⟨⟩ entry member
    rcases mem_append.mp (show entry ∈ ((node, depth) :: waiting) ++ _ from member)
      with waits | single
    · exact layered.close (node, depth) rfl entry waits
    · cases mem_singleton.mp single
      exact le_rfl
  · rw [extended]
    intro entry member
    rcases mem_append.mp member with earlier | single
    · exact layered.walked entry earlier
    · cases mem_singleton.mp single
      obtain ⟨_, path, length, walk⟩ := layered.walked (node, depth) (by simp)
      exact ⟨below, path ++ [label], by simp [length], walk.step leads⟩
  · rw [extended]
    intro entry member shallow step leads
    obtain ⟨depth, low, among⟩ := layered.followed entry member shallow step leads
    exact ⟨depth, low, mem_append_left _ among⟩

theorem settle (layered : Layered next start limit handled ((node, depth) :: waiting))
    (known : depth < limit → ∀ step ∈ next node,
      step.2 ∈ (handled ++ (node, depth) :: waiting).map Prod.fst)
    : Layered next start limit (handled ++ [(node, depth)]) waiting := by
  have same : (handled ++ [(node, depth)]) ++ waiting = handled ++ (node, depth) :: waiting := by
    simp
  have ordered := pairwise_append.mp layered.ordered
  have behind := pairwise_cons.mp ordered.2.1
  constructor
  · exact same ▸ layered.started
  · exact same ▸ layered.distinct
  · exact same ▸ layered.ordered
  · intro first isFirst entry member
    have later := behind.1 first (mem_of_mem_head? isFirst)
    have near := layered.close (node, depth) rfl entry (mem_cons_of_mem _ member)
    exact near.trans (Nat.succ_le_succ later)
  · exact same ▸ layered.walked
  · rw [same]
    intro entry member shallow step leads
    rcases mem_append.mp member with earlier | single
    · exact layered.followed entry earlier shallow step leads
    · cases mem_singleton.mp single
      obtain ⟨⟨target, found⟩, among, rfl⟩ := mem_map.mp (known shallow step leads)
      refine ⟨found, ?_, among⟩
      rcases mem_append.mp among with earlier | waits
      · exact (ordered.2.2 _ earlier (node, depth) mem_cons_self).trans (Nat.le_succ depth)
      · exact layered.close (node, depth) rfl _ waits

/-- What a walk no longer than anything waiting leads to is known, at no greater depth. -/
theorem reached (layered : Layered next start limit handled waiting)
    (walk : Walk next start path node) (short : ∀ entry ∈ waiting, path.length ≤ entry.2)
    (within : path.length ≤ limit)
    : ∃ depth ≤ path.length, (node, depth) ∈ handled ++ waiting := by
  induction walk with
  | nil => exact ⟨0, le_rfl, layered.started⟩
  | @step path before label target walk leads ih =>
    rw [length_append, length_singleton] at short within ⊢
    obtain ⟨depth, low, among⟩ := ih (fun entry waits => (short entry waits).trans' (by omega))
      (by omega)
    rcases mem_append.mp among with done | waits
    · obtain ⟨found, near, known⟩ :=
        layered.followed _ done (by dsimp only; omega) _ leads
      exact ⟨found, near.trans (by dsimp only; omega), known⟩
    · have late := short _ waits
      dsimp only at late
      omega

theorem handled_of_walk (layered : Layered next start limit handled waiting)
    (walk : Walk next start path node) (short : ∀ entry ∈ waiting, path.length < entry.2)
    (within : path.length ≤ limit)
    : ∃ depth, (node, depth) ∈ handled := by
  obtain ⟨depth, low, among⟩ :=
    layered.reached walk (fun entry waits => (short entry waits).le) within
  rcases mem_append.mp among with done | waits
  · exact ⟨depth, done⟩
  · exact absurd (short _ waits) (by dsimp only; omega)

theorem length_le (layered : Layered next start limit handled waiting) {nodes : List Node}
    (stored : ∀ node, ∀ step ∈ next node, step.2 ∈ nodes)
    : (handled ++ waiting).length ≤ nodes.length + 1 := by
  have among : (handled ++ waiting).map Prod.fst ⊆ start :: nodes := by
    intro node member
    obtain ⟨entry, listed, rfl⟩ := mem_map.mp member
    obtain ⟨_, path, _, walk⟩ := layered.walked entry listed
    cases walk with
    | nil => exact mem_cons_self
    | step before leads => exact mem_cons_of_mem _ (stored _ _ leads)
  simpa using (layered.distinct.subperm among).length_le

end Layered

end BreadthFirst
