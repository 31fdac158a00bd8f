import AkiDB.Coordinator.Selection
import AkiDB.Library.Runs

/-! Concurrent fan-out searches over one router: each reports every configured shard once. -/

namespace AkiDB.Coordinator
open Runs List

/-- The status codes of gRPC. -/
inductive Code where
  | ok | cancelled | unknown | invalidArgument | deadlineExceeded | notFound | alreadyExists
  | permissionDenied | resourceExhausted | failedPrecondition | aborted | outOfRange
  | unimplemented | internal | unavailable | dataLoss | unauthenticated
  deriving DecidableEq

inductive ShardOutcome where
  | answered
  | status (code : Code)
  | timedOut
  | panicked
  deriving DecidableEq

/-- Only a failure that leaves the shard's state unknown is evidence against it. -/
def ShardOutcome.indicatesUnhealthyShard : ShardOutcome → Bool
  | .answered => false
  | .status code => code ∈ [.unavailable, .deadlineExceeded, .cancelled, .unknown]
  | .timedOut => true
  | .panicked => true

/-- A search: the shards whose pool it has still to get, its tasks, and those still to await. -/
structure FanoutSearch where
  startedAt : Nat
  /-- The shards whose probe it claimed. -/
  probes : List String
  unpooled : List String
  handleShardIds : List String
  pending : List String
  respondingShards : List String
  missingShards : List String
  completed : Bool
  deriving DecidableEq

inductive FanoutAction where
  | elapse (duration : Nat)
  | start
  | pool (index : Nat) (available : Bool)
  | collect (index : Nat) (outcome : ShardOutcome)
  | finish (index : Nat)

structure FanoutRun where
  now : Nat
  router : ShardRouter
  searches : List FanoutSearch

namespace FanoutSearch

variable (search : FanoutSearch)

def takePool (shard : String) (rest : List String) (available : Bool) : FanoutSearch :=
  if available then
    {
      search with
      unpooled := rest
      handleShardIds := search.handleShardIds ++ [shard]
      pending := search.pending ++ [shard]
    }
  else { search with unpooled := rest, missingShards := search.missingShards ++ [shard] }

def collect (shard : String) (rest : List String) (outcome : ShardOutcome) : FanoutSearch :=
  if outcome = .answered then
    { search with pending := rest, respondingShards := search.respondingShards ++ [shard] }
  else { search with pending := rest, missingShards := search.missingShards ++ [shard] }

def Ready : Prop :=
  search.unpooled = [] ∧ search.pending = [] ∧ search.completed = false

instance : Decidable search.Ready :=
  inferInstanceAs (Decidable (_ ∧ _))

/-- A claimed probe whose outcome is not known yet. -/
def Probing (shard : String) : Prop :=
  shard ∈ search.probes ∧ shard ∈ search.unpooled ++ search.pending

instance (shard : String) : Decidable (search.Probing shard) :=
  inferInstanceAs (Decidable (_ ∧ _))

end FanoutSearch

namespace FanoutRun

variable (run : FanoutRun)

def initial (shards : List ShardInfo) : FanoutRun where
  now := 0
  router := ShardRouter.new shards
  searches := []

/-- Under the router's lock: select, claim, and note what is held back. -/
def startSearch (retryAfter : Nat) : FanoutRun :=
  let index := run.searches.length
  let selection := run.router.fanoutSelection retryAfter run.now index
  let router := { run.router with probesInFlight := selection.probesInFlight }
  if selection.selected = [] then { run with router }
  else
    {
      run with
      router
      searches := run.searches ++ [{
          startedAt := run.now
          probes := (selection.selected.filter fun shard =>
            selection.probesInFlight shard.id = some ⟨run.now, index⟩).map (·.id)
          unpooled := selection.selected.map (·.id)
          handleShardIds := []
          pending := []
          respondingShards := []
          missingShards := selection.heldBack
          completed := false
        }]
    }

def takePool (index : Nat) (available : Bool) : FanoutRun :=
  match run.searches[index]? with
  | none => run
  | some search =>
    match search.unpooled with
    | [] => run
    | shard :: rest =>
      { run with searches := run.searches.set index (search.takePool shard rest available) }

/-- Await the next task; tasks start once every pool has been asked for. -/
def collect (index : Nat) (outcome : ShardOutcome) : FanoutRun :=
  match run.searches[index]? with
  | none => run
  | some search =>
    match search.unpooled, search.pending with
    | [], shard :: rest =>
      {
        run with
        router :=
          if outcome.indicatesUnhealthyShard then run.router.updateHealth run.now shard false
          else run.router
        searches := run.searches.set index (search.collect shard rest outcome)
      }
    | _, _ => run

/-- Under the router's lock: mark the shards that answered, and release the claims of the tasks. -/
def finish (index : Nat) : FanoutRun :=
  match run.searches[index]? with
  | none => run
  | some search =>
    if search.Ready then
      {
        run with
        router := (run.router.markHealthy run.now search.respondingShards).releaseProbeClaims
          search.handleShardIds
        searches := run.searches.set index { search with completed := true }
      }
    else run

def perform (retryAfter : Nat) : FanoutAction → FanoutRun
  | .elapse duration => { run with now := run.now + duration }
  | .start => run.startSearch retryAfter
  | .pool index available => run.takePool index available
  | .collect index outcome => run.collect index outcome
  | .finish index => run.finish index

/-- A search gets the pools it claimed, and releases no young undecided claim of another. -/
def Permits (retryAfter : Nat) : FanoutAction → Prop
  | .pool index available =>
    available = true
      ∨ ∀ search ∈ run.searches[index]?, ∀ shard ∈ search.unpooled.head?,
        ∀ claim ∈ run.router.probesInFlight shard, claim.search ≠ index
  | .finish index =>
    ∀ search ∈ run.searches[index]?, search.Ready →
      ∀ shard ∈ search.handleShardIds, shard ∉ search.respondingShards →
        ∀ claim ∈ run.router.probesInFlight shard, claim.search ≠ index →
          claim.claimedAt + retryAfter ≤ run.now
            ∨ ∀ other ∈ run.searches[claim.search]?, ¬other.Probing shard
  | _ => True

instance (retryAfter : Nat) (action : FanoutAction)
    : Decidable (run.Permits retryAfter action) := by
  cases action <;> unfold Permits <;> infer_instance

end FanoutRun

namespace FanoutRun

variable {run : FanoutRun} {index : Nat}

theorem startSearch_cases (run : FanoutRun) (retryAfter : Nat)
    : let fanout := run.router.fanoutSelection retryAfter run.now run.searches.length
      ∃ started : List FanoutSearch, run.startSearch retryAfter
          = { run with
              router := { run.router with probesInFlight := fanout.probesInFlight }
              searches := run.searches ++ started }
        ∧ (started = [] ∧ fanout.selected = []
          ∨ ∃ search, started = [search] ∧ search.startedAt = run.now
            ∧ search.completed = false
            ∧ (∀ shard, search.Probing shard →
                fanout.probesInFlight shard = some ⟨run.now, run.searches.length⟩)
            ∧ ∀ info ∈ fanout.selected, info.id ∈ search.unpooled ++ search.handleShardIds) := by
  unfold startSearch
  dsimp only
  split
  · next none => exact ⟨[], by simp, .inl ⟨rfl, none⟩⟩
  · refine ⟨_, rfl, .inr ⟨_, rfl, rfl, rfl, ?_, ?_⟩⟩
    · rintro shard ⟨claimed, -⟩
      simp only [mem_map, mem_filter, decide_eq_true_eq] at claimed
      obtain ⟨info, ⟨-, own⟩, rfl⟩ := claimed
      exact own
    · intro info member
      exact mem_append_left _ (mem_map_of_mem member)

theorem takePool_cases (run : FanoutRun) (index : Nat) (available : Bool)
    : run.takePool index available = run
      ∨ ∃ search shard rest, run.searches[index]? = some search
        ∧ search.unpooled = shard :: rest
        ∧ run.takePool index available
          = { run with
              searches := run.searches.set index (search.takePool shard rest available) } := by
  unfold takePool
  split
  · exact .inl rfl
  · next search found =>
      split
      · exact .inl rfl
      · next shard rest first => exact .inr ⟨search, shard, rest, found, first, rfl⟩

theorem collect_cases (run : FanoutRun) (index : Nat) (outcome : ShardOutcome)
    : run.collect index outcome = run
      ∨ ∃ search shard rest, run.searches[index]? = some search
        ∧ search.unpooled = [] ∧ search.pending = shard :: rest
        ∧ run.collect index outcome
          = { run with
              router :=
                if outcome.indicatesUnhealthyShard then
                  run.router.updateHealth run.now shard false
                else run.router
              searches := run.searches.set index (search.collect shard rest outcome) } := by
  unfold collect
  split
  · exact .inl rfl
  · next search found =>
      split
      · next shard rest pooled first =>
          exact .inr ⟨search, shard, rest, found, pooled, first, rfl⟩
      · exact .inl rfl

theorem finish_cases (run : FanoutRun) (index : Nat)
    : run.finish index = run
      ∨ ∃ search, run.searches[index]? = some search ∧ search.Ready
        ∧ run.finish index
          = { run with
              router := (run.router.markHealthy run.now
                search.respondingShards).releaseProbeClaims search.handleShardIds
              searches := run.searches.set index { search with completed := true } } := by
  unfold finish
  split
  · exact .inl rfl
  · next search found =>
      split
      · next ready => exact .inr ⟨search, found, ready, rfl⟩
      · exact .inl rfl

variable {searches : List FanoutSearch} {found : FanoutSearch}

theorem getElem?_of_snoc {added} {other : Nat}
    (at_other : (searches ++ [added])[other]? = some found)
    : searches[other]? = some found ∨ other = searches.length ∧ found = added := by
  rcases Nat.lt_trichotomy other searches.length with inside | atEnd | beyond
  · rw [getElem?_append_left inside] at at_other
    exact .inl at_other
  · subst atEnd
    simp only [getElem?_concat_length, Option.some.injEq] at at_other
    exact .inr ⟨rfl, at_other.symm⟩
  · rw [getElem?_eq_none (by simp; omega)] at at_other
    cases at_other

theorem getElem?_of_set {replacement} {other : Nat}
    (at_other : (searches.set index replacement)[other]? = some found)
    : other = index ∧ found = replacement
      ∨ other ≠ index ∧ searches[other]? = some found := by
  rw [getElem?_set] at at_other
  split at at_other
  · next same =>
      split at at_other
      · exact .inl ⟨same.symm, (Option.some.inj at_other).symm⟩
      · cases at_other
  · next differs => exact .inr ⟨Ne.symm differs, at_other⟩

end FanoutRun

/-! Coverage -/

/-- Every configured shard is accounted for once: reported, or still to be asked. -/
structure FanoutSearch.Accounted (search : FanoutSearch) (shardIds : List String) : Prop where
  once : (search.respondingShards ++ search.missingShards
    ++ (search.unpooled ++ search.pending)).Perm shardIds
  completed : search.completed = true → search.unpooled = [] ∧ search.pending = []

namespace FanoutSearch.Accounted

variable {search : FanoutSearch} {shardIds : List String}

variable {shard : String}

section
variable (accounted : search.Accounted shardIds)
include accounted

variable {rest : List String}

theorem takePool (first : search.unpooled = shard :: rest) (available : Bool)
    : (search.takePool shard rest available).Accounted shardIds := by
  obtain ⟨once, completed⟩ := accounted
  refine ⟨Perm.trans ?_ once, ?_⟩
  · rw [first, perm_iff_count]
    intro counted
    cases available with
    | false => simp [FanoutSearch.takePool, count_cons]
    | true =>
      simp [FanoutSearch.takePool, count_cons]
      omega
  · intro done
    cases available <;> simp_all [FanoutSearch.takePool]

theorem collect (first : search.pending = shard :: rest) (outcome : ShardOutcome)
    : (search.collect shard rest outcome).Accounted shardIds := by
  obtain ⟨once, completed⟩ := accounted
  refine ⟨Perm.trans ?_ once, ?_⟩
  · rw [first, perm_iff_count]
    intro counted
    by_cases answered : outcome = .answered
    all_goals
      simp [FanoutSearch.collect, answered, count_cons]
      omega
  · intro done
    by_cases answered : outcome = .answered <;> simp_all [FanoutSearch.collect]

theorem mem_ids
    (member : shard ∈ search.respondingShards ∨ shard ∈ search.pending)
    : shard ∈ shardIds := by
  refine accounted.once.subset ?_
  rcases member with responding | pending <;> simp [*]

end

end FanoutSearch.Accounted

namespace FanoutRun

/-- The configured shards stay, and every search accounts for all of them. -/
structure Covered (shardIds : List String) (run : FanoutRun) : Prop where
  configured : run.router.shardIds = shardIds
  accounted : ∀ (index : Nat) (search : FanoutSearch),
    run.searches[index]? = some search → search.Accounted shardIds

namespace Covered

variable {run : FanoutRun} {shardIds : List String}

theorem replace (covered : Covered shardIds run) {router} {index : Nat} {search}
    (configured : router.shardIds = shardIds) (accounted : search.Accounted shardIds)
    : Covered shardIds { run with router, searches := run.searches.set index search } := by
  refine ⟨configured, ?_⟩
  intro other found at_other
  rcases getElem?_of_set at_other with ⟨-, rfl⟩ | ⟨-, before⟩
  · exact accounted
  · exact covered.accounted other found before

theorem startSearch (covered : Covered shardIds run) (retryAfter : Nat)
    : Covered shardIds (run.startSearch retryAfter) := by
  have split := run.router.fanoutSelection_split retryAfter run.now run.searches.length
  rw [covered.configured] at split
  unfold FanoutRun.startSearch
  dsimp only
  split
  · exact ⟨covered.configured, covered.accounted⟩
  · refine ⟨covered.configured, ?_⟩
    intro index search found
    rw [getElem?_append] at found
    split at found
    · exact covered.accounted index search found
    · obtain ⟨-, rfl⟩ := List.getElem?_eq_some_iff.mp found
      simp only [getElem_singleton]
      refine ⟨?_, by simp⟩
      simpa using perm_append_comm.trans split

theorem perform (covered : Covered shardIds run) (distinct : shardIds.Nodup) (retryAfter : Nat)
    (action : FanoutAction)
    : Covered shardIds (run.perform retryAfter action) := by
  cases action with
  | elapse duration => exact ⟨covered.configured, covered.accounted⟩
  | start => exact covered.startSearch retryAfter
  | pool index available =>
    show Covered shardIds (run.takePool index available)
    rcases run.takePool_cases index available with same | ⟨search, shard, rest, found, first, step⟩
    · rwa [same]
    · rw [step]
      exact covered.replace covered.configured
        ((covered.accounted index search found).takePool first available)
  | collect index outcome =>
    show Covered shardIds (run.collect index outcome)
    rcases run.collect_cases index outcome with
      same | ⟨search, shard, rest, found, -, first, step⟩
    · rwa [same]
    · rw [step]
      refine covered.replace ?_ ((covered.accounted index search found).collect first outcome)
      split <;> simp [covered.configured]
  | finish index =>
    show Covered shardIds (run.finish index)
    rcases run.finish_cases index with same | ⟨search, found, ready, step⟩
    · rwa [same]
    · have accounted := covered.accounted index search found
      have marked := @ShardRouter.markHealthy_spec run.router run.now search.respondingShards
        (covered.configured ▸ distinct)
        (covered.configured ▸ fun _ member => accounted.mem_ids (.inl member))
      rw [step]
      exact covered.replace (marked.1.trans covered.configured)
        ⟨accounted.once, fun _ => ⟨ready.1, ready.2.1⟩⟩

end Covered

/-! Probes -/

/-- Why no other search can claim the shard of a probe within its window. -/
def Guarded (run : FanoutRun) (retryAfter index startedAt : Nat) (shard : String) : Prop :=
  run.router.probesInFlight shard = some ⟨startedAt, index⟩
    ∨ startedAt + retryAfter ≤ run.now
    ∨ (∃ since, run.router.unhealthySince shard = some since ∧ startedAt ≤ since)
    ∨ run.router.Healthy shard

/-- Claims belong to searches that will release them, and probes are guarded and spaced. -/
structure Probed (retryAfter : Nat) (run : FanoutRun) : Prop where
  started : ∀ (index : Nat) (search : FanoutSearch),
    run.searches[index]? = some search → search.startedAt ≤ run.now
  traced : ∀ shard claim, run.router.probesInFlight shard = some claim →
    ∃ search, run.searches[claim.search]? = some search ∧ search.completed = false
      ∧ shard ∈ search.unpooled ++ search.handleShardIds
  guarded : ∀ (index : Nat) (search : FanoutSearch) (shard : String),
    run.searches[index]? = some search → search.Probing shard →
      run.Guarded retryAfter index search.startedAt shard
  spaced : ∀ (index later : Nat) (first second : FanoutSearch) (shard : String),
    index < later → run.searches[index]? = some first → run.searches[later]? = some second →
      first.Probing shard → second.Probing shard → first.startedAt + retryAfter ≤ second.startedAt

namespace Probed

variable {run after : FanoutRun} {retryAfter : Nat}

theorem advance (probed : Probed retryAfter run) (onward : run.now ≤ after.now)
    (advances : ∀ (index : Nat) (search : FanoutSearch), after.searches[index]? = some search →
      ∃ earlier, run.searches[index]? = some earlier ∧ search.startedAt = earlier.startedAt
        ∧ ∀ shard, search.Probing shard → earlier.Probing shard)
    (traced : ∀ shard claim, after.router.probesInFlight shard = some claim →
      ∃ search, after.searches[claim.search]? = some search ∧ search.completed = false
        ∧ shard ∈ search.unpooled ++ search.handleShardIds)
    (guarded : ∀ (index : Nat) (search : FanoutSearch) (shard : String),
      after.searches[index]? = some search → search.Probing shard →
        run.Guarded retryAfter index search.startedAt shard →
          after.Guarded retryAfter index search.startedAt shard)
    : Probed retryAfter after where
  started := by
    intro index search found
    obtain ⟨earlier, before, same, -⟩ := advances index search found
    exact same ▸ Nat.le_trans (probed.started index earlier before) onward
  traced := traced
  guarded := by
    intro index search shard found probing
    obtain ⟨earlier, before, same, wasProbing⟩ := advances index search found
    exact guarded index search shard found probing
      (same ▸ probed.guarded index earlier shard before (wasProbing shard probing))
  spaced := by
    intro index later first second shard ordered atFirst atSecond firstProbing secondProbing
    obtain ⟨firstBefore, foundFirst, sameFirst, firstWas⟩ := advances index first atFirst
    obtain ⟨secondBefore, foundSecond, sameSecond, secondWas⟩ := advances later second atSecond
    rw [sameFirst, sameSecond]
    exact probed.spaced index later firstBefore secondBefore shard ordered foundFirst foundSecond
      (firstWas shard firstProbing) (secondWas shard secondProbing)

variable {index : Nat} {shardIds : List String}

theorem advances_set {search replacement} (found : run.searches[index]? = some search)
    (same : replacement.startedAt = search.startedAt)
    (fewer : ∀ shard, replacement.Probing shard → search.Probing shard)
    : ∀ (other : Nat) (current : FanoutSearch),
      (run.searches.set index replacement)[other]? = some current →
        ∃ earlier, run.searches[other]? = some earlier
          ∧ current.startedAt = earlier.startedAt
          ∧ ∀ shard, current.Probing shard → earlier.Probing shard := by
  intro other current at_other
  rcases getElem?_of_set at_other with ⟨rfl, rfl⟩ | ⟨-, before⟩
  · exact ⟨search, found, same, fewer⟩
  · exact ⟨current, before, rfl, fun _ probing => probing⟩

section
variable (probed : Probed retryAfter run)
include probed

theorem traced_set {search replacement} (found : run.searches[index]? = some search) {shard claim}
    (held : run.router.probesInFlight shard = some claim)
    (still : claim.search = index → search.completed = false →
      shard ∈ search.unpooled ++ search.handleShardIds → replacement.completed = false
          ∧ shard ∈ replacement.unpooled ++ replacement.handleShardIds)
    : ∃ current, (run.searches.set index replacement)[claim.search]? = some current
      ∧ current.completed = false ∧ shard ∈ current.unpooled ++ current.handleShardIds := by
  obtain ⟨owner, owned, running, releases⟩ := probed.traced shard claim held
  by_cases own : claim.search = index
  · rw [own] at owned ⊢
    cases found.symm.trans owned
    obtain ⟨inRange, -⟩ := List.getElem?_eq_some_iff.mp found
    refine ⟨replacement, ?_, still own running releases⟩
    rw [getElem?_set_self inRange]
  · refine ⟨owner, ?_, running, releases⟩
    rwa [getElem?_set_ne (Ne.symm own)]

theorem takePool {available : Bool}
    (permits : run.Permits retryAfter (.pool index available))
    : Probed retryAfter (run.takePool index available) := by
  rcases run.takePool_cases index available with same | ⟨search, shard, rest, found, first, step⟩
  · rwa [same]
  · rw [step]
    refine probed.advance (Nat.le_refl _) (advances_set found ?_ ?_) ?_ ?_
    · cases available <;> rfl
    · rintro probe ⟨claimed, waiting⟩
      cases available with
      | false =>
        refine ⟨claimed, ?_⟩
        rw [first]
        exact mem_cons_of_mem _ waiting
      | true =>
        refine ⟨claimed, ?_⟩
        simp only [FanoutSearch.takePool, if_pos, mem_append, mem_cons, first,
          not_mem_nil, or_false] at waiting ⊢
        tauto
    · intro claimedShard claim held
      refine probed.traced_set found held ?_
      intro own running releases
      cases available with
      | true =>
        refine ⟨running, ?_⟩
        simp only [FanoutSearch.takePool, if_pos, mem_append, mem_cons, first,
          not_mem_nil, or_false] at releases ⊢
        tauto
      | false =>
        -- the shard whose pool is missing is not one of its claims
        have notOwn := permits.resolve_left (by simp) search found shard (by simp [first])
        refine ⟨running, ?_⟩
        rw [first] at releases
        rcases mem_append.mp releases with unpooled | handled
        · rcases mem_cons.mp unpooled with rfl | later
          · exact absurd own (notOwn claim held)
          · exact mem_append_left _ later
        · exact mem_append_right _ handled
    · intro other current probe _ _ guarded
      exact guarded

theorem collect (covered : Covered shardIds run)
    (distinct : shardIds.Nodup) (index : Nat) (outcome : ShardOutcome)
    : Probed retryAfter (run.collect index outcome) := by
  rcases run.collect_cases index outcome with
    same | ⟨search, shard, rest, found, pooled, first, step⟩
  · rwa [same]
  · have configured : shard ∈ run.router.shardIds := by
      rw [covered.configured]
      exact (covered.accounted index search found).mem_ids (.inr (by simp [first]))
    have routerDistinct : run.router.shardIds.Nodup := covered.configured ▸ distinct
    have progress : ∀ probe, (search.collect shard rest outcome).Probing probe →
        search.Probing probe := by
      rintro probe ⟨claimed, waiting⟩
      by_cases answered : outcome = .answered <;>
        simp_all [FanoutSearch.collect, FanoutSearch.Probing]
    have sameSearch : (search.collect shard rest outcome).startedAt = search.startedAt
        ∧ (search.collect shard rest outcome).completed = search.completed
        ∧ (search.collect shard rest outcome).unpooled = search.unpooled
        ∧ (search.collect shard rest outcome).handleShardIds = search.handleShardIds := by
      unfold FanoutSearch.collect
      split <;> exact ⟨rfl, rfl, rfl, rfl⟩
    rw [step]
    refine probed.advance (Nat.le_refl _) (advances_set found sameSearch.1 progress) ?_ ?_
    · intro claimedShard claim held
      have before : run.router.probesInFlight claimedShard = some claim := by
        split at held
        · exact ShardRouter.updateHealth_claim held
        · exact held
      refine probed.traced_set found before ?_
      intro _ running releases
      rw [sameSearch.2.1, sameSearch.2.2.1, sameSearch.2.2.2]
      exact ⟨running, releases⟩
    · intro other current probe at_other probing guarded
      dsimp only [Guarded] at guarded ⊢
      split
      · by_cases marked : probe = shard
        · -- a failure restarts the window now
          subst marked
          refine .inr (.inr (.inl ⟨run.now, ?_, ?_⟩))
          · exact (ShardRouter.updateHealth_same routerDistinct configured).1
          · obtain ⟨earlier, before, same, -⟩ :=
              advances_set found sameSearch.1 progress other current at_other
            exact same ▸ probed.started other earlier before
        · obtain ⟨since, claim, healthy⟩ :=
            @ShardRouter.updateHealth_other run.router run.now shard probe false routerDistinct
              marked
          rw [since, claim]
          exact guarded.imp_right (Or.imp_right (Or.imp_right healthy))
      · exact guarded

theorem finish (covered : Covered shardIds run)
    (distinct : shardIds.Nodup) (permits : run.Permits retryAfter (.finish index))
    : Probed retryAfter (run.finish index) := by
  rcases run.finish_cases index with same | ⟨search, found, ready, step⟩
  · rwa [same]
  · have accounted := covered.accounted index search found
    obtain ⟨-, claims, each⟩ := @ShardRouter.markHealthy_spec run.router run.now
      search.respondingShards (covered.configured ▸ distinct)
      (covered.configured ▸ fun _ member => accounted.mem_ids (.inl member))
    have idle : ∀ probe, ¬search.Probing probe := by
      rintro probe ⟨-, waiting⟩
      simp [ready.1, ready.2.1] at waiting
    rw [step]
    refine probed.advance (Nat.le_refl _) (advances_set found rfl fun _ probing => probing) ?_ ?_
    · intro claimedShard claim held
      rw [ShardRouter.releaseProbeClaims_apply] at held
      split at held
      · cases held
      · next kept =>
          refine probed.traced_set found (claims claimedShard claim held) ?_
          intro _ _ releases
          rw [ready.1, nil_append] at releases
          exact absurd releases kept
    · intro other current probe at_other probing guarded
      rcases getElem?_of_set at_other with ⟨-, rfl⟩ | ⟨differs, before⟩
      · exact absurd probing (idle probe)
      · dsimp only [Guarded] at guarded ⊢
        by_cases answered : probe ∈ search.respondingShards
        · exact .inr (.inr (.inr ((each probe).1 (.inl answered))))
        · obtain ⟨since, claim⟩ := (each probe).2 answered
          rcases guarded with held | elapsed | restarted | healthy
          · rw [ShardRouter.releaseProbeClaims_apply]
            split
            · next handled =>
                -- another search's claim goes: it must be old
                rcases permits search found ready probe handled answered _ held differs with
                  old | known
                · exact .inr (.inl old)
                · exact absurd probing (known current before)
            · exact .inl (claim.trans held)
          · exact .inr (.inl elapsed)
          · exact .inr (.inr (.inl (since ▸ restarted)))
          · exact .inr (.inr (.inr ((each probe).1 (.inr healthy))))

end

theorem spaced_of_due {startedAt : Nat} {shard}
    (guarded : run.Guarded retryAfter index startedAt shard) (started : startedAt ≤ run.now)
    (due : run.router.ProbeDue retryAfter run.now shard)
    : startedAt + retryAfter ≤ run.now := by
  obtain ⟨⟨info, member, named, unhealthy⟩, retry, unclaimed⟩ := due
  rcases guarded with held | elapsed | ⟨since, failed, after⟩ | healthy
  · simp only [held, probeClaimed, decide_eq_false_iff_not] at unclaimed
    omega
  · exact elapsed
  · simp only [failed, retryDue, decide_eq_true_eq] at retry
    omega
  · simp [healthy info member named] at unhealthy

theorem startSearch (probed : Probed retryAfter run) (distinct : run.router.shardIds.Nodup)
    : Probed retryAfter (run.startSearch retryAfter) := by
  have claims := @ShardRouter.fanoutSelection_claims run.router retryAfter run.now
    run.searches.length distinct
  obtain ⟨started, step, cases⟩ := run.startSearch_cases retryAfter
  rw [step]
  generalize run.router.fanoutSelection retryAfter run.now run.searches.length = selection
    at claims cases ⊢
  -- an earlier probe keeps its guard, or its window has elapsed
  have earlier : ∀ (index : Nat) (search : FanoutSearch) (shard : String),
      run.searches[index]? = some search → search.Probing shard →
        selection.probesInFlight shard = some ⟨search.startedAt, index⟩
          ∨ search.startedAt + retryAfter ≤ run.now
          ∨ (∃ since, run.router.unhealthySince shard = some since ∧ search.startedAt ≤ since)
          ∨ run.router.Healthy shard := by
    intro index search shard found probing
    have guarded := probed.guarded index search shard found probing
    rcases claims shard with same | ⟨-, -, due⟩
    · rw [same]
      exact guarded
    · exact .inr (.inl (spaced_of_due guarded (probed.started index search found) due))
  rcases cases with ⟨rfl, none⟩ | ⟨new, rfl, startedNow, running, own, toAsk⟩
  · rw [append_nil]
    refine ⟨probed.started, ?_, earlier, probed.spaced⟩
    intro shard claim held
    rcases claims shard with same | ⟨-, ⟨info, selected, -⟩, -⟩
    · exact probed.traced shard claim (same ▸ held)
    · simp [none] at selected
  · refine ⟨?_, ?_, ?_, ?_⟩
    · intro index search found
      rcases getElem?_of_snoc found with before | ⟨-, rfl⟩
      · exact probed.started index search before
      · exact Nat.le_of_eq startedNow
    · intro shard claim held
      rcases claims shard with same | ⟨claimed, ⟨info, selected, named⟩, -⟩
      · obtain ⟨owner, owned, ownerRunning, releases⟩ := probed.traced shard claim (same ▸ held)
        obtain ⟨inRange, -⟩ := List.getElem?_eq_some_iff.mp owned
        refine ⟨owner, ?_, ownerRunning, releases⟩
        rwa [getElem?_append_left inRange]
      · cases claimed.symm.trans held
        exact ⟨new, getElem?_concat_length .., running, named ▸ toAsk info selected⟩
    · intro index search shard found probing
      rcases getElem?_of_snoc found with before | ⟨rfl, rfl⟩
      · exact earlier index search shard before probing
      · exact .inl (startedNow ▸ own shard probing)
    · intro index later first second shard ordered atFirst atSecond firstProbing secondProbing
      rcases getElem?_of_snoc atSecond with secondBefore | ⟨rfl, rfl⟩
      · rcases getElem?_of_snoc atFirst with firstBefore | ⟨rfl, -⟩
        · exact probed.spaced index later first second shard ordered firstBefore secondBefore
            firstProbing secondProbing
        · obtain ⟨inRange, -⟩ := List.getElem?_eq_some_iff.mp secondBefore
          omega
      · rcases getElem?_of_snoc atFirst with firstBefore | ⟨rfl, -⟩
        · rw [startedNow]
          rcases claims shard with same | ⟨-, -, due⟩
          · -- the index of the new search is on no earlier claim
            obtain ⟨owner, owned, -⟩ :=
              probed.traced shard _ (same.symm.trans (own shard secondProbing))
            simp at owned
          · exact spaced_of_due (probed.guarded index first shard firstBefore firstProbing)
              (probed.started index first firstBefore) due
        · omega

theorem elapse (probed : Probed retryAfter run) (duration : Nat)
    : Probed retryAfter { run with now := run.now + duration } := by
  refine probed.advance (Nat.le_add_right _ _)
    (fun _ search found => ⟨search, found, rfl, fun _ probing => probing⟩) probed.traced ?_
  rintro index search shard - - (held | elapsed | restarted | healthy)
  · exact .inl held
  · exact .inr (.inl (Nat.le_trans elapsed (Nat.le_add_right _ _)))
  · exact .inr (.inr (.inl restarted))
  · exact .inr (.inr (.inr healthy))

theorem perform (probed : Probed retryAfter run) (covered : Covered shardIds run)
    (distinct : shardIds.Nodup) {action} (permits : run.Permits retryAfter action)
    : Probed retryAfter (run.perform retryAfter action) := by
  cases action with
  | elapse duration => exact probed.elapse duration
  | start => exact probed.startSearch (covered.configured ▸ distinct)
  | pool index available => exact probed.takePool permits
  | collect index outcome => exact probed.collect covered distinct index outcome
  | finish index => exact probed.finish covered distinct permits

end Probed

/-! Runs -/

def after (retryAfter : Nat) (shards : List ShardInfo) (actions : List FanoutAction)
    : FanoutRun :=
  actions.foldl (fun run action => run.perform retryAfter action) (initial shards)

theorem covered_initial (shards : List ShardInfo)
    : Covered (shards.map (·.id)) (initial shards) :=
  ⟨rfl, by simp [initial]⟩

theorem probed_initial (retryAfter : Nat) (shards : List ShardInfo)
    : Probed retryAfter (initial shards) where
  started := by simp [initial]
  traced := by simp [initial, ShardRouter.new]
  guarded := by simp [initial]
  spaced := by simp [initial]

variable {shards : List ShardInfo}

theorem covered_after (retryAfter : Nat) (distinct : (shards.map (·.id)).Nodup)
    (actions : List FanoutAction)
    : Covered (shards.map (·.id)) (after retryAfter shards actions) :=
  List.foldlRecOn _ _ (covered_initial shards)
    fun _ covered action _ => covered.perform distinct retryAfter action

theorem probed_after {retryAfter : Nat} (distinct : (shards.map (·.id)).Nodup) {actions}
    (along : Along (fun run action => run.perform retryAfter action)
      (fun run action => run.Permits retryAfter action) (initial shards) actions)
    : Probed retryAfter (after retryAfter shards actions) := by
  have kept : ∀ (run : FanoutRun) (action : FanoutAction),
      Covered (shards.map (·.id)) run ∧ Probed retryAfter run → run.Permits retryAfter action →
        Covered (shards.map (·.id)) (run.perform retryAfter action)
          ∧ Probed retryAfter (run.perform retryAfter action) := by
    rintro run action ⟨covered, probed⟩ permits
    exact ⟨covered.perform distinct retryAfter action, probed.perform covered distinct permits⟩
  exact (along.invariant kept ⟨covered_initial shards, probed_initial retryAfter shards⟩).2

/-- Every completed search reports every shard once; no two probe an unhealthy shard within one
window if they get their pools and release no young claim of another.
Witness: both invariants are kept by every step.
-/
theorem fanout_covers_and_probes_once (retryAfter : Nat) (shards : List ShardInfo)
    (distinct : (shards.map (·.id)).Nodup)
    : (∀ actions, ∀ search ∈ (after retryAfter shards actions).searches, search.completed = true →
          (search.respondingShards ++ search.missingShards).Perm (shards.map (·.id)))
      ∧ ∀ actions, Along (fun run action => run.perform retryAfter action)
          (fun run action => run.Permits retryAfter action) (initial shards) actions →
        (∀ (index : Nat) (search : FanoutSearch),
          (after retryAfter shards actions).searches[index]? = some search →
            search.completed = true → ∀ shard claim,
              (after retryAfter shards actions).router.probesInFlight shard = some claim →
                claim.search ≠ index)
        ∧ ∀ (index other : Nat) (first second : FanoutSearch) (shard : String), index ≠ other →
          (after retryAfter shards actions).searches[index]? = some first →
            (after retryAfter shards actions).searches[other]? = some second →
              first.Probing shard → second.Probing shard →
                first.startedAt + retryAfter ≤ second.startedAt
                  ∨ second.startedAt + retryAfter ≤ first.startedAt := by
  refine ⟨?_, ?_⟩
  · intro actions search member completed
    obtain ⟨index, found⟩ := mem_iff_getElem?.mp member
    have accounted := (covered_after retryAfter distinct actions).accounted index search found
    obtain ⟨unpooled, pending⟩ := accounted.completed completed
    simpa [unpooled, pending] using accounted.once
  · intro actions along
    have probed := probed_after distinct along
    refine ⟨?_, ?_⟩
    · rintro index search found completed shard claim held rfl
      obtain ⟨owner, owned, running, -⟩ := probed.traced shard claim held
      cases found.symm.trans owned
      simp [completed] at running
    · intro index other first second shard differs atFirst atSecond firstProbing secondProbing
      rcases Nat.lt_or_gt_of_ne differs with before | behind
      · exact .inl (probed.spaced index other first second shard before atFirst atSecond
          firstProbing secondProbing)
      · exact .inr (probed.spaced other index second first shard behind atSecond atFirst
          secondProbing firstProbing)

def sampleShards : List ShardInfo := [⟨"a", true⟩, ⟨"b", true⟩]

/-- A first search finds shard `a` down. -/
def downRun : List FanoutAction :=
  [.start, .pool 0 true, .pool 0 true, .collect 0 .timedOut, .collect 0 .answered, .finish 0]

/-- After the window one search probes `a` while another holds it back. -/
def probeRun : List FanoutAction :=
  downRun ++ [.elapse 30, .start, .start, .pool 1 true, .pool 1 true, .pool 2 true,
    .collect 1 .answered, .collect 1 .answered, .finish 1, .collect 2 .answered, .finish 2]

/-- A search that holds the probed shard back reports it missing, and both leave no claim. -/
theorem probe_run_covered
    : (after 30 sampleShards probeRun).searches.map
          (fun search => (search.respondingShards, search.missingShards, search.completed))
        = [(["b"], ["a"], true), (["a", "b"], [], true), (["b"], ["a"], true)]
      ∧ ∀ (index : Nat) (search : FanoutSearch),
        (after 30 sampleShards probeRun).searches[index]? = some search →
          search.completed = true → ∀ shard claim,
            (after 30 sampleShards probeRun).router.probesInFlight shard = some claim →
              claim.search ≠ index :=
  ⟨by decide +kernel, ((fanout_covers_and_probes_once 30 sampleShards (by decide)).2 probeRun
      (by decide +kernel)).1⟩

def poollessRun : List FanoutAction :=
  downRun ++ [.elapse 30, .start, .pool 1 false, .pool 1 true, .collect 1 .answered, .finish 1]

/-- Search 0 waits for a pool while search 1 finds `a` down and search 2 probes it. -/
def releasingRun : List FanoutAction :=
  [.start, .pool 0 true, .start, .pool 1 true, .pool 1 true, .elapse 5, .collect 1 .timedOut,
    .collect 1 .answered, .finish 1, .elapse 30, .start, .pool 2 true, .pool 2 true, .elapse 1,
    .pool 0 true, .collect 0 (.status .invalidArgument), .collect 0 .answered, .finish 0,
    .elapse 1, .start]

/-- A claim is left without a pool, and a released claim of another lets a second probe start. -/
theorem stale_and_stolen_claims
    : ((after 30 sampleShards poollessRun).searches[1]?.map (·.completed) = some true
        ∧ (after 30 sampleShards poollessRun).router.probesInFlight "a" = some ⟨30, 1⟩)
      ∧ (after 30 sampleShards releasingRun).searches[2]?.map
            (fun search => (search.startedAt, decide (search.Probing "a"))) = some (35, true)
        ∧ (after 30 sampleShards releasingRun).searches[3]?.map
            (fun search => (search.startedAt, decide (search.Probing "a"))) = some (37, true)
        ∧ ⟨"a", false⟩ ∈ (after 30 sampleShards releasingRun).router.shards := by
  decide +kernel

end FanoutRun

end AkiDB.Coordinator
