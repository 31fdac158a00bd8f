import AkiDB.Library.Effects

/-!
Programs whose outside calls follow a script of successes, failures and crashes, with rules of
pre- and postconditions.
-/

namespace Scripts
open Effects Prod

variable {σ ε α β : Type}

inductive Outcome where
  | succeeds
  | fails (applied : Bool)
  | crashes (applied : Bool)
deriving DecidableEq

/-- A state with the outcomes of the calls to come, each with a number to answer. -/
structure Scripted (σ : Type) where
  state : σ
  script : List (Outcome × Nat)

inductive Stop (ε : Type) where
  | failed (error : ε)
  | crashed

abbrev ScriptM (σ ε α : Type) : Type := Effect (Scripted σ) (Stop ε) α

/-- A call to the outside, with its effect and the error of its failure. -/
def external (error : ε) (apply : σ → σ) : ScriptM σ ε Nat := do
  match (← get).script with
  | [] => throw .crashed
  | (.succeeds, answer) :: rest =>
    modify fun world => ⟨apply world.state, rest⟩
    return answer
  | (.fails applied, _) :: rest =>
    modify fun world => ⟨if applied then apply world.state else world.state, rest⟩
    throw (.failed error)
  | (.crashes applied, _) :: rest =>
    modify fun world => ⟨if applied then apply world.state else world.state, rest⟩
    throw .crashed

/-- A change of the program's own state. -/
def update (change : σ → σ) : ScriptM σ ε Unit :=
  modify fun world => { world with state := change world.state }

def read : ScriptM σ ε σ := do
  return (← get).state

/-- From the precondition the program ends in the postcondition, or stops in the one for stops. -/
def Ensures (pre : σ → Prop) (program : ScriptM σ ε α) (post : α → σ → Prop)
    (stopped : σ → Prop) : Prop :=
  ∀ world, pre world.state →
    (∀ value after, program.from world = (.ok value, after) → post value after.state)
    ∧ ∀ stop after, program.from world = (.error stop, after) → stopped after.state

namespace Ensures

variable {pre : σ → Prop} {post : α → σ → Prop} {stopped : σ → Prop}

theorem pure {value : α} (holds : ∀ state, pre state → post value state)
    : Ensures pre (pure value : ScriptM σ ε α) post stopped := by
  intro world before
  refine ⟨fun other after ran => ?_, fun stop after ran => ?_⟩
  · obtain ⟨same, rfl⟩ := mk.inj ran
    exact Except.ok.inj same ▸ holds _ before
  · cases (mk.inj ran).1

theorem throw {stop} (holds : ∀ state, pre state → stopped state)
    : Ensures pre (throw stop : ScriptM σ ε α) post stopped := by
  intro world before
  refine ⟨fun value after ran => ?_, fun other after ran => ?_⟩
  · cases (mk.inj ran).1
  · obtain ⟨_, rfl⟩ := mk.inj ran
    exact holds _ before

theorem update {change : σ → σ} {post : Unit → σ → Prop}
    (holds : ∀ state, pre state → post () (change state))
    : Ensures pre (update change : ScriptM σ ε Unit) post stopped := by
  intro world before
  refine ⟨fun value after ran => ?_, fun stop after ran => ?_⟩
  · obtain ⟨_, rfl⟩ := mk.inj ran
    exact holds _ before
  · cases (mk.inj ran).1

theorem bind {first} {next : α → ScriptM σ ε β} {middle : α → σ → Prop} {post : β → σ → Prop}
    (before : Ensures pre first middle stopped)
    (after : ∀ value, Ensures (middle value) (next value) post stopped)
    : Ensures pre (first >>= next) post stopped := by
  intro world starts
  obtain ⟨ends, stops⟩ := before world starts
  rw [from_bind]
  cases ran : first.from world with
  | mk result between =>
    cases result with
    | ok value => exact after value between (ends value between ran)
    | error stop =>
      refine ⟨fun value last ended => ?_, fun other last ended => ?_⟩
      · cases (mk.inj ended).1
      · obtain ⟨_, rfl⟩ := mk.inj ended
        exact stops stop between ran

theorem external {error : ε} {apply : σ → σ} {post : Nat → σ → Prop}
    (unapplied : ∀ state, pre state → stopped state)
    (applied : ∀ state, pre state → stopped (apply state))
    (done : ∀ answer state, pre state → post answer (apply state))
    : Ensures pre (external error apply) post stopped := by
  have halts {flag : Bool} {state : σ} (starts : pre state)
      : stopped (if flag then apply state else state) := by
    cases flag with
    | true => exact applied state starts
    | false => exact unapplied state starts
  intro world starts
  unfold Scripts.external
  rw [from_bind_ok (from_get world)]
  split
  · exact throw unapplied world starts
  · refine ⟨fun value after ran => ?_, fun stop after ran => ?_⟩
    · obtain ⟨same, rfl⟩ := mk.inj ran
      exact done _ _ starts
    · cases (mk.inj ran).1
  all_goals
    refine ⟨fun value after ran => ?_, fun stop after ran => ?_⟩
    · cases (mk.inj ran).1
    · obtain ⟨_, rfl⟩ := mk.inj ran
      exact halts starts

theorem read {next : σ → ScriptM σ ε α}
    (after : ∀ current, Ensures (fun state => state = current ∧ pre state) (next current) post
      stopped)
    : Ensures pre (read >>= next) post stopped := by
  intro world starts
  rw [from_bind_ok (show (Scripts.read : ScriptM σ ε σ).from world = (.ok world.state, world)
    from rfl)]
  exact after world.state world ⟨rfl, starts⟩

variable {program : ScriptM σ ε α}

theorem weaken {stronger : σ → Prop} (ensures : Ensures pre program post stopped)
    (implies : ∀ state, stronger state → pre state)
    : Ensures stronger program post stopped :=
  fun world starts => ensures world (implies _ starts)

theorem tryCatch {handler : Stop ε → ScriptM σ ε α} {between : σ → Prop}
    (ensures : Ensures pre program post between)
    (handled : ∀ stop, Ensures between (handler stop) post stopped)
    : Ensures pre (tryCatch program handler) post stopped := by
  intro world starts
  obtain ⟨ends, stops⟩ := ensures world starts
  rw [from_tryCatch]
  cases ran : program.from world with
  | mk result after =>
    cases result with
    | ok value =>
      refine ⟨fun other last ended => ?_, fun stop last ended => ?_⟩
      · obtain ⟨same, rfl⟩ := mk.inj ended
        exact Except.ok.inj same ▸ ends value after ran
      · cases (mk.inj ended).1
    | error stop => exact handled stop after (stops stop after ran)

end Ensures

def Working (script : List (Outcome × Nat)) : Prop :=
  ∀ entry ∈ script, entry.1 = .succeeds

/-- With so many calls that all succeed, the program ends without error. -/
def Completes (calls : Nat) (pre : σ → Prop) (program : ScriptM σ ε α) (post : α → σ → Prop)
    : Prop :=
  ∀ world, pre world.state → Working world.script → calls ≤ world.script.length →
    ∃ value after, program.from world = (.ok value, after) ∧ post value after.state
      ∧ Working after.script ∧ world.script.length ≤ after.script.length + calls

namespace Completes

variable {pre : σ → Prop} {post : α → σ → Prop} {calls : Nat}

theorem pure {value : α} (holds : ∀ state, pre state → post value state)
    : Completes calls pre (pure value : ScriptM σ ε α) post :=
  fun world starts working _ => ⟨value, world, rfl, holds _ starts, working, by omega⟩

theorem update {change : σ → σ} {post : Unit → σ → Prop}
    (holds : ∀ state, pre state → post () (change state))
    : Completes calls pre (update change : ScriptM σ ε Unit) post :=
  fun world starts working _ =>
    ⟨(), { world with state := change world.state }, rfl, holds _ starts, working, by simp⟩

theorem bind {first} {next : α → ScriptM σ ε β} {middle : α → σ → Prop} {post : β → σ → Prop}
    (earlier later : Nat) (enough : earlier + later ≤ calls)
    (before : Completes earlier pre first middle)
    (after : ∀ value, Completes later (middle value) (next value) post)
    : Completes calls pre (first >>= next) post := by
  intro world starts working many
  obtain ⟨value, between, ran, holds, still, left⟩ := before world starts working (by omega)
  obtain ⟨result, last, ended, ends, works, rest⟩ := after value between holds still (by omega)
  exact ⟨result, last, (from_bind_ok ran).trans ended, ends, works, by omega⟩

variable {apply : σ → σ}

theorem external {error : ε} {apply : σ → σ} {post : Nat → σ → Prop}
    (done : ∀ answer state, pre state → post answer (apply state))
    : Completes 1 pre (external error apply) post := by
  rintro ⟨state, script⟩ starts working enough
  cases script with
  | nil => cases enough
  | cons entry rest =>
    obtain ⟨outcome, answer⟩ := entry
    obtain ⟨first, others⟩ := List.forall_mem_cons.mp working
    cases first
    exact ⟨answer, ⟨apply state, rest⟩, rfl, done answer state starts, others, by simp⟩

theorem call {error : ε} (kept : ∀ state, pre state → pre (apply state))
    : Completes 1 pre (Scripts.external error apply) (fun _ => pre) :=
  external fun _ => kept

theorem read {next : σ → ScriptM σ ε α}
    (after : ∀ current, Completes calls (fun state => state = current ∧ pre state)
      (next current) post)
    : Completes calls pre (read >>= next) post := by
  intro world starts working enough
  rw [from_bind_ok (show (Scripts.read : ScriptM σ ε σ).from world = (.ok world.state, world)
    from rfl)]
  exact after world.state world ⟨rfl, starts⟩ working enough

variable {program : ScriptM σ ε α}

theorem weaken {stronger : σ → Prop} {fewer : Nat} (completes : Completes fewer pre program post)
    (implies : ∀ state, stronger state → pre state) (enough : fewer ≤ calls)
    : Completes calls stronger program post := by
  intro world starts working many
  obtain ⟨value, after, ran, holds, works, left⟩ :=
    completes world (implies _ starts) working (by omega)
  exact ⟨value, after, ran, holds, works, by omega⟩

theorem tryCatch {handler : Stop ε → ScriptM σ ε α} (completes : Completes calls pre program post)
    : Completes calls pre (tryCatch program handler) post := by
  intro world starts working enough
  obtain ⟨value, after, ran, holds⟩ := completes world starts working enough
  exact ⟨value, after, by rw [from_tryCatch, ran], holds⟩

end Completes

end Scripts
