import AkiDB.Library.Runs
import Mathlib.Tactic.Common

/-! Machines that count failures in their failed states, and how many retries a run is granted. -/

namespace Retries
open Runs

/-- A machine with a saturating failure count. Retries are granted only below the limit. -/
structure Machine (State Work Failure : Type) where
  count : State → Option Nat
  sound : State → Prop
  cap : Nat
  maxRetries : Nat
  work : Work → State → State
  fail : Failure → State → State
  reset : Nat → State → State
  shouldRetry : Nat → State → Bool
  maxRetries_le : maxRetries ≤ cap
  sound_work : ∀ work_ state, sound state → sound (work work_ state)
  sound_fail : ∀ failure state, sound state → sound (fail failure state)
  sound_reset : ∀ now state, sound state → sound (reset now state)
  count_work : ∀ work_ state, sound state →
    count (work work_ state) = none ∨ count (work work_ state) = count state
  count_fail : ∀ failure state, sound state →
    count (fail failure state) = some ((count state).elim 0 fun n => min (n + 1) cap)
  count_reset : ∀ now state, sound state → count (reset now state) = none
  below_limit : ∀ now state, shouldRetry now state = true →
    ∃ n, count state = some n ∧ n < maxRetries

/-- A call of the machine. A reset asks for a retry at a time of the clock. -/
inductive Call (Work Failure : Type) where
  | work (work_ : Work)
  | fail (failure : Failure)
  | reset (now : Nat)
  deriving DecidableEq

/-- A state with the failures of the run so far and the retries it was granted. -/
structure Tally (State : Type) where
  state : State
  failures : Nat
  granted : Nat

variable {State Work Failure : Type} (machine : Machine State Work Failure)

namespace Machine

variable (tally : Tally State)

def step : Call Work Failure → Tally State
  | .work work_ => { tally with state := machine.work work_ tally.state }
  | .fail failure =>
    { tally with
      state := machine.fail failure tally.state
      failures := tally.failures + 1 }
  | .reset now =>
    { tally with
      state := machine.reset now tally.state
      granted := tally.granted + if machine.shouldRetry now tally.state then 1 else 0 }

/-- A failure finds the count of the failures before it. -/
def Counted : Call Work Failure → Prop
  | .fail _ => tally.failures = 0 ∨ machine.count tally.state ≠ none
  | _ => True

instance (tally : Tally State) (call : Call Work Failure)
    : Decidable (machine.Counted tally call) := by
  cases call <;> unfold Counted <;> infer_instance

/-- Each granted retry has a failure of its own. -/
structure Paid : Prop where
  sound : machine.sound tally.state
  granted : tally.granted ≤ tally.failures
  spare : machine.count tally.state ≠ none → tally.granted < tally.failures

/-- A failed state counts all failures but the first, and no retry was granted before it. -/
structure Exact : Prop where
  paid : machine.Paid tally
  counted : ∀ n, machine.count tally.state = some n →
    n = min (tally.failures - 1) machine.cap ∧ tally.granted = 0
  limited : tally.granted ≤ machine.maxRetries

variable {machine} {tally}

/-- A retry is granted in failed states only, and leaves them. -/
theorem Paid.step (paid : machine.Paid tally) (call : Call Work Failure)
    : machine.Paid (machine.step tally call) := by
  obtain ⟨sound, granted, spare⟩ := paid
  cases call with
  | work work_ =>
    refine ⟨machine.sound_work _ _ sound, granted, fun failed => ?_⟩
    rcases machine.count_work work_ tally.state sound with left | same
    · exact absurd left failed
    · exact spare fun none => failed (same.trans none)
  | fail failure =>
    exact ⟨machine.sound_fail _ _ sound, Nat.le_succ_of_le granted,
      fun _ => Nat.lt_succ_of_le granted⟩
  | reset now =>
    refine ⟨machine.sound_reset _ _ sound, ?_,
      fun failed => absurd (machine.count_reset now tally.state sound) failed⟩
    simp only [Machine.step]
    split
    · next allowed =>
        obtain ⟨n, present, -⟩ := machine.below_limit now tally.state allowed
        exact spare (by simp [present])
    · exact granted

/-- A counted failure keeps the count exact. -/
theorem Exact.step (exact_ : machine.Exact tally) {call} (permitted : machine.Counted tally call)
    : machine.Exact (machine.step tally call) := by
  obtain ⟨paid, counted, limited⟩ := exact_
  have sound := paid.sound
  cases call with
  | work work_ =>
    refine ⟨paid.step _, fun n found => ?_, limited⟩
    rcases machine.count_work work_ tally.state sound with left | same
    · cases left.symm.trans found
    · exact counted n (same.symm.trans found)
  | fail failure =>
    refine ⟨paid.step _, fun n present => ?_, limited⟩
    obtain rfl := Option.some.inj ((machine.count_fail failure _ sound).symm.trans present)
    change _ = min (tally.failures + 1 - 1) machine.cap ∧ tally.granted = 0
    have granted := paid.granted
    rcases counting : machine.count tally.state with _ | earlier
    · have first := permitted.resolve_right (by simp [counting])
      simp only [Option.elim_none]
      omega
    · have here := counted earlier counting
      have spare := paid.spare (by simp [counting])
      simp only [Option.elim_some]
      omega
  | reset now =>
    refine ⟨paid.step _, fun n present => ?_, ?_⟩
    · cases (machine.count_reset now _ sound).symm.trans present
    · simp only [Machine.step]
      split
      · next allowed =>
          obtain ⟨n, present, below⟩ := machine.below_limit now tally.state allowed
          have here := counted n present
          omega
      · exact limited

/-- Where every failure is counted or failures are few, the retries granted keep to the limit. -/
theorem retries_limited {start : State} (sound : machine.sound start)
    (fresh : machine.count start = none) {calls}
    (permitted : Along machine.step machine.Counted ⟨start, 0, 0⟩ calls
      ∨ (calls.foldl machine.step ⟨start, 0, 0⟩).failures ≤ machine.maxRetries)
    : let after := calls.foldl machine.step ⟨start, 0, 0⟩
      machine.sound after.state ∧ after.granted ≤ machine.maxRetries
        ∧ ∀ n, machine.count after.state = some n → machine.maxRetries < after.failures →
          machine.maxRetries ≤ n := by
  have initially : machine.Paid ⟨start, 0, 0⟩ :=
    ⟨sound, Nat.le_refl _, fun failed => absurd fresh failed⟩
  rcases permitted with along | few
  · have holds := along.invariant (fun _ _ kept counted => Exact.step kept counted)
      ⟨initially, fun n found => absurd (fresh.symm.trans found) (by simp), Nat.zero_le _⟩
    have capped := machine.maxRetries_le
    refine ⟨holds.paid.sound, holds.limited, fun n found many => ?_⟩
    obtain ⟨rfl, -⟩ := holds.counted n found
    omega
  · have paid := List.foldlRecOn calls machine.step initially fun _ kept call _ => kept.step call
    refine ⟨paid.sound, Nat.le_trans paid.granted few, fun n _ many => ?_⟩
    exact absurd few (Nat.not_le_of_lt many)

end Machine

end Retries
