import Mathlib.Order.Defs.Unbundled

/-!
Computations that change a state and may fail, and the rules by which what one does is read off
its steps.
-/

namespace Effects

variable {σ ε α β : Type}

/-- A computation over a state that may stop with an error; the state remains. -/
abbrev Effect (σ ε α : Type) : Type := ExceptT ε (StateM σ) α

/-- The result and the state after a computation. -/
def Effect.from (effect : Effect σ ε α) (state : σ) : Except ε α × σ :=
  effect.run.run state

/-- Stop if there is a fault, else change the state. -/
def attempt (fault : Option ε) (change : σ → σ) : Effect σ ε Unit :=
  match fault with
  | some error => throw error
  | none => modify change

@[simp]
theorem from_pure (value : α) (state : σ)
    : (pure value : Effect σ ε α).from state = (.ok value, state) := rfl

@[simp]
theorem from_throw (error : ε) (state : σ)
    : (throw error : Effect σ ε α).from state = (.error error, state) := rfl

@[simp]
theorem from_modify (change : σ → σ) (state : σ)
    : (modify change : Effect σ ε PUnit).from state = (.ok ⟨⟩, change state) := rfl

@[simp]
theorem from_get (state : σ) : (get : Effect σ ε σ).from state = (.ok state, state) := rfl

theorem from_bind (first : Effect σ ε α) (next : α → Effect σ ε β) (state : σ)
    : (first >>= next).from state
      = match first.from state with
        | (.ok value, after) => (next value).from after
        | (.error error, after) => (.error error, after) := by
  change StateT.bind first.run (ExceptT.bindCont next) state = _
  unfold StateT.bind Effect.from ExceptT.run StateT.run
  rcases first state with ⟨_ | _, _⟩ <;> rfl

variable {first : Effect σ ε α} {next : α → Effect σ ε β} {state : σ}

theorem from_bind_ok {between : σ} {value : α} (ran : first.from state = (.ok value, between))
    : (first >>= next).from state = (next value).from between := by
  rw [from_bind, ran]

theorem from_bind_error {between : σ} {error : ε} (ran : first.from state = (.error error, between))
    : (first >>= next).from state = (.error error, between) := by
  rw [from_bind, ran]

theorem from_tryCatch (first : Effect σ ε α) (handler : ε → Effect σ ε α) (state : σ)
    : (tryCatch first handler).from state
      = match first.from state with
        | (.ok value, between) => (.ok value, between)
        | (.error error, between) => (handler error).from between := by
  unfold Effect.from ExceptT.run StateT.run
  simp only [tryCatch, tryCatchThe, MonadExceptOf.tryCatch, ExceptT.tryCatch, ExceptT.mk, bind,
    StateT.bind]
  rcases first state with ⟨_ | _, _⟩ <;> rfl

theorem bind_eq_ok {after : σ} {result : β}
    : (first >>= next).from state = (.ok result, after)
      ↔ ∃ value between, first.from state = (.ok value, between)
        ∧ (next value).from between = (.ok result, after) := by
  rw [from_bind]
  rcases first.from state with ⟨error | value, between⟩
  · simp
  · simp [and_assoc]

/-- The state before and the state after are related, with an error or without. -/
def Keeps (related : σ → σ → Prop) (effect : Effect σ ε α) : Prop :=
  ∀ state, related state (effect.from state).2

namespace Keeps

variable {related : σ → σ → Prop}

theorem after {effect} {state last : σ} {result : Except ε α}
    (ran : effect.from state = (result, last)) (keeps : Keeps related effect)
    : related state last := by
  have kept := keeps state
  rwa [ran] at kept

theorem pure [Std.Refl related] (value : α)
    : Keeps related (pure value : Effect σ ε α) :=
  fun state => Std.Refl.refl state

theorem andThen [IsTrans σ related] {first} {next : α → Effect σ ε β} {state : σ}
    (before : related state (first.from state).2) (after : ∀ value, Keeps related (next value))
    : related state ((first >>= next).from state).2 := by
  rw [from_bind]
  revert before
  rcases first.from state with ⟨_ | value, between⟩
  · exact id
  · exact fun kept => IsTrans.trans _ _ _ kept (after value between)

theorem bind [IsTrans σ related] {first} {next : α → Effect σ ε β} (before : Keeps related first)
    (after : ∀ value, Keeps related (next value))
    : Keeps related (first >>= next) :=
  fun state => Keeps.andThen (before state) after

end Keeps

/-- The states before and after are related, and every error that stops it is allowed. -/
def Behaves (related : σ → σ → Prop) (allowed : ε → Prop) (effect : Effect σ ε α) : Prop :=
  ∀ state, related state (effect.from state).2
    ∧ ∀ error, (effect.from state).1 = .error error → allowed error

namespace Behaves

variable {related : σ → σ → Prop} {allowed : ε → Prop}

theorem pure [Std.Refl related] (value : α)
    : Behaves related allowed (pure value : Effect σ ε α) :=
  fun state => ⟨Std.Refl.refl state, by simp⟩

theorem throw [Std.Refl related] {error : ε} (fine : allowed error)
    : Behaves related allowed (throw error : Effect σ ε α) := by
  refine fun state => ⟨Std.Refl.refl state, fun other stopped => ?_⟩
  cases stopped
  exact fine

theorem bind [IsTrans σ related] {first} {next : α → Effect σ ε β}
    (before : Behaves related allowed first)
    (after : ∀ value, Behaves related allowed (next value))
    : Behaves related allowed (first >>= next) := by
  intro state
  have kept := before state
  rw [from_bind]
  revert kept
  rcases first.from state with ⟨_ | value, between⟩
  · exact fun kept => ⟨kept.1, fun _ same => kept.2 _ (congrArg _ (Except.error.inj same))⟩
  · exact fun kept => ⟨IsTrans.trans _ _ _ kept.1 (after value between).1,
      (after value between).2⟩

end Behaves

end Effects
