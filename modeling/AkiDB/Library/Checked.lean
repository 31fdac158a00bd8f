import Mathlib.Data.List.Forall2
import Mathlib.Data.List.ReduceOption
import Mathlib.Tactic.Common

/-! Early-return validation in `Except`, and the inversion rules of chains of checks. -/

namespace Checked
open List

variable {ε ε' α β : Type}

/-- Fail with `error` when the condition holds. -/
def rejectIf (bad : Prop) [Decidable bad] (error : ε) : Except ε Unit :=
  if bad then .error error else .ok ()

/-- The value of an option, or `error` when it is absent. -/
def okOr (value : Option α) (error : ε) : Except ε α :=
  match value with
  | some found => .ok found
  | none => .error error

/-- Check every value, stopping at the first failure. -/
def checkEach (check : α → Except ε Unit) : List α → Except ε Unit
  | [] => .ok ()
  | value :: rest => do
    check value
    checkEach check rest

/-- Collect what a fallible choice takes from each value, stopping at the first failure. -/
def collectEach (choose : α → Except ε (Option β)) : List α → Except ε (List β)
  | [] => .ok []
  | value :: rest => do
    let chosen ← choose value
    let others ← collectEach choose rest
    pure (chosen.toList ++ others)

/-- Carry a state through every value, stopping at the first failure. -/
def foldEach (step : β → α → Except ε β) : β → List α → Except ε β
  | state, [] => .ok state
  | state, value :: rest => do
    let next ← step state value
    foldEach step next rest

/-- Check every value, and before going on that it did not occur earlier. -/
def checkDistinct [DecidableEq α] (check : α → Except ε Unit) (duplicate : ε)
    (values : List α) : Except ε Unit :=
  go values []
where
  go : List α → List α → Except ε Unit
    | [], _ => .ok ()
    | value :: rest, seen => do
      check value
      rejectIf (value ∈ seen) duplicate
      go rest (value :: seen)

variable {value : α} {first : Except ε α} {result : β} {error : ε} {values : List α}
  {results : List β}

variable {next : α → Except ε β}

theorem ok_bind : (Except.ok value >>= next) = next value :=
  rfl

theorem bind_eq_ok
    : (first >>= next) = .ok result
      ↔ ∃ value, first = .ok value ∧ next value = .ok result := by
  cases first <;> simp [bind, Except.bind]

theorem seq_eq_ok {first : Except ε PUnit} {next : Except ε β}
    : (first >>= fun _ => next) = .ok result
      ↔ first = .ok () ∧ next = .ok result := by
  cases first <;> simp [bind, Except.bind]

theorem exists_unit {property : Unit → Prop}
    : (∃ value, property value) ↔ property () :=
  ⟨fun ⟨(), holds⟩ => holds, fun holds => ⟨(), holds⟩⟩

theorem pure_eq_ok {result : α} : (pure value : Except ε α) = .ok result ↔ value = result := by
  simp [pure, Except.pure]

def errorOf : Except ε α → Option ε
  | .error error => some error
  | .ok _ => none

theorem errorOf_eq_some {result : Except ε α}
    : errorOf result = some error ↔ result = .error error := by
  cases result <;> simp [errorOf]

@[simp]
theorem rejectIf_eq_ok {bad} [Decidable bad] : rejectIf bad error = .ok () ↔ ¬bad := by
  unfold rejectIf
  split <;> simp [*]

@[simp]
theorem okOr_eq_ok {value} {result : α}
    : okOr value error = .ok result ↔ value = some result := by
  cases value <;> simp [okOr]

@[simp]
theorem mapError_eq_ok {convert : ε → ε'} {result : α}
    : first.mapError convert = .ok result ↔ first = .ok result := by
  cases first <;> simp [Except.mapError]

@[simp]
theorem map_eq_ok {convert : α → β}
    : first.map convert = .ok result ↔ ∃ value, first = .ok value ∧ convert value = result := by
  cases first <;> simp [Except.map]

theorem checkEach_eq_ok {check : α → Except ε Unit}
    : checkEach check values = .ok () ↔ ∀ value ∈ values, check value = .ok () := by
  induction values with
  | nil => simp [checkEach]
  | cons value rest ih => simp [checkEach, seq_eq_ok, ih]

variable {related : α → β → Prop} {right : List β}

theorem partner_of_mem {left} (pairs : List.Forall₂ related left right) (member : value ∈ left)
    : ∃ other ∈ right, related value other := by
  induction pairs with
  | nil => simp at member
  | @cons _ other _ _ here _ ih =>
    rcases mem_cons.mp member with rfl | later
    · exact ⟨other, mem_cons_self, here⟩
    · obtain ⟨partner, inRest, there⟩ := ih later
      exact ⟨partner, mem_cons_of_mem _ inRest, there⟩

theorem mem_of_partner {left} (pairs : List.Forall₂ related left right) {value : β}
    (member : value ∈ right)
    : ∃ other ∈ left, related other value :=
  partner_of_mem (List.Forall₂.flip pairs) member

variable {step : α → Except ε β}

theorem mapM_eq_ok
    : values.mapM step = .ok results
      ↔ List.Forall₂ (fun value result => step value = .ok result) values results := by
  induction values generalizing results with
  | nil => simp [pure, Except.pure, eq_comm]
  | cons value rest ih =>
    simp only [mapM_cons, bind_eq_ok, pure_eq_ok, ih, forall₂_cons_left_iff]
    constructor
    · rintro ⟨first, stepped, others, looped, rfl⟩
      exact ⟨first, others, stepped, looped, rfl⟩
    · rintro ⟨first, others, stepped, looped, rfl⟩
      exact ⟨first, stepped, others, looped, rfl⟩

theorem exists_mapM_eq_ok (each : ∀ value ∈ values, ∃ result, step value = .ok result)
    : ∃ results, values.mapM step = .ok results := by
  induction values with
  | nil => exact ⟨[], rfl⟩
  | cons value rest ih =>
    obtain ⟨first, stepped⟩ := each value mem_cons_self
    obtain ⟨others, looped⟩ := ih fun later member => each later (mem_cons_of_mem _ member)
    refine ⟨first :: others, mapM_eq_ok.mpr (.cons stepped (mapM_eq_ok.mp looped))⟩

variable {choose : α → Except ε (Option β)}

theorem collectEach_eq_ok
    : collectEach choose values = .ok results
      ↔ ∃ chosen, List.Forall₂ (fun value choice => choose value = .ok choice) values chosen
          ∧ results = chosen.reduceOption := by
  induction values generalizing results with
  | nil =>
    simp only [collectEach, forall₂_nil_left_iff, exists_eq_left, Except.ok.injEq]
    exact eq_comm
  | cons value rest ih =>
    simp only [collectEach, bind_eq_ok, pure_eq_ok, ih]
    constructor
    · rintro ⟨choice, chose, _, ⟨others, looped, rfl⟩, rfl⟩
      refine ⟨choice :: others, .cons chose looped, ?_⟩
      cases choice <;> simp [List.reduceOption]
    · rintro ⟨chosen, pairs, rfl⟩
      obtain ⟨choice, others, chose, looped, rfl⟩ := forall₂_cons_left_iff.mp pairs
      refine ⟨choice, chose, _, ⟨others, looped, rfl⟩, ?_⟩
      cases choice <;> simp [List.reduceOption]

/-- What a loop that collects choices found. -/
theorem mem_of_collectEach (collected : collectEach choose values = .ok results)
    : result ∈ results ↔ ∃ value ∈ values, choose value = .ok (some result) := by
  obtain ⟨chosen, pairs, rfl⟩ := collectEach_eq_ok.mp collected
  clear collected
  rw [reduceOption_mem_iff]
  induction pairs with
  | nil => simp
  | @cons value choice _ _ chose _ ih =>
    simp only [mem_cons, ih, exists_eq_or_imp, chose, Except.ok.injEq]
    exact or_congr_left eq_comm

theorem collectEach_of_ok (choice : α → Option β)
    (each : ∀ value ∈ values, choose value = .ok (choice value))
    : collectEach choose values = .ok (values.filterMap choice) := by
  induction values with
  | nil => rfl
  | cons value rest ih =>
    rw [forall_mem_cons] at each
    rw [collectEach, each.1, ih each.2, filterMap_cons]
    cases choice value <;> rfl

/-- The computation never fails with a forbidden error. -/
def Avoids (forbidden : ε → Prop) (result : Except ε α) : Prop :=
  ∀ error, result = .error error → ¬forbidden error

namespace Avoids

variable {forbidden : ε → Prop}

theorem of_ok (value : α) : Avoids forbidden (.ok value) := nofun

variable {error : ε} {first : Except ε α}

theorem of_error (allowed : ¬forbidden error) : Avoids forbidden (.error error : Except ε α) := by
  intro found same
  cases same
  exact allowed

variable {next : α → Except ε β}

theorem bind_iff
    : Avoids forbidden (first >>= next)
      ↔ Avoids forbidden first
        ∧ ∀ value, first = .ok value → Avoids forbidden (next value) := by
  cases first with
  | error error =>
    have failed : (Except.error error >>= next) = .error error := rfl
    simp [failed, Avoids]
  | ok value => simp [ok_bind, of_ok]

theorem bind (head : Avoids forbidden first)
    (tail : ∀ value, first = .ok value → Avoids forbidden (next value))
    : Avoids forbidden (first >>= next) :=
  bind_iff.mpr ⟨head, tail⟩

theorem of_rejectIf {bad} [Decidable bad] (allowed : bad → ¬forbidden error)
    : Avoids forbidden (rejectIf bad error) := by
  unfold rejectIf
  split
  · next holds => exact of_error (allowed holds)
  · exact of_ok ()

theorem passed {bad} [Decidable bad] {next : Unit → Except ε β} (allowed : ¬forbidden error)
    (tail : ¬bad → Avoids forbidden (next ()))
    : Avoids forbidden (rejectIf bad error >>= next) :=
  .bind (of_rejectIf fun _ => allowed) fun _ isOk => tail (rejectIf_eq_ok.mp isOk)

theorem map_iff {convert : α → β}
    : Avoids forbidden (first.map convert) ↔ Avoids forbidden first := by
  cases first <;> simp [Avoids, Except.map]

theorem map (head : Avoids forbidden first) (convert : α → β)
    : Avoids forbidden (first.map convert) :=
  map_iff.mpr head

end Avoids

end Checked
