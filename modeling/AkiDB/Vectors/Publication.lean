import Mathlib.Data.List.Basic

/-!
The publication of a snapshot: the published one is moved aside, and a load looks at its place
only.
-/

namespace AkiDB.Vectors.Publication

/-- A directory with all files of a snapshot, or with some of them. -/
inductive SnapshotDir (Snapshot : Type) where
  | complete (snapshot : Snapshot)
  | broken
deriving DecidableEq

structure SnapshotPlaces (Snapshot : Type) where
  destination : Option (SnapshotDir Snapshot)
  backup : Option (SnapshotDir Snapshot)
  staging : Option (SnapshotDir Snapshot)
deriving DecidableEq

inductive FileOutcome where
  | succeeds | fails | crashes
deriving DecidableEq

/-- The outcomes of a save: of staging, of publishing, and of the removal of what was staged. -/
structure SaveOutcomes (Snapshot : Type) where
  stage : List FileOutcome
  removeBackup : FileOutcome
  moveAside : FileOutcome
  publish : FileOutcome
  restore : FileOutcome
  removeOld : FileOutcome
  dropStaged : FileOutcome
  left : Option (SnapshotDir Snapshot)

variable {Snapshot : Type}

/-- What stands at a place after its removal. -/
def removed (left : Option (SnapshotDir Snapshot)) (outcome : FileOutcome)
    : Option (SnapshotDir Snapshot) :=
  if outcome = .succeeds then none else left

def SaveOutcomes.failed (outcomes : SaveOutcomes Snapshot) (places : SnapshotPlaces Snapshot)
    : SnapshotPlaces Snapshot :=
  { places with staging := removed outcomes.left outcomes.dropStaged }

/-- The last steps: a failed publication puts back what was moved aside. -/
def publishStaged (outcomes : SaveOutcomes Snapshot) (places : SnapshotPlaces Snapshot)
    : SnapshotPlaces Snapshot :=
  match outcomes.publish with
  | .succeeds =>
    { destination := places.staging
      backup := if places.backup.isSome then removed outcomes.left outcomes.removeOld else none
      staging := none }
  | .fails =>
    if places.backup.isSome then
      match outcomes.restore with
      | .succeeds => outcomes.failed { places with destination := places.backup, backup := none }
      | .fails => outcomes.failed places
      | .crashes => places
    else outcomes.failed places
  | .crashes => places

def moveAside (outcomes : SaveOutcomes Snapshot) (places : SnapshotPlaces Snapshot)
    : SnapshotPlaces Snapshot :=
  if places.destination.isSome then
    match outcomes.moveAside with
    | .succeeds =>
      publishStaged outcomes { places with destination := none, backup := places.destination }
    | .fails => outcomes.failed places
    | .crashes => places
  else publishStaged outcomes places

def publishDirectory (outcomes : SaveOutcomes Snapshot) (places : SnapshotPlaces Snapshot)
    : SnapshotPlaces Snapshot :=
  if places.backup.isSome then
    match outcomes.removeBackup with
    | .succeeds => moveAside outcomes { places with backup := none }
    | .fails => outcomes.failed { places with backup := outcomes.left }
    | .crashes => { places with backup := outcomes.left }
  else moveAside outcomes places

def save (outcomes : SaveOutcomes Snapshot) (snapshot : Snapshot)
    (places : SnapshotPlaces Snapshot) : SnapshotPlaces Snapshot :=
  match outcomes.stage.find? (· ≠ .succeeds) with
  | none => publishDirectory outcomes { places with staging := some (.complete snapshot) }
  | some .fails => outcomes.failed places
  | some _ => { places with staging := outcomes.left }

/-- The snapshot that a load finds. -/
def load (places : SnapshotPlaces Snapshot) : Option Snapshot :=
  match places.destination with
  | some (.complete snapshot) => some snapshot
  | _ => none

/-- Neither the staged directory nor the one moved aside comes to the published place. -/
def SaveOutcomes.LeavesAside (outcomes : SaveOutcomes Snapshot) : Prop :=
  outcomes.publish = .crashes ∨ outcomes.publish = .fails ∧ outcomes.restore ≠ .succeeds

/-- The save moves the published snapshot aside, and stops before another one is in its place. -/
def SaveOutcomes.StopsAside (outcomes : SaveOutcomes Snapshot) (places : SnapshotPlaces Snapshot)
    : Prop :=
  (∀ outcome ∈ outcomes.stage, outcome = .succeeds)
    ∧ (places.backup.isSome → outcomes.removeBackup = .succeeds)
    ∧ outcomes.moveAside = .succeeds
    ∧ outcomes.LeavesAside

/-- The places show the old or the new snapshot if the save did not stop, and else none. -/
def SnapshotPlaces.Shows (places : SnapshotPlaces Snapshot) (old new : Snapshot) (stopped : Prop)
    : Prop :=
  (load places = some old ∨ load places = some new ↔ ¬stopped)
    ∧ (stopped → load places = none ∧ places.backup = some (.complete old))

theorem SnapshotPlaces.shows_old {places : SnapshotPlaces Snapshot} {old : Snapshot}
    (new : Snapshot) {stopped : Prop} (kept : places.destination = some (.complete old))
    (notStopped : ¬stopped)
    : places.Shows old new stopped := by
  have found : load places = some old := by
    rw [load, kept]
  exact ⟨iff_of_true (Or.inl found) notStopped, fun holds => absurd holds notStopped⟩

variable (outcomes : SaveOutcomes Snapshot)

theorem publishStaged_shows (old new : Snapshot)
    : (publishStaged outcomes ⟨none, some (.complete old), some (.complete new)⟩).Shows old new
      outcomes.LeavesAside := by
  unfold publishStaged SaveOutcomes.LeavesAside
  cases outcomes.publish with
  | succeeds => simp [SnapshotPlaces.Shows, load]
  | crashes => simp [SnapshotPlaces.Shows, load]
  | fails =>
    cases outcomes.restore <;> simp [SnapshotPlaces.Shows, load, SaveOutcomes.failed]

theorem moveAside_shows (old new : Snapshot)
    : (moveAside outcomes ⟨some (.complete old), none, some (.complete new)⟩).Shows old new
      (outcomes.moveAside = .succeeds ∧ outcomes.LeavesAside) := by
  unfold moveAside
  cases moved : outcomes.moveAside with
  | succeeds => simpa using publishStaged_shows outcomes old new
  | fails => exact SnapshotPlaces.shows_old new rfl (by simp)
  | crashes => exact SnapshotPlaces.shows_old new rfl (by simp)

/-- A load after a save finds the old or the new snapshot exactly if the save did not stop aside,
and else none.
Witness: no earlier operation touches the published place.
-/
theorem load_after_save (old new : Snapshot) (backup staging : Option (SnapshotDir Snapshot))
    : let places : SnapshotPlaces Snapshot := ⟨some (.complete old), backup, staging⟩
      (save outcomes new places).Shows old new (outcomes.StopsAside places) := by
  intro places
  have staged : (∀ outcome ∈ outcomes.stage, outcome = .succeeds)
      ↔ outcomes.stage.find? (· ≠ .succeeds) = none := by
    simp [List.find?_eq_none]
  simp only [SaveOutcomes.StopsAside, staged, places, save]
  cases ends : outcomes.stage.find? (· ≠ .succeeds) with
  | some outcome =>
    -- nothing but the staged directory was touched
    cases outcome <;> exact SnapshotPlaces.shows_old new rfl (by simp)
  | none =>
    unfold publishDirectory
    cases backup with
    | none => simpa using moveAside_shows outcomes old new
    | some _ =>
      cases removal : outcomes.removeBackup with
      | succeeds => simpa using moveAside_shows outcomes old new
      | fails => exact SnapshotPlaces.shows_old new rfl (by simp)
      | crashes => exact SnapshotPlaces.shows_old new rfl (by simp)

/-- The process ends between the renames. -/
theorem crash_between_renames
    : let places := save ⟨[], .succeeds, .succeeds, .crashes, .succeeds, .succeeds, .succeeds, none⟩
        2 ⟨some (.complete 1), none, none⟩
      load places = none ∧ places.backup = some (.complete 1) := by
  decide

end AkiDB.Vectors.Publication
