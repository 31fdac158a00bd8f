import AkiDB.Ingestion.Manifests
import AkiDB.Library.KeyedMaps
import AkiDB.Library.Runs

/-!
Runs of sync cycles: a document is deleted only while its object is missing, unless the object
comes back.
-/

namespace AkiDB.Ingestion
open AtomicBatch Effects KeyedMaps List

/-- The manifest under a key. -/
def entryOf (entries : KeyValueMap String ManifestRow) (key : String) : Option ObjectManifest :=
  entries[key]?.bind ManifestRow.decoded

/-- Entries are stored under their own keys. -/
def ManifestStore.Keyed (store : ManifestStore) : Prop :=
  ∀ (key : String) (manifest : ObjectManifest), entryOf store.entries key = some manifest →
    manifest.key = key

/-- The object is confirmed as missing, or scheduled for its hard delete. -/
def ManifestStore.Tombstoned (store : ManifestStore) (key : String) : Prop :=
  ∃ manifest, entryOf store.entries key = some manifest
    ∧ manifest.deleteState.isTombstoned = true

instance (store : ManifestStore) (key : String) : Decidable (store.Tombstoned key) :=
  decidable_of_iff ((entryOf store.entries key).any (·.deleteState.isTombstoned) = true) (by
    simp [ManifestStore.Tombstoned, Option.any_eq_true])

/-- No spared key becomes a tombstone. -/
structure Spares (spared : String → Prop) (before after : ManifestStore) : Prop where
  keyed : before.Keyed → after.Keyed
  tombstoned : before.Keyed → ∀ key, spared key → after.Tombstoned key → before.Tombstoned key

section Steps

variable {spared : String → Prop}

instance : Std.Refl (Spares spared) := ⟨fun _ => ⟨id, fun _ _ _ => id⟩⟩

instance : IsTrans ManifestStore (Spares spared) := ⟨fun _ _ _ first second =>
  ⟨second.keyed ∘ first.keyed, fun keyed key kept tombstoned =>
    first.tombstoned keyed key kept (second.tombstoned (first.keyed keyed) key kept tombstoned)⟩⟩

variable {store : ManifestStore} {manifest : ObjectManifest}

theorem entryOf_insert (entries : KeyValueMap String ManifestRow) (manifest : ObjectManifest)
    (key : String)
    : entryOf (entries.insert manifest.key (.manifest manifest)) key
      = if manifest.key = key then some manifest else entryOf entries key := by
  unfold entryOf
  rw [lookup_insert]
  split_ifs <;> rfl

theorem spares_upsert
    (fits : store.Keyed → spared manifest.key → manifest.deleteState.isTombstoned = true →
      store.Tombstoned manifest.key)
    : Spares spared store ((upsert manifest).from store).2 := by
  unfold upsert write
  rw [from_bind_ok (from_get store)]
  split
  · exact Std.Refl.refl store
  · rw [from_modify]
    refine ⟨fun keyed => ?_, fun keyed key kept => ?_⟩
    · intro key found held
      rw [entryOf_insert] at held
      split_ifs at held with same
      · exact Option.some.inj held ▸ same
      · exact keyed key found held
    · rintro ⟨held, found, tombstoned⟩
      rw [entryOf_insert] at found
      split_ifs at found with same
      · cases found
        exact same ▸ fits keyed (same.symm ▸ kept) tombstoned
      · exact ⟨held, found, tombstoned⟩

/-- A read answers with the entry, or it fails on a row that is no manifest. -/
theorem getManifest_bind_cases {α : Type} (key : String)
    (next : Option ObjectManifest → ManifestM α) (store : ManifestStore)
    : (getManifest key >>= next).from store = (next (entryOf store.entries key)).from store
      ∨ entryOf store.entries key = none
        ∧ ∃ error, (getManifest key >>= next).from store = (.error error, store) := by
  have read : (getManifest key).from store = _ := from_bind_ok (from_get store)
  unfold entryOf
  cases found : store.entries[key]? with
  | none =>
    rw [found] at read
    exact .inl (from_bind_ok read)
  | some row =>
    rw [found] at read
    cases row with
    | manifest manifest => exact .inl (from_bind_ok read)
    | legacyEpoch reason => exact .inr ⟨rfl, _, from_bind_error read⟩
    | undecodable reason => exact .inr ⟨rfl, _, from_bind_error read⟩

theorem spares_getManifest {α : Type} {key : String} {next : Option ObjectManifest → ManifestM α}
    (absent : Keeps (Spares spared) (next none))
    (present : ∀ store manifest, entryOf store.entries key = some manifest →
      Spares spared store ((next (some manifest)).from store).2)
    : Keeps (Spares spared) (getManifest key >>= next) := by
  intro store
  rcases getManifest_bind_cases key next store with ran | ⟨_, _, ran⟩ <;> rw [ran]
  · cases found : entryOf store.entries key with
    | none => exact absent store
    | some manifest => exact present store manifest found
  · exact Std.Refl.refl store

theorem spares_replaced {key changed} (found : entryOf store.entries key = some manifest)
    (sameKey : changed.key = manifest.key)
    (fits : spared key → changed.deleteState.isTombstoned = true →
      manifest.deleteState.isTombstoned = true)
    : Spares spared store ((upsert changed).from store).2 := by
  refine spares_upsert fun keyed kept tombstoned => ?_
  have named : changed.key = key := sameKey.trans (keyed key manifest found)
  rw [named] at kept ⊢
  exact ⟨manifest, found, fits kept tombstoned⟩

theorem spares_markSeen (epoch : Nat) (key : String)
    : Keeps (Spares spared) (markSeen epoch key) := by
  unfold markSeen
  refine spares_getManifest (.pure _) fun store manifest found => ?_
  refine Keeps.andThen ?_ fun _ => .pure true
  refine spares_replaced found rfl fun _ tombstoned => ?_
  revert tombstoned
  unfold ObjectManifest.markSeen
  cases manifest.deleteState <;> exact id

variable (threshold : Nat)

theorem spares_incrementMissing (now : Int) {key} (unspared : ¬spared key)
    : Keeps (Spares spared) (incrementMissing threshold now key) := by
  unfold incrementMissing
  refine spares_getManifest (fun store => Std.Refl.refl store) fun store manifest found => ?_
  refine Keeps.andThen ?_ fun _ => .pure _
  refine spares_replaced found ?_ fun kept => absurd kept unspared
  unfold ObjectManifest.incrementMissingWithThreshold
  cases manifest.deleteState <;> rfl

theorem spares_detectListed (known : List ObjectManifest) (epoch : Nat)
    (listing : List StorageObject)
    : Keeps (Spares spared) (detectListed known epoch listing) := by
  induction listing with
  | nil => exact .pure _
  | cons object rest ih =>
    unfold detectListed
    split
    · exact .bind ih fun _ => .pure _
    · exact .bind (spares_markSeen epoch object.key) fun _ => .bind ih fun _ => .pure _

theorem spares_detectMissing (now : Int) {manifests}
    (unspared : ∀ manifest ∈ manifests, ¬spared manifest.key)
    : Keeps (Spares spared) (detectMissing threshold now manifests) := by
  induction manifests with
  | nil => exact .pure _
  | cons manifest rest ih =>
    obtain ⟨first, later⟩ := forall_mem_cons.mp unspared
    exact .bind (spares_incrementMissing threshold now first) fun _ =>
      .bind (ih later) fun _ => .pure _

theorem spares_detectChanges (now : Int) (listing : List StorageObject) (epoch : Nat)
    : Keeps (Spares (· ∈ listing.map (·.key))) (detectChanges threshold now listing epoch) := by
  refine .bind (fun store => Std.Refl.refl store) fun store => ?_
  refine .bind (spares_detectListed _ _ _) fun _ => .bind (spares_detectMissing _ _ ?_) fun _ =>
    .pure _
  intro manifest unlisted listed
  obtain ⟨object, member, same⟩ := mem_map.mp listed
  have found : listing.any (·.key = manifest.key) = true :=
    any_eq_true.mpr ⟨object, member, decide_eq_true same⟩
  simp [found] at unlisted

theorem spares_handleMissing (config : LifecycleConfig) (now : Int) (key : String)
    : Keeps (Spares (· ≠ key)) (handleMissing config now key) := by
  refine .bind (spares_incrementMissing _ _ (not_not.mpr rfl)) fun count => ?_
  split_ifs
  · refine spares_getManifest (fun store => Std.Refl.refl store) fun store manifest found => ?_
    refine Keeps.andThen ?_ fun _ => .pure _
    exact spares_replaced found rfl fun kept => absurd rfl kept
  · exact .pure _

theorem spares_scheduleHardDelete (config : LifecycleConfig) (now : Int) (key : String)
    : Keeps (Spares spared) (scheduleHardDelete config now key) := by
  unfold scheduleHardDelete
  refine spares_getManifest (fun store => Std.Refl.refl store) fun store manifest found => ?_
  cases state : manifest.deleteState with
  | confirmedMissing confirmedAt =>
    simp only [state]
    refine Keeps.andThen ?_ fun _ => .pure _
    refine spares_replaced found ?_ fun _ _ => by rw [state]; rfl
    unfold ObjectManifest.scheduleHardDelete
    rw [state]
  | _ => simp only [state]; exact Std.Refl.refl store

theorem spares_recoverDocument (key etag : String) (epoch : Nat)
    : Keeps (Spares spared) (recoverDocument key etag epoch) := by
  unfold recoverDocument
  refine spares_getManifest (fun store => Std.Refl.refl store) fun store manifest found => ?_
  have seen : (manifest.markSeen epoch).deleteState.isTombstoned = true →
      manifest.deleteState.isTombstoned = true := by
    unfold ObjectManifest.markSeen
    cases manifest.deleteState <;> exact id
  dsimp only
  split
  · exact Std.Refl.refl store
  · exact Keeps.andThen (spares_replaced found rfl fun _ => seen) fun _ => .pure _

end Steps

/-- The manifests, the listings seen so far, and the listing at which each tombstone was made. -/
structure SyncWorld where
  store : ManifestStore
  listings : List (List String)
  confirmedAt : String → Nat

inductive SyncAction where
  | sync (threshold : Nat) (listing : List StorageObject) (epoch : Nat) (now : Int)
      (writesLeft : Option Nat)
  | track (key etag : String)
  | handleMissing (key : String) (now : Int) (writesLeft : Option Nat)
  | scheduleHardDelete (key : String) (now : Int) (writesLeft : Option Nat)
  | recoverDocument (key etag : String) (epoch : Nat) (writesLeft : Option Nat)
  | processHardDeletes (now : Int) (refuses keepsManifest : String → Bool)

namespace SyncWorld

def blank : SyncWorld := ⟨⟨∅, none⟩, [], fun _ => 0⟩

def advance (world : SyncWorld) (store : ManifestStore) : SyncWorld :=
  { world with
    store
    confirmedAt := fun key =>
      if store.Tombstoned key ∧ ¬world.store.Tombstoned key then world.listings.length
      else world.confirmedAt key }

def listed (world : SyncWorld) (keys : List String) : SyncWorld :=
  { world with listings := keys :: world.listings }

def limited (world : SyncWorld) (writesLeft : Option Nat) : ManifestStore :=
  { world.store with writesLeft }

def perform (config : LifecycleConfig) (world : SyncWorld) : SyncAction → SyncWorld
  | .sync threshold listing epoch now writesLeft =>
    (world.listed (listing.map (·.key))).advance
      ((detectChanges threshold now listing epoch).from (world.limited writesLeft)).2
  | .track key etag =>
    world.advance ⟨world.store.entries.insert key (.manifest (.new key etag)), none⟩
  | .handleMissing key now writesLeft =>
    world.advance ((handleMissing config now key).from (world.limited writesLeft)).2
  | .scheduleHardDelete key now writesLeft =>
    world.advance ((scheduleHardDelete config now key).from (world.limited writesLeft)).2
  | .recoverDocument key etag epoch writesLeft =>
    world.advance ((recoverDocument key etag epoch).from (world.limited writesLeft)).2
  | .processHardDeletes now refuses keepsManifest =>
    world.advance (processHardDeletes config now refuses keepsManifest world.store).2

/-- The object was in none of the listings from the one at its confirmation on. -/
def AbsentSince (world : SyncWorld) (key : String) : Prop :=
  ∀ listing ∈ world.listings.take (world.listings.length + 1 - world.confirmedAt key), key ∉ listing

/-- No confirmed or scheduled object comes back; none is missing that the latest listing has. -/
def StaysMissing (world : SyncWorld) : SyncAction → Prop
  | .sync _ listing _ _ _ => ∀ object ∈ listing, ¬world.store.Tombstoned object.key
  | .handleMissing key _ _ => ∀ listing ∈ world.listings.head?, key ∉ listing
  | _ => True

/-- Tombstones have been absent since their confirmation, and were confirmed at a listing. -/
structure Consistent (world : SyncWorld) : Prop where
  keyed : world.store.Keyed
  absent : ∀ key, world.store.Tombstoned key → world.AbsentSince key
  dated : ∀ key, world.confirmedAt key ≤ world.listings.length

variable {world : SyncWorld} {store : ManifestStore}

theorem Consistent.advance (consistent : world.Consistent) {spared : String → Prop}
    (spares : Spares spared world.store store)
    (lacking : ∀ key, ¬spared key → ∀ listing ∈ world.listings.head?, key ∉ listing)
    : (world.advance store).Consistent where
  keyed := spares.keyed consistent.keyed
  dated := by
    intro key
    unfold SyncWorld.advance
    dsimp only
    split_ifs
    · exact Nat.le_refl _
    · exact consistent.dated key
  absent := by
    intro key tombstoned
    unfold AbsentSince SyncWorld.advance
    dsimp only
    by_cases before : world.store.Tombstoned key
    · rw [if_neg fun new => new.2 before]
      exact consistent.absent key before
    · rw [if_pos ⟨tombstoned, before⟩, Nat.add_sub_cancel_left]
      have unspared : ¬spared key := fun kept =>
        before (spares.tombstoned consistent.keyed key kept tombstoned)
      cases listings : world.listings with
      | nil => simp
      | cons latest earlier =>
        simpa using lacking key unspared latest (by simp [listings])

theorem Consistent.listed (consistent : world.Consistent) {keys}
    (missing : ∀ key ∈ keys, ¬world.store.Tombstoned key)
    : (world.listed keys).Consistent where
  keyed := consistent.keyed
  dated := fun key => Nat.le_succ_of_le (consistent.dated key)
  absent := by
    intro key tombstoned listing member
    have more : (world.listed keys).listings.length + 1 - (world.listed keys).confirmedAt key
        = (world.listings.length + 1 - world.confirmedAt key) + 1 :=
      Nat.succ_sub (Nat.le_succ_of_le (consistent.dated key))
    rw [more, SyncWorld.listed, take_succ_cons] at member
    rcases mem_cons.mp member with rfl | earlier
    · exact fun found => missing key found tombstoned
    · exact consistent.absent key tombstoned listing earlier

theorem spares_processHardDeletes (config : LifecycleConfig) (now : Int)
    (refuses keepsManifest : String → Bool) (store : ManifestStore)
    : Spares (fun _ => True) store
        (processHardDeletes config now refuses keepsManifest store).2 := by
  unfold processHardDeletes
  split_ifs
  · have kept {keys : List String} {key : String} {manifest : ObjectManifest}
        (found : entryOf (keys.foldl (·.erase ·) store.entries) key = some manifest)
        : entryOf store.entries key = some manifest := by
      unfold entryOf at found ⊢
      rw [lookup_foldl_erase] at found
      split_ifs at found
      · cases found
      · exact found
    exact ⟨fun keyed key manifest found => keyed key manifest (kept found),
      fun _ key _ ⟨manifest, found, tombstoned⟩ => ⟨manifest, kept found, tombstoned⟩⟩
  · exact Std.Refl.refl store

variable {config : LifecycleConfig}

/-- Every permitted action keeps what deletions rely on. -/
theorem Consistent.perform (consistent : world.Consistent) {action}
    (stays : world.StaysMissing action)
    : (world.perform config action).Consistent := by
  cases action with
  | sync threshold listing epoch now writesLeft =>
    have began : (world.listed (listing.map (·.key))).Consistent :=
      consistent.listed (forall_mem_map.mpr stays)
    have spares := spares_detectChanges threshold now listing epoch (world.limited writesLeft)
    refine began.advance ⟨spares.keyed, spares.tombstoned⟩ fun key unlisted listing latest => ?_
    exact Option.some.inj latest ▸ unlisted
  | track key etag =>
    have spares := @spares_upsert (fun _ => True) (world.limited none) (.new key etag)
      fun _ _ impossible => absurd impossible Bool.false_ne_true
    exact consistent.advance ⟨spares.keyed, spares.tombstoned⟩
      fun _ excluded => absurd trivial excluded
  | handleMissing key now writesLeft =>
    have spares := spares_handleMissing config now key (world.limited writesLeft)
    refine consistent.advance ⟨spares.keyed, spares.tombstoned⟩ fun other handled => ?_
    exact not_not.mp handled ▸ stays
  | scheduleHardDelete key now writesLeft =>
    have spares := @spares_scheduleHardDelete (fun _ => True) config now key
      (world.limited writesLeft)
    exact consistent.advance ⟨spares.keyed, spares.tombstoned⟩
      fun _ excluded => absurd trivial excluded
  | recoverDocument key etag epoch writesLeft =>
    have spares := @spares_recoverDocument (fun _ => True) key etag epoch (world.limited writesLeft)
    exact consistent.advance ⟨spares.keyed, spares.tombstoned⟩
      fun _ excluded => absurd trivial excluded
  | processHardDeletes now refuses keepsManifest =>
    exact consistent.advance
      (spares_processHardDeletes config now refuses keepsManifest world.store)
      fun _ excluded => absurd trivial excluded

theorem consistent_blank : blank.Consistent where
  keyed := by simp [ManifestStore.Keyed, blank, entryOf]
  absent := by simp [ManifestStore.Tombstoned, blank, entryOf]
  dated := fun _ => Nat.le_refl 0

theorem stored_of_scanAll {manifest} (scanned : manifest ∈ store.scanAll)
    : ∃ place, entryOf store.entries place = some manifest := by
  obtain ⟨row, taken, decoded⟩ := mem_filterMap.mp scanned
  obtain ⟨place, found⟩ := mem_values.mp (mem_of_mem_take taken)
  exact ⟨place, by rw [entryOf, found, Option.bind_some, decoded]⟩

theorem tombstoned_of_deleted {now : Int} {refuses keepsManifest : String → Bool}
    (keyed : store.Keyed) {key}
    (deleted : key ∈ (processHardDeletes config now refuses keepsManifest store).1)
    : store.Tombstoned key := by
  unfold processHardDeletes at deleted
  split_ifs at deleted
  · obtain ⟨ready, _⟩ := mem_filter.mp deleted
    obtain ⟨manifest, scanned, rfl⟩ := mem_map.mp ready
    obtain ⟨stored, due⟩ := mem_filter.mp scanned
    obtain ⟨place, found⟩ := stored_of_scanAll stored
    rw [keyed place manifest found]
    refine ⟨manifest, found, ?_⟩
    revert due
    unfold DeleteState.isReadyForHardDelete DeleteState.isTombstoned
    cases manifest.deleteState <;> simp
  · simp at deleted

/-- A document is deleted only if every listing since its confirmation lacks its object, as long as
none comes back.
Witness: tombstones are absent since their confirmation.
-/
theorem deleted_objects_absent {config : LifecycleConfig} {actions : List SyncAction}
    (stays : Runs.Along (perform config) StaysMissing blank actions)
    : let world := actions.foldl (perform config) blank
      ∀ now refuses keepsManifest,
        ∀ key ∈ (processHardDeletes config now refuses keepsManifest world.store).1,
          (∀ listing ∈ world.listings.head?, key ∉ listing) ∧ world.AbsentSince key := by
  intro world now refuses keepsManifest key deleted
  have consistent : world.Consistent :=
    stays.invariant (fun _ _ consistent stays => consistent.perform stays) consistent_blank
  have absent := consistent.absent key (tombstoned_of_deleted consistent.keyed deleted)
  refine ⟨fun listing latest => absent listing ?_, absent⟩
  have dated := consistent.dated key
  cases listings : world.listings with
  | nil => simp [listings] at latest
  | cons first rest =>
    rw [listings] at dated latest
    rw [Nat.succ_sub dated, take_succ_cons]
    exact Option.some.inj latest ▸ mem_cons_self

end SyncWorld

def eagerConfig : LifecycleConfig := ⟨1, 0, true⟩

def confirmedRun : List SyncAction :=
  [.track "a.pdf" "v1", .sync 1 [] 1 0 none, .scheduleHardDelete "a.pdf" 0 none]

def deletedAfter (actions : List SyncAction) : List String :=
  (processHardDeletes eagerConfig 1 (fun _ => false) (fun _ => false)
    (actions.foldl (SyncWorld.perform eagerConfig) .blank).store).1

/-- An object that comes back after its confirmation is listed and deleted all the same. -/
theorem returned_object_deleted
    : deletedAfter (confirmedRun ++ [.sync 1 [⟨"a.pdf", some "v1"⟩] 2 0 none]) = ["a.pdf"]
      ∧ deletedAfter [.track "a.pdf" "v1", .sync 1 [] 1 0 none,
        .sync 1 [⟨"a.pdf", some "v1"⟩] 2 0 none, .recoverDocument "a.pdf" "v1" 2 none,
        .scheduleHardDelete "a.pdf" 0 none] = ["a.pdf"] := by
  decide +kernel

/-- An object that stays away is deleted, in none of the listings since its confirmation. -/
theorem missing_object_deleted
    : deletedAfter confirmedRun = ["a.pdf"]
      ∧ (confirmedRun.foldl (SyncWorld.perform eagerConfig) .blank).AbsentSince "a.pdf" := by
  have deleted : deletedAfter confirmedRun = ["a.pdf"] := by decide +kernel
  have stays : Runs.Along (SyncWorld.perform eagerConfig) SyncWorld.StaysMissing .blank
      confirmedRun := ⟨trivial, by simp [SyncWorld.StaysMissing], trivial, trivial⟩
  refine ⟨deleted, (SyncWorld.deleted_objects_absent stays 1 (fun _ => false) (fun _ => false)
    "a.pdf" ?_).2⟩
  change "a.pdf" ∈ deletedAfter confirmedRun
  rw [deleted]
  exact mem_cons_self

end AkiDB.Ingestion
