import AkiDB.Ingestion.HardDeletes

/-! What one sync cycle reports. It compares the listing with one scan, which stops at its limit. -/

namespace AkiDB.Ingestion
open AtomicBatch Effects KeyedMaps List

/-- Missing objects and those that are confirmed as missing are of one kind. -/
def ChangeType.kind : ChangeType → ChangeType
  | .confirmedDelete => .missing
  | kind => kind

def Reported (changes : List StorageChange) (key : String) (kind : ChangeType) : Prop :=
  ∃ change ∈ changes, change.key = key ∧ change.changeType.kind = kind

/-- The change that a cycle is meant to report for a key with a given entry. -/
def Due (entry : Option ObjectManifest) (listing : List StorageObject) (key : String)
    : ChangeType → Prop
  | .new => key ∈ listing.map (·.key) ∧ entry = none
  | .updated => ∃ object ∈ listing, object.key = key
      ∧ ∃ manifest, entry = some manifest ∧ object.etag ≠ some manifest.etag
  | .missing => key ∉ listing.map (·.key)
      ∧ ∃ manifest, entry = some manifest ∧ manifest.deleteState.isTombstoned = false
  | .confirmedDelete => False

variable {entries : KeyValueMap String ManifestRow} {known : List ObjectManifest}
  {threshold epoch : Nat} {now : Int} {listing : List StorageObject} {key : String}

theorem reported_cons {change changes} {kind : ChangeType}
    : Reported (change :: changes) key kind
      ↔ change.key = key ∧ change.changeType.kind = kind ∨ Reported changes key kind := by
  simp [Reported]

def scanned (entries : KeyValueMap String ManifestRow) (key : String) : Option ObjectManifest :=
  (ManifestStore.scanAll ⟨entries, none⟩).find? (·.key = key)

section
variable (keyed : ManifestStore.Keyed ⟨entries, none⟩)
include keyed

variable {manifest : ObjectManifest}

theorem entryOf_replaced (found : entryOf entries key = some manifest)
    {change : ObjectManifest → ObjectManifest} (same : (change manifest).key = manifest.key)
    (other : String)
    : entryOf (entries.insert (change manifest).key (.manifest (change manifest))) other
      = if key = other then (entryOf entries other).map change else entryOf entries other := by
  rw [entryOf_insert, same, keyed key manifest found]
  split_ifs with own
  · rw [← own, found]
    rfl
  · rfl

omit keyed in
theorem from_getManifest_bind {α : Type} (found : entryOf entries key = some manifest)
    (next : Option ObjectManifest → ManifestM α)
    : (getManifest key >>= next).from ⟨entries, none⟩
      = (next (some manifest)).from ⟨entries, none⟩ := by
  rcases getManifest_bind_cases key next ⟨entries, none⟩ with ran | ⟨absent, _⟩
  · rw [ran, found]
  · cases absent.symm.trans found

/-- A known object is marked, and nothing else changes. -/
theorem from_markSeen (found : entryOf entries key = some manifest)
    : ∃ after, (markSeen epoch key).from ⟨entries, none⟩ = (.ok true, ⟨after, none⟩)
      ∧ ∀ other, entryOf after other
        = if key = other then (entryOf entries other).map (·.markSeen epoch)
          else entryOf entries other :=
  ⟨_, (from_getManifest_bind found _).trans rfl, entryOf_replaced keyed found rfl⟩

/-- The listed objects are compared with what was scanned; those that were are marked. -/
theorem from_detectListed (stored : ∀ manifest ∈ known, (entryOf entries manifest.key).isSome)
    (listing : List StorageObject)
    : ∃ changes after, (detectListed known epoch listing).from ⟨entries, none⟩
        = (.ok changes, ⟨after, none⟩)
      ∧ (∀ key kind, Reported changes key kind
        ↔ kind ≠ .missing ∧ Due (known.find? (·.key = key)) listing key kind)
      ∧ ∀ key, entryOf after key
        = if key ∈ listing.map (·.key) ∧ (known.find? (·.key = key)).isSome
          then (entryOf entries key).map (·.markSeen epoch) else entryOf entries key := by
  induction listing generalizing entries with
  | nil =>
    refine ⟨[], entries, rfl, fun key kind => ?_, by simp⟩
    cases kind <;> simp [Reported, Due]
  | cons object rest ih =>
    unfold detectListed
    cases found : known.find? (·.key = object.key) with
    | none =>
      obtain ⟨changes, after, ran, reported, held⟩ := ih keyed stored
      refine ⟨_, after, from_bind_ok ran, fun key kind => ?_, fun key => ?_⟩
      · rw [reported_cons, reported]
        cases kind <;> grind [Due, ChangeType.kind]
      · rw [held]
        by_cases same : key = object.key <;> simp [same, found]
    | some manifest =>
      have held : (entryOf entries object.key).isSome := by
        have same : manifest.key = object.key := by simpa using find?_some found
        exact same ▸ stored manifest (mem_of_find?_eq_some found)
      obtain ⟨entry, held⟩ := Option.isSome_iff_exists.mp held
      obtain ⟨between, marks, marked⟩ := @from_markSeen entries epoch object.key keyed entry held
      have keyedBetween := ((spares_markSeen epoch object.key :
        Keeps (Spares fun _ => True) _).after marks).keyed keyed
      obtain ⟨changes, after, ran, reported, held⟩ := ih keyedBetween fun known member => by
        rw [marked]
        split_ifs
        · rw [Option.isSome_map]
          exact stored known member
        · exact stored known member
      refine ⟨_, after, (from_bind_ok marks).trans (from_bind_ok ran), fun key kind => ?_,
        fun key => ?_⟩
      · split_ifs with changed
        · rw [reported_cons, reported]
          cases kind <;> grind [Due, ChangeType.kind]
        · rw [reported]
          cases kind <;> grind [Due, ChangeType.kind]
      · rw [held, marked]
        by_cases same : object.key = key
        · subst same
          have once : (ObjectManifest.markSeen epoch) ∘ (ObjectManifest.markSeen epoch)
              = ObjectManifest.markSeen epoch := by
            funext manifest
            obtain ⟨_, _, _, _, state⟩ := manifest
            cases state <;> rfl
          simp only [if_true, found, map_cons, mem_cons, true_or, Option.isSome_some, and_true,
            Option.map_map, once, ite_self]
        · simp [same, Ne.symm same]

/-- Each of the manifests is reported as missing, and no mark changes. -/
theorem from_detectMissing {manifests}
    (stored : ∀ manifest ∈ manifests, (entryOf entries manifest.key).isSome)
    : ∃ changes after, (detectMissing threshold now manifests).from ⟨entries, none⟩
        = (.ok changes, ⟨after, none⟩)
      ∧ (∀ key kind, Reported changes key kind ↔ kind = .missing ∧ key ∈ manifests.map (·.key))
      ∧ ∀ key, (entryOf after key).map (·.lastSeenEpoch)
          = (entryOf entries key).map (·.lastSeenEpoch)
        ∧ (key ∉ manifests.map (·.key) → entryOf after key = entryOf entries key) := by
  induction manifests generalizing entries with
  | nil => exact ⟨[], entries, rfl, by simp [Reported], fun _ => ⟨rfl, fun _ => rfl⟩⟩
  | cons manifest rest ih =>
    obtain ⟨first, others⟩ := forall_mem_cons.mp stored
    obtain ⟨entry, found⟩ := Option.isSome_iff_exists.mp first
    have counts (manifest : ObjectManifest)
        : (manifest.incrementMissingWithThreshold threshold now).key = manifest.key
          ∧ (manifest.incrementMissingWithThreshold threshold now).lastSeenEpoch
            = manifest.lastSeenEpoch := by
      unfold ObjectManifest.incrementMissingWithThreshold
      cases manifest.deleteState <;> exact ⟨rfl, rfl⟩
    have ran : (incrementMissing threshold now manifest.key).from ⟨entries, none⟩
        = (.ok _, ⟨_, none⟩) :=
      (from_getManifest_bind found _).trans rfl
    have held := entryOf_replaced keyed found (counts entry).1
    have same (key : String)
        : (entryOf (entries.insert (entry.incrementMissingWithThreshold threshold now).key
            (.manifest (entry.incrementMissingWithThreshold threshold now))) key).map
              (·.lastSeenEpoch)
          = (entryOf entries key).map (·.lastSeenEpoch) := by
      rw [held]
      split_ifs
      · rw [Option.map_map]
        congr 1
        exact funext fun manifest => (counts manifest).2
      · rfl
    have keyedBetween := ((spares_incrementMissing threshold now id :
      Keeps (Spares fun _ => False) _).after ran).keyed keyed
    obtain ⟨changes, after, later, reported, kept⟩ := ih keyedBetween fun other member => by
      rw [← Option.isSome_map, same, Option.isSome_map]
      exact others other member
    refine ⟨_, after, (from_bind_ok ran).trans (from_bind_ok later), fun key kind => ?_,
      fun key => ⟨(kept key).1.trans (same key), fun absent => ?_⟩⟩
    · rw [reported_cons, reported, map_cons, mem_cons]
      split_ifs <;> grind [ChangeType.kind]
    · obtain ⟨apart, absent⟩ := not_or.mp (mem_cons.not.mp absent)
      rw [(kept key).2 absent, held, if_neg (Ne.symm apart)]

/-- A scan finds at most one manifest of a key. -/
theorem scanned_eq_some
    : scanned entries key = some manifest
      ↔ manifest ∈ ManifestStore.scanAll ⟨entries, none⟩ ∧ manifest.key = key := by
  constructor
  · intro found
    exact ⟨mem_of_find?_eq_some found, by simpa using find?_some found⟩
  · rintro ⟨member, rfl⟩
    cases first : scanned entries manifest.key with
    | none => simpa using find?_eq_none.mp first manifest member
    | some other =>
      have same : other.key = manifest.key := by simpa using find?_some first
      obtain ⟨place, stored⟩ := SyncWorld.stored_of_scanAll (mem_of_find?_eq_some first)
      obtain ⟨own, held⟩ := SyncWorld.stored_of_scanAll member
      obtain rfl : place = own :=
        (keyed place other stored).symm.trans (same.trans (keyed own manifest held))
      exact stored.symm.trans held

/-- What a scan finds of a key is its entry. -/
theorem stored_of_scanned (found : scanned entries key = some manifest)
    : entryOf entries key = some manifest := by
  obtain ⟨member, rfl⟩ := (scanned_eq_some keyed).mp found
  obtain ⟨place, stored⟩ := SyncWorld.stored_of_scanAll member
  exact keyed place manifest stored ▸ stored

/-- The scan misses no entry of the key that a cycle has to report or to mark. -/
def Covers (entries : KeyValueMap String ManifestRow) (listing : List StorageObject)
    (key : String) : Prop :=
  ∀ manifest, entryOf entries key = some manifest →
    manifest ∈ ManifestStore.scanAll ⟨entries, none⟩
      ∨ key ∉ listing.map (·.key) ∧ manifest.deleteState.isTombstoned = true

theorem due_scanned_iff
    : (∀ kind, Due (scanned entries key) listing key kind
        ↔ Due (entryOf entries key) listing key kind)
      ↔ Covers entries listing key := by
  constructor
  · intro same manifest stored
    cases found : scanned entries key with
    | some other =>
      have equal := (stored_of_scanned keyed found).symm.trans stored
      exact .inl (Option.some.inj equal ▸ ((scanned_eq_some keyed).mp found).1)
    | none =>
      rw [found, stored] at same
      have unlisted : key ∉ listing.map (·.key) := fun listed => by
        cases ((same .new).mp ⟨listed, rfl⟩).2
      refine .inr ⟨unlisted, by_contra fun retained => ?_⟩
      obtain ⟨_, _, absurdity, _⟩ := (same .missing).mpr
        ⟨unlisted, manifest, rfl, Bool.eq_false_iff.mpr retained⟩
      cases absurdity
  · intro covers kind
    cases found : scanned entries key with
    | some manifest => rw [stored_of_scanned keyed found]
    | none =>
      cases stored : entryOf entries key with
      | none => rfl
      | some manifest =>
        rcases covers manifest stored with member | ⟨unlisted, tombstoned⟩
        · cases found.symm.trans
            ((scanned_eq_some keyed).mpr ⟨member, keyed key manifest stored⟩)
        · cases kind <;> grind [Due]

/-- What one run reports of a key, and which entries it writes. -/
theorem from_detectChanges
    : ∃ changes after, (detectChanges threshold now listing epoch).from ⟨entries, none⟩
        = (.ok changes, ⟨after, none⟩)
      ∧ (∀ key kind, Reported changes key kind ↔ Due (scanned entries key) listing key kind)
      ∧ ∀ key, if key ∈ listing.map (·.key) ∧ (scanned entries key).isSome
        then entryOf after key = (entryOf entries key).map (·.markSeen epoch)
        else (entryOf after key).map (·.lastSeenEpoch)
          = (entryOf entries key).map (·.lastSeenEpoch) := by
  have stored {manifest} (member : manifest ∈ ManifestStore.scanAll ⟨entries, none⟩)
      : entryOf entries manifest.key = some manifest :=
    stored_of_scanned keyed ((scanned_eq_some keyed).mpr ⟨member, rfl⟩)
  obtain ⟨listed, between, ran, reported, held⟩ := @from_detectListed entries
    (ManifestStore.scanAll ⟨entries, none⟩) epoch keyed
    (fun manifest member => by rw [stored member]; rfl) listing
  have keyedBetween := ((spares_detectListed _ _ _ :
    Keeps (Spares fun _ => False) _).after ran).keyed keyed
  let unlisted := (ManifestStore.scanAll ⟨entries, none⟩).filter fun manifest =>
    !(listing.any (·.key = manifest.key)) && !manifest.deleteState.isTombstoned
  have missing (key : String) : key ∈ unlisted.map (·.key)
      ↔ Due (scanned entries key) listing key .missing := by
    simp only [Due, scanned_eq_some keyed, unlisted]
    grind
  obtain ⟨lost, after, counted, alsoReported, kept⟩ := @from_detectMissing between threshold now
    keyedBetween unlisted fun manifest member => by
      rw [held, stored (mem_filter.mp member).1]
      split_ifs <;> rfl
  refine ⟨listed ++ lost, after, ?_, fun key kind => ?_, fun key => ?_⟩
  · exact (from_bind_ok (from_get _)).trans ((from_bind_ok ran).trans (from_bind_ok counted))
  · have split : Reported (listed ++ lost) key kind
        ↔ Reported listed key kind ∨ Reported lost key kind := by
      simp only [Reported, mem_append, or_and_right, exists_or]
    rw [split, reported, alsoReported, missing]
    by_cases lostKind : kind = .missing
    · simp [lostKind]
    · simp [lostKind, scanned]
  · split_ifs with both
    · have present : key ∉ unlisted.map (·.key) := fun absent => ((missing key).mp absent).1 both.1
      exact ((kept key).2 present).trans ((held key).trans (if_pos both))
    · exact (kept key).1.trans (congrArg _ ((held key).trans (if_neg both)))

/-- The report and the marks that a cycle is meant to leave for a key. -/
def Exact (entries after : KeyValueMap String ManifestRow) (listing : List StorageObject)
    (epoch : Nat) (changes : List StorageChange) (key : String) : Prop :=
  (∀ kind, Reported changes key kind ↔ Due (entryOf entries key) listing key kind)
  ∧ if key ∈ listing.map (·.key)
    then entryOf after key = (entryOf entries key).map (·.markSeen epoch)
    else (entryOf after key).map (·.lastSeenEpoch) = (entryOf entries key).map (·.lastSeenEpoch)

end

/-- A cycle is exact on a key exactly if it scans its entry or has it confirmed as missing. -/
theorem changes_exact_iff (entries : {entries // ManifestStore.Keyed ⟨entries, none⟩})
    (threshold : Nat) (now : Int) (listing : List StorageObject) (epoch : Nat)
    : ∃ changes after, (detectChanges threshold now listing epoch).from ⟨entries, none⟩
        = (.ok changes, ⟨after, none⟩)
      ∧ ∀ key, Exact entries after listing epoch changes key ↔ Covers entries listing key := by
  obtain ⟨entries, keyed⟩ := entries
  obtain ⟨changes, after, ran, reported, marked⟩ := @from_detectChanges entries threshold epoch now
    listing keyed
  refine ⟨changes, after, ran, fun key => ?_⟩
  have due := @due_scanned_iff entries listing key keyed
  simp only [Exact, reported, due]
  refine ⟨And.left, fun covers => ⟨covers, ?_⟩⟩
  have marks := marked key
  by_cases listed : key ∈ listing.map (·.key)
  · rw [if_pos listed]
    cases stored : entryOf entries key with
    | none =>
      rw [stored] at marks
      split_ifs at marks
      · exact marks
      · simpa using marks
    | some manifest =>
      have member := (covers manifest stored).resolve_right fun left => left.1 listed
      have found := (scanned_eq_some keyed).mpr ⟨member, keyed key manifest stored⟩
      rwa [found, if_pos ⟨listed, rfl⟩, stored] at marks
  · rw [if_neg listed]
    rwa [if_neg fun both => listed both.1] at marks

/-- One entry beside a legacy epoch and a damaged row. -/
def mixedRows : KeyValueMap String ManifestRow :=
  (((∅ : KeyValueMap _ _).insert "_epoch" (.legacyEpoch "expected value")).insert "a"
    (.manifest (.new "a" "e"))).insert "b" (.undecodable "EOF")

/-- A cycle reports the changed object and the damaged row's object as it should. -/
theorem changes_exact_beside_damage
    : let listing : List StorageObject := [⟨"a", some "f"⟩, ⟨"b", some "e"⟩]
      ∃ changes after, (detectChanges 3 0 listing 1).from ⟨mixedRows, none⟩
        = (.ok changes, ⟨after, none⟩) ∧ ∀ key, Exact mixedRows after listing 1 changes key := by
  have only (key : String) (manifest : ObjectManifest)
      (found : entryOf mixedRows key = some manifest) : key = "a" ∧ manifest = .new "a" "e" := by
    simp only [entryOf, mixedRows, lookup_insert, lookup_empty] at found
    split_ifs at found <;> simp_all [ManifestRow.decoded]
  have scanned : ManifestStore.scanAll ⟨mixedRows, none⟩ = [.new "a" "e"] := by decide +kernel
  have keyed : ManifestStore.Keyed ⟨mixedRows, none⟩ := by
    intro key manifest found
    obtain ⟨rfl, rfl⟩ := only key manifest found
    rfl
  obtain ⟨changes, after, ran, exact⟩ :=
    changes_exact_iff ⟨mixedRows, keyed⟩ 3 0 [⟨"a", some "f"⟩, ⟨"b", some "e"⟩] 1
  refine ⟨changes, after, ran, fun key => (exact key).mpr fun manifest found => .inl ?_⟩
  rw [scanned, (only key manifest found).2]
  exact mem_cons_self

/-! More entries than a scan returns -/

def row (place : Nat) : ObjectManifest :=
  .new (String.ofList (replicate place 'a')) "e"

def crowd (number : Nat) : KeyValueMap String ManifestRow :=
  (range number).foldl
    (fun entries place => entries.insert (row place).key (.manifest (row place))) ∅

theorem row_injective : Function.Injective fun place => (row place).key := by
  intro left right same
  have lengths := congrArg (fun text => text.toList.length) same
  simpa [row, ObjectManifest.new] using lengths

variable {number : Nat}

theorem lookup_crowd {place : Nat} (listed : place ∈ range number)
    : entryOf (crowd number) (row place).key = some (row place) := by
  have found : (crowd number)[(row place).key]? = some (.manifest (row place)) :=
    @lookup_foldl_of_mem _ _ _ _ _ (fun place => (row place).key)
      (fun _ place => ManifestRow.manifest (row place)) _
      (fun _ _ => (lookup_insert ..).trans (if_pos rfl))
      (fun _ _ _ apart => (lookup_insert ..).trans (if_neg apart))
      _ (nodup_range.map row_injective) _ listed ∅
  rw [entryOf, found]
  rfl

theorem keyed_crowd : ManifestStore.Keyed ⟨crowd number, none⟩ := by
  refine foldlRecOn (motive := fun entries => ManifestStore.Keyed ⟨entries, none⟩) _ _ ?_ ?_
  · intro key manifest found
    rw [entryOf, lookup_empty] at found
    cases found
  · intro entries keyed place _ key manifest found
    rw [entryOf_insert] at found
    split_ifs at found with same
    · exact Option.some.inj found ▸ same
    · exact keyed key manifest found

theorem crowd_unscanned (crowded : scanLimit < number)
    : ∃ place ∈ range number, scanned (crowd number) (row place).key = none := by
  by_contra! every
  have subset : (range number).map row ⊆ ManifestStore.scanAll ⟨crowd number, none⟩ := by
    intro manifest member
    obtain ⟨place, listed, rfl⟩ := mem_map.mp member
    obtain ⟨other, found⟩ := Option.ne_none_iff_exists'.mp (every place listed)
    have same := (stored_of_scanned keyed_crowd found).symm.trans (lookup_crowd listed)
    exact Option.some.inj same ▸ ((scanned_eq_some keyed_crowd).mp found).1
  have distinct : ((range number).map row).Nodup :=
    nodup_range.map (Function.Injective.of_comp row_injective)
  have counted := (subperm_of_subset distinct subset).length_le
  rw [length_map, length_range] at counted
  exact absurd (counted.trans ((length_filterMap_le ..).trans (length_take_le ..)))
    (Nat.not_le.mpr crowded)

/-- An empty listing of one active object more than a scan returns: one is not reported. -/
theorem crowd_unreported
    : ManifestStore.Keyed ⟨crowd (scanLimit + 1), none⟩
      ∧ ∃ changes after, (detectChanges 3 0 [] 1).from ⟨crowd (scanLimit + 1), none⟩
          = (.ok changes, ⟨after, none⟩)
        ∧ ∃ key, (entryOf (crowd (scanLimit + 1)) key).map (·.deleteState) = some .active
          ∧ ∀ kind, ¬Reported changes key kind := by
  have crowded : scanLimit < scanLimit + 1 := Nat.lt_succ_self scanLimit
  generalize scanLimit + 1 = number at *
  obtain ⟨place, listed, unscanned⟩ := crowd_unscanned crowded
  obtain ⟨changes, after, ran, reported, _⟩ :=
    @from_detectChanges (crowd number) 3 1 0 [] keyed_crowd
  refine ⟨keyed_crowd, changes, after, ran, (row place).key, ?_, fun kind => ?_⟩
  · rw [lookup_crowd listed]
    rfl
  · rw [reported, unscanned]
    cases kind <;> simp [Due]

end AkiDB.Ingestion
