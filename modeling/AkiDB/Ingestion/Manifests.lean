import AkiDB.Ingestion.Documents
import AkiDB.Library.AtomicBatch
import AkiDB.Library.Effects

/-! The manifest of source objects, the stages of a deletion, and the comparison with a listing. -/

namespace AkiDB.Ingestion
open AtomicBatch Effects

/-- The stages of a deletion; times are milliseconds. -/
inductive DeleteState where
  | active
  | markedForDeletion (detectedAt : Int)
  | confirmedMissing (confirmedAt : Int)
  | hardDeleteScheduled (scheduledFor : Int)
deriving DecidableEq

namespace DeleteState

def isTombstoned : DeleteState → Bool
  | confirmedMissing _ | hardDeleteScheduled _ => true
  | _ => false

def isReadyForHardDelete (now : Int) : DeleteState → Bool
  | hardDeleteScheduled scheduledFor => scheduledFor ≤ now
  | _ => false

end DeleteState

structure ObjectManifest where
  key : String
  etag : String
  lastSeenEpoch : Nat
  missingCount : Nat
  deleteState : DeleteState
deriving DecidableEq

namespace ObjectManifest

def new (key etag : String) : ObjectManifest where
  key
  etag
  lastSeenEpoch := 0
  missingCount := 0
  deleteState := .active

/-- Mark as seen. Only a mark for deletion is taken back. -/
def markSeen (epoch : Nat) (manifest : ObjectManifest) : ObjectManifest :=
  { manifest with
    lastSeenEpoch := epoch
    missingCount := 0
    deleteState := match manifest.deleteState with
      | .markedForDeletion _ => .active
      | state => state }

/-- Count one more miss, up to the largest byte. -/
def incrementMissingWithThreshold (threshold : Nat) (now : Int) (manifest : ObjectManifest)
    : ObjectManifest :=
  let missingCount := min (manifest.missingCount + 1) 255
  let confirmed := max threshold 1 ≤ missingCount
  match manifest.deleteState with
  | .active =>
    { manifest with
      missingCount
      deleteState := if confirmed then .confirmedMissing now else .markedForDeletion now }
  | .markedForDeletion detectedAt =>
    { manifest with
      missingCount
      deleteState := if confirmed then .confirmedMissing now else .markedForDeletion detectedAt }
  | _ => manifest

def scheduleHardDelete (delayDays : Nat) (now : Int) (manifest : ObjectManifest)
    : ObjectManifest :=
  match manifest.deleteState with
  | .confirmedMissing _ =>
    { manifest with deleteState := .hardDeleteScheduled (now + delayDays * 86400000) }
  | _ => manifest

def transitionToConfirmed (now : Int) (manifest : ObjectManifest) : ObjectManifest :=
  { manifest with deleteState := .confirmedMissing now }

end ObjectManifest

/-- A row under the prefix of manifests: a manifest, the epoch that older versions kept there, or
bytes that do not decode. The last two come with the error of the decoder. -/
inductive ManifestRow where
  | manifest (manifest : ObjectManifest)
  | legacyEpoch (reason : String)
  | undecodable (reason : String)

def ManifestRow.decoded : ManifestRow → Option ObjectManifest
  | .manifest stored => some stored
  | .legacyEpoch _ | .undecodable _ => none

/-- The stored rows, and how many more writes succeed, if one is going to fail. -/
structure ManifestStore where
  entries : KeyValueMap String ManifestRow
  writesLeft : Option Nat

abbrev ManifestM := Effect ManifestStore IngestionError

def scanLimit : Nat := 100000

/-- Rows that are no manifests are skipped, and count for the limit of the scan. -/
def ManifestStore.scanAll (store : ManifestStore) : List ObjectManifest :=
  ((store.entries.toList.map Prod.snd).take scanLimit).filterMap ManifestRow.decoded

/-- One write, unless it is the one that fails. -/
def write (change : KeyValueMap String ManifestRow → KeyValueMap String ManifestRow)
    : ManifestM Unit := do
  match (← get).writesLeft with
  | some 0 => throw (.manifest "Failed to write manifest")
  | writesLeft =>
    modify fun store => ⟨change store.entries, writesLeft.map (· - 1)⟩

def upsert (manifest : ObjectManifest) : ManifestM Unit :=
  write fun entries => entries.insert manifest.key (.manifest manifest)

def getManifest (key : String) : ManifestM (Option ObjectManifest) := do
  match (← get).entries[key]? with
  | none => return none
  | some (.manifest manifest) => return some manifest
  | some (.legacyEpoch reason) | some (.undecodable reason) =>
    throw (.manifest ("Failed to deserialize manifest: " ++ reason))

def incrementMissing (threshold : Nat) (now : Int) (key : String) : ManifestM Nat := do
  match ← getManifest key with
  | none => throw (.manifest ("Manifest not found: " ++ key))
  | some manifest =>
    let counted := manifest.incrementMissingWithThreshold threshold now
    upsert counted
    return counted.missingCount

def markSeen (epoch : Nat) (key : String) : ManifestM Bool := do
  match ← getManifest key with
  | none => return false
  | some manifest =>
    upsert (manifest.markSeen epoch)
    return true

structure StorageObject where
  key : String
  etag : Option String
deriving DecidableEq

inductive ChangeType where
  | new | updated | missing | confirmedDelete
deriving DecidableEq

structure StorageChange where
  key : String
  etag : Option String
  changeType : ChangeType
deriving DecidableEq

/-- The changes of the listed objects; known ones are marked as seen. -/
def detectListed (known : List ObjectManifest) (epoch : Nat)
    : List StorageObject → ManifestM (List StorageChange)
  | [] => return []
  | object :: rest =>
    match known.find? (·.key = object.key) with
    | none => do
      return ⟨object.key, object.etag, .new⟩ :: (← detectListed known epoch rest)
    | some manifest => do
      let _ ← markSeen epoch object.key
      let later ← detectListed known epoch rest
      return if object.etag ≠ some manifest.etag then
        ⟨object.key, object.etag, .updated⟩ :: later else later

/-- The changes of objects that are known and not listed; each counts a miss. -/
def detectMissing (threshold : Nat) (now : Int)
    : List ObjectManifest → ManifestM (List StorageChange)
  | [] => return []
  | manifest :: rest => do
    let count ← incrementMissing threshold now manifest.key
    let changeType := if threshold ≤ count then .confirmedDelete else .missing
    return ⟨manifest.key, none, changeType⟩ :: (← detectMissing threshold now rest)

def detectChanges (threshold : Nat) (now : Int) (listing : List StorageObject) (epoch : Nat)
    : ManifestM (List StorageChange) := do
  let known := (← get).scanAll
  let listed ← detectListed known epoch listing
  let unlisted := known.filter fun manifest =>
    !(listing.any (·.key = manifest.key)) && !manifest.deleteState.isTombstoned
  let missing ← detectMissing threshold now unlisted
  return listed ++ missing

structure LifecycleConfig where
  deletionThreshold : Nat
  hardDeleteDelayDays : Nat
  hardDeleteEnabled : Bool

def handleMissing (config : LifecycleConfig) (now : Int) (key : String) : ManifestM Bool := do
  let count ← incrementMissing config.deletionThreshold now key
  if config.deletionThreshold ≤ count then
    match ← getManifest key with
    | none => return false
    | some manifest =>
      upsert (manifest.transitionToConfirmed now)
      return true
  else return false

def scheduleHardDelete (config : LifecycleConfig) (now : Int) (key : String)
    : ManifestM Bool := do
  match ← getManifest key with
  | none => return false
  | some manifest =>
    match manifest.deleteState with
    | .confirmedMissing _ =>
      upsert (manifest.scheduleHardDelete config.hardDeleteDelayDays now)
      return true
    | _ => return false

def recoverDocument (key etag : String) (epoch : Nat) : ManifestM Bool := do
  match ← getManifest key with
  | none => return false
  | some manifest =>
    match manifest.deleteState with
    | .hardDeleteScheduled _ => return false
    | _ =>
      upsert { manifest.markSeen epoch with etag }
      return true

/-- The documents that the backend deletes; it may refuse one, and a manifest may stay. -/
def processHardDeletes (config : LifecycleConfig) (now : Int)
    (refuses keepsManifest : String → Bool) (store : ManifestStore)
    : List String × ManifestStore :=
  if config.hardDeleteEnabled then
    let ready := store.scanAll.filter (·.deleteState.isReadyForHardDelete now)
    let deleted := (ready.map (·.key)).filter (!refuses ·)
    (deleted, { store with
      entries := (deleted.filter (!keepsManifest ·)).foldl (·.erase ·) store.entries })
  else ([], store)

end AkiDB.Ingestion
