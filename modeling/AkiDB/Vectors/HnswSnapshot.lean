import AkiDB.Library.Checked
import AkiDB.Vectors.IndexRuns

/-!
Snapshots of the index as files, and which of the indexes that runs reach come back from theirs.
-/

namespace AkiDB.Vectors
open AkiDB.Common AtomicBatch KeyedMaps Checked List

structure GraphOptions where
  m : Nat
  efConstruction : Nat

/-- What the library stores of a graph. -/
structure Graph where
  dimensions : Nat
  connectivity : Nat
  expansionAdd : Nat
  metric : DistanceMetric
  scalar : VectorPrecision
  capacity : Nat
  contents : KeyValueMap Nat (List Score)

/-- Tombstones as bytes: how many, and the bits that are set. -/
structure TombstoneBytes where
  length : Nat
  bits : Finset Nat
  deriving DecidableEq

/-- What is outside: the parameters that the library reports, and the digests of the files. -/
structure SnapshotTools where
  connectivity : Nat → Nat
  expansionAdd : Nat → Nat
  graphDigest : Graph → String
  mappingsDigest : List (String × Nat) → String
  tombstonesDigest : TombstoneBytes → String
  exactDigest : List (Nat × List Score) → String
  exactDigest_ne : ∀ rows, exactDigest rows ≠ ""

structure SnapshotManifest where
  schemaVersion : Nat
  dimensions : Nat
  connectivity : Nat
  efConstruction : Nat
  efSearch : Nat
  precision : String
  metric : String
  nextId : Nat
  vectorCount : Nat
  tombstoneCapacity : Nat
  deletedCount : Nat
  payloadSha256 : String
  graphSha256 : String
  mappingsSha256 : String
  tombstonesSha256 : String
  exactSha256 : String

structure SnapshotFiles where
  manifest : SnapshotManifest
  graph : Graph
  mappings : List (String × Nat)
  tombstones : TombstoneBytes
  exact_ : Option (List (Nat × List Score))

structure SizedIndex where
  index : HnswIndex
  graphCapacity : Nat
  tombstoneCapacity : Nat

def schemaVersion : Nat := 1

def precisionName : VectorPrecision → String
  | .f32 => "f32"
  | .f16 => "f16"
  | .i8 => "i8"

def metricName : DistanceMetric → String
  | .cosine => "cosine"
  | .l2 => "l2"
  | .innerProduct => "ip"

/-! Saving -/

/-- The rows of the forward map by internal id, after checking them against the other maps. -/
def encodeMappings (index : HnswIndex) : Except AkiDbError (List (String × Nat)) := do
  rejectIf (index.idMapping.size ≠ index.reverseMapping.size
      ∨ index.idMapping.size ≠ index.contents.size)
    (.indexError "HNSW id maps are out of sync with the graph and cannot be snapshotted")
  rejectIf (∃ row ∈ index.idMapping.toList, index.nextId ≤ row.2)
    (.indexError "HNSW next id does not cover every mapped vector")
  checkEach (fun row => do
    rejectIf (index.reverseMapping[row.2]? ≠ some row.1)
      (.indexError s!"HNSW forward and reverse maps disagree for '{row.1}'")
    rejectIf (row.2 ∉ index.contents)
      (.indexError s!"HNSW mapping {row.2} is missing from the graph")) index.idMapping.toList
  return index.idMapping.toList.insertionSort fun left right =>
    left.2 < right.2 ∨ (left.2 = right.2 ∧ left.1 ≤ right.1)

def encodeExactRow (config : HnswConfig) (index : HnswIndex) (internalId : Nat)
    : Except AkiDbError (Nat × List Score) := do
  let vector ← okOr index.exactVectors[internalId]? (.indexError
    s!"I8 HNSW index is missing the exact vector for internal id {internalId}")
  rejectIf (vector.length ≠ config.dimensions) (.indexError
    s!"exact vector {internalId} has dimension {vector.length}, expected {config.dimensions}")
  return (internalId, vector)

def encodeExact (config : HnswConfig) (index : HnswIndex)
    : Except AkiDbError (List (Nat × List Score)) := do
  let rows ← (index.idMapping.toList.map Prod.snd).mapM (encodeExactRow config index)
  return rows.insertionSort fun left right => left.1 ≤ right.1

section Files

variable (tools : SnapshotTools) (config : HnswConfig) (options : GraphOptions)

variable (stored : SizedIndex)

def SizedIndex.graph : Graph where
  dimensions := config.dimensions
  connectivity := tools.connectivity options.m
  expansionAdd := tools.expansionAdd options.efConstruction
  metric := config.metric
  scalar := config.precision
  capacity := stored.graphCapacity
  contents := stored.index.contents

def SizedIndex.tombstoneBytes : TombstoneBytes where
  length := (stored.tombstoneCapacity + 7) / 8
  bits := stored.index.tombstones

def SizedIndex.files (payload : String) (mappings : List (String × Nat))
    (exactRows : Option (List (Nat × List Score))) : SnapshotFiles where
  manifest := {
    schemaVersion := schemaVersion
    dimensions := config.dimensions
    connectivity := (stored.graph tools config options).connectivity
    efConstruction := (stored.graph tools config options).expansionAdd
    efSearch := config.efSearch
    precision := precisionName (stored.graph tools config options).scalar
    metric := metricName config.metric
    nextId := stored.index.nextId
    vectorCount := stored.index.contents.size
    tombstoneCapacity := stored.tombstoneCapacity
    deletedCount := stored.index.tombstones.card
    payloadSha256 := payload
    graphSha256 := tools.graphDigest (stored.graph tools config options)
    mappingsSha256 := tools.mappingsDigest mappings
    tombstonesSha256 := tools.tombstonesDigest stored.tombstoneBytes
    exactSha256 := (exactRows.map tools.exactDigest).getD "" }
  graph := stored.graph tools config options
  mappings := mappings
  tombstones := stored.tombstoneBytes
  exact_ := exactRows

def save (payload : String) : Except AkiDbError SnapshotFiles := do
  let mappings ← encodeMappings stored.index
  let exactRows ← if precisionName config.precision = "i8" then
      (encodeExact config stored.index).map some
    else pure none
  return stored.files tools config options payload mappings exactRows

/-! Loading -/

def loadMapping (nextId : Nat) (graph : Graph)
    (maps : KeyValueMap String Nat × KeyValueMap Nat String) (row : String × Nat)
    : Except AkiDbError (KeyValueMap String Nat × KeyValueMap Nat String) := do
  rejectIf (row.1 = "" ∨ nextId ≤ row.2)
    (.indexError s!"HNSW snapshot mapping for '{row.1}' is outside the id space")
  rejectIf (row.2 ∈ maps.2 ∨ row.1 ∈ maps.1)
    (.indexError "HNSW snapshot contains a duplicate id mapping")
  rejectIf (row.2 ∉ graph.contents)
    (.indexError s!"HNSW snapshot mapping {row.2} is missing from the graph")
  return (maps.1.insert row.1 row.2, maps.2.insert row.2 row.1)

def TombstoneBitset.tryRestore (capacity deletedCount : Nat) (bytes : TombstoneBytes)
    : Except AkiDbError (Finset Nat) := do
  rejectIf (bytes.length ≠ (capacity + 7) / 8)
    (.indexError s!"HNSW tombstone length {bytes.length} does not match capacity {capacity}")
  rejectIf (∃ bit ∈ bytes.bits, capacity ≤ bit)
    (.indexError "HNSW tombstone has bits set past its capacity")
  rejectIf (bytes.bits.card ≠ deletedCount) (.indexError
    s!"HNSW tombstone deleted count {deletedCount} does not match {bytes.bits.card} set bits")
  return bytes.bits

def decodeRow (dimensions : Nat) (state : Finset Nat × KeyValueMap Nat (List Score))
    (row : Nat × List Score) : Except AkiDbError (Finset Nat × KeyValueMap Nat (List Score)) := do
  rejectIf (row.2.length ≠ dimensions ∨ row.1 ∉ state.1)
    (.indexError s!"HNSW snapshot exact vector {row.1} does not match the id map")
  return (state.1.erase row.1, state.2.insert row.1 row.2)

/-- The slots of exact vectors; those of other ids stay empty. -/
def decodeExact (rows : List (Nat × List Score)) (idMapping : KeyValueMap String Nat)
    (dimensions : Nat) : Except AkiDbError (KeyValueMap Nat (List Score)) := do
  rejectIf (rows.length ≠ idMapping.size)
    (.indexError "HNSW snapshot exact vector count does not match the graph")
  let state ← foldEach (decodeRow dimensions) ((idMapping.toList.map Prod.snd).toFinset, ∅) rows
  rejectIf (state.1 ≠ ∅) (.indexError "HNSW snapshot is missing an exact vector")
  return state.2

variable (files : SnapshotFiles)

def loadExact (idMapping : KeyValueMap String Nat)
    : Except AkiDbError (KeyValueMap Nat (List Score)) :=
  if files.manifest.precision = "i8" then do
    rejectIf (files.manifest.exactSha256 = "")
      (.indexError "I8 HNSW snapshot is missing exact f32 vectors")
    let rows ← okOr files.exact_ (.io "read HNSW snapshot")
    rejectIf (tools.exactDigest rows ≠ files.manifest.exactSha256)
      (.indexError "HNSW snapshot checksum mismatch")
    decodeExact rows idMapping files.manifest.dimensions
  else do
    rejectIf (files.manifest.exactSha256 ≠ "")
      (.indexError "HNSW snapshot has exact vectors for a non-i8 index")
    return ∅

/-- The checks of the manifest and of the graph against what is expected. -/
def checkFiles (payload : String) : Except AkiDbError Unit := do
  let manifest := files.manifest
  rejectIf (manifest.schemaVersion ≠ schemaVersion)
    (.indexError s!"unsupported HNSW snapshot schema {manifest.schemaVersion}")
  rejectIf (manifest.dimensions ≠ config.dimensions ∨ manifest.connectivity ≠ options.m
      ∨ manifest.efConstruction ≠ options.efConstruction
      ∨ manifest.precision ≠ precisionName config.precision
      ∨ manifest.metric ≠ metricName config.metric)
    (.indexError "HNSW snapshot configuration does not match the requested index")
  rejectIf (manifest.payloadSha256 ≠ payload)
    (.indexError "HNSW snapshot payload fingerprint does not match durable vectors")
  rejectIf (tools.graphDigest files.graph ≠ manifest.graphSha256
      ∨ tools.mappingsDigest files.mappings ≠ manifest.mappingsSha256
      ∨ tools.tombstonesDigest files.tombstones ≠ manifest.tombstonesSha256)
    (.indexError "HNSW snapshot checksum mismatch")
  rejectIf (files.graph.dimensions ≠ config.dimensions
      ∨ files.graph.contents.size ≠ manifest.vectorCount
      ∨ files.graph.metric ≠ config.metric ∨ files.graph.scalar ≠ config.precision)
    (.indexError "restored USearch graph does not match the HNSW snapshot manifest")
  let connectivity := files.graph.connectivity
  rejectIf (connectivity ≠ 0 ∧ connectivity ≠ options.m) (.indexError
    s!"restored USearch connectivity {connectivity} does not match requested M {options.m}")

def load (payload : String) : Except AkiDbError SizedIndex := do
  let manifest := files.manifest
  checkFiles tools config options files payload
  rejectIf (files.mappings.length ≠ manifest.vectorCount)
    (.indexError "HNSW snapshot mapping count does not match the graph")
  let maps ← foldEach (loadMapping manifest.nextId files.graph) (∅, ∅) files.mappings
  let tombstones ← TombstoneBitset.tryRestore manifest.tombstoneCapacity manifest.deletedCount
    files.tombstones
  rejectIf (manifest.vectorCount < tombstones.card)
    (.indexError "HNSW snapshot has more tombstones than vectors")
  rejectIf (∃ internalId ∈ maps.2.keys, manifest.tombstoneCapacity ≤ internalId)
    (.indexError "HNSW snapshot tombstone capacity does not cover every vector")
  let exactVectors ← loadExact tools files maps.1
  return {
    index := {
      contents := files.graph.contents
      idMapping := maps.1
      reverseMapping := maps.2
      tombstones := tombstones
      nextId := manifest.nextId
      exactVectors := exactVectors }
    graphCapacity := files.graph.capacity
    tombstoneCapacity := manifest.tombstoneCapacity }

end Files

/-! Runs with capacities -/

structure SizedRun extends IndexRun where
  graphCapacity : Nat
  tombstoneCapacity : Nat

/-- Actions of the index. Reserving fails, or grants more than asked for. -/
inductive SizedAction where
  | insert (faults : UsearchFaults) (reserve : Option Nat) (id : String) (vector : List Score)
  | delete (internalId : Nat)
  | rebuild (removeFails : Nat → Bool)

namespace SizedRun

def start (capacity extra : Nat) : SizedRun :=
  { IndexRun.start with graphCapacity := capacity + extra, tombstoneCapacity := capacity }

def ensureCapacityFor (run : SizedRun) (reserve : Option Nat) (required : Nat) : SizedRun :=
  if required ≤ run.graphCapacity then
    { run with tombstoneCapacity := max run.tombstoneCapacity required }
  else match reserve with
    | none => run
    | some extra =>
      let capacity := max (run.graphCapacity * 2) (required + 1024)
      { run with graphCapacity := capacity + extra, tombstoneCapacity := capacity }

def action (run : SizedRun) : SizedAction → IndexAction
  | .insert faults _ id vector => .insert faults id vector
  | .delete internalId => .delete internalId (if internalId < run.tombstoneCapacity then none
      else some (.invalidParameter
        s!"Internal ID {internalId} exceeds capacity {run.tombstoneCapacity}"))
  | .rebuild removeFails => .rebuild removeFails

def perform (config : HnswConfig) (run : SizedRun) (action : SizedAction) : SizedRun :=
  let next := { run with toIndexRun := run.toIndexRun.perform config (run.action action) }
  match action with
  | .insert _ reserve _ _ =>
    -- capacity is ensured once an internal id has been allocated
    if next.index.nextId = run.index.nextId then next
    else next.ensureCapacityFor reserve next.index.nextId
  | _ => next

def Answered (run : SizedRun) (action : SizedAction) : Prop :=
  run.toIndexRun.Answered (run.action action)

instance (run : SizedRun) (action : SizedAction) : Decidable (run.Answered action) :=
  inferInstanceAs (Decidable (IndexRun.Answered _ _))

def stored (run : SizedRun) : SizedIndex where
  index := run.index
  graphCapacity := run.graphCapacity
  tombstoneCapacity := run.tombstoneCapacity

/-- Every mapped id is held and covered by the tombstones, which are no more than the vectors. -/
structure Restorable (tools : SnapshotTools) (options : GraphOptions) (run : SizedRun) : Prop where
  connectivity : tools.connectivity options.m = options.m
  expansion : tools.expansionAdd options.efConstruction = options.efConstruction
  mapped : ∀ row ∈ run.index.idMapping.toList,
    row.1 ≠ "" ∧ row.2 ∈ run.index.contents ∧ row.2 < run.tombstoneCapacity
  tombstones : run.index.tombstones.card ≤ run.index.contents.size

/-- Exact vectors are kept for the mapped ids of an 8-bit index, and for no others. -/
structure ExactKept (config : HnswConfig) (index : HnswIndex) : Prop where
  kept : config.precision = .i8 →
    ∀ internalId, internalId ∈ index.exactVectors ↔ internalId ∈ index.reverseMapping
  none : config.precision ≠ .i8 → index.exactVectors = ∅
  length : ∀ (internalId : Nat) (vector : List Score),
    index.exactVectors[internalId]? = some vector → vector.length = config.dimensions

/-- What holds of every run. -/
structure Sound (config : HnswConfig) (run : SizedRun) : Prop where
  recorded : run.toIndexRun.Recorded
  exact_ : ExactKept config run.index
  covered : ∀ internalId ∈ run.index.tombstones, internalId < run.tombstoneCapacity

end SizedRun

namespace SizedRun

variable {config : HnswConfig} {run : SizedRun} {index : HnswIndex}

variable {vector : List Score} {faults : UsearchFaults}

variable {id : String} {internalId : Nat}

theorem ExactKept.store (exactKept : ExactKept config index)
    (long : vector.length = config.dimensions)
    : ExactKept config (index.store config id internalId vector) := by
  unfold HnswIndex.store HnswIndex.rememberExact
  by_cases quantized : config.precision = .i8
  · rw [if_pos quantized]
    refine ⟨fun _ other => ?_, fun wrong => absurd quantized wrong, fun other held found => ?_⟩
    · simp only [Std.ExtTreeMap.mem_insert, exactKept.kept quantized]
    · dsimp only at found
      rw [lookup_insert] at found
      split at found
      · cases found
        exact long
      · exact exactKept.length other held found
  · rw [if_neg quantized]
    refine ⟨fun wrong => absurd wrong quantized, exactKept.none, exactKept.length⟩

variable {next : HnswIndex} {answer : Except AkiDbError Nat}

theorem ExactKept.insertion (exactKept : ExactKept config index)
    (kind : HnswIndex.Insertion config faults index id vector answer next)
    (long : (∃ internalId, answer = .ok internalId) → vector.length = config.dimensions)
    : ExactKept config next := by
  cases kind with
  | rejected _ _ kept => exact kept ▸ exactKept
  | upsertFailed _ _ _ _ left =>
    exact left ▸ ⟨exactKept.kept, exactKept.none, exactKept.length⟩
  | upserted internalId _ answered left =>
    have prepared : ExactKept config (index.prepareUpsert faults internalId) :=
      ⟨exactKept.kept, exactKept.none, exactKept.length⟩
    exact left ▸ prepared.store (long ⟨_, answered⟩)
  | addFailed _ _ _ left => exact left ▸ ⟨exactKept.kept, exactKept.none, exactKept.length⟩
  | added _ answered left =>
    have allocated : ExactKept config { index with nextId := index.nextId + 1 } :=
      ⟨exactKept.kept, exactKept.none, exactKept.length⟩
    have stored : ExactKept config
        (({ index with nextId := index.nextId + 1 } : HnswIndex).store config id index.nextId
          vector) := allocated.store (long ⟨_, answered⟩)
    exact left ▸ ⟨stored.kept, stored.none, stored.length⟩

theorem mem_filter_iff {ν : Type} {map : KeyValueMap Nat ν} {keep : Nat → Bool} {key : Nat}
    : key ∈ map.filter (fun key _ => keep key) ↔ key ∈ map ∧ keep key := by
  simp only [Std.ExtTreeMap.mem_iff_isSome_getElem?, lookup_filter]
  cases map[key]? <;> simp [Option.filter]

theorem ExactKept.triggerRebuild (exactKept : ExactKept config index)
    (removeFails : Nat → Bool) : ExactKept config (index.triggerRebuild removeFails) := by
  unfold HnswIndex.triggerRebuild
  refine ⟨fun quantized other => ?_, fun plain => ?_, fun other held found => ?_⟩
  · have stays {ν : Type} (map : KeyValueMap Nat ν) :=
      @mem_filter_iff ν map (fun internalId => !index.removedBy removeFails internalId) other
    exact (stays _).trans
      ((and_congr_left fun _ => exactKept.kept quantized other).trans (stays _).symm)
  · dsimp only
    rw [exactKept.none plain]
    refine Std.ExtTreeMap.ext_getElem? fun key => ?_
    rw [lookup_filter, lookup_empty]
    rfl
  · dsimp only at found
    rw [lookup_filter, Option.filter_eq_some_iff] at found
    exact exactKept.length other held found.1

theorem tombstones_insertion (kind : HnswIndex.Insertion config faults index id vector answer next)
    : next.tombstones ⊆ index.tombstones := by
  cases kind with
  | rejected _ _ kept => exact kept ▸ Finset.Subset.refl _
  | upsertFailed _ _ _ _ left => exact left ▸ Finset.erase_subset ..
  | upserted _ _ _ left =>
    rw [left, HnswIndex.store_tombstones]
    exact Finset.erase_subset ..
  | addFailed _ _ _ left => exact left ▸ Finset.Subset.refl _
  | added _ _ left => rw [left, HnswIndex.added_tombstones]

theorem length_of_insert (answered : (index.insert config faults id vector).1 = .ok internalId)
    : vector.length = config.dimensions := by
  by_contra different
  rw [HnswIndex.insert, if_pos different] at answered
  cases answered

theorem covered_ensureCapacityFor (reserve : Option Nat)
    (covered : ∀ internalId ∈ run.index.tombstones, internalId < run.tombstoneCapacity)
    (allocated : ∀ internalId ∈ run.index.tombstones, internalId < run.index.nextId)
    : ∀ internalId ∈ run.index.tombstones,
        internalId < (run.ensureCapacityFor reserve run.index.nextId).tombstoneCapacity := by
  intro internalId member
  have below := covered internalId member
  have given := allocated internalId member
  unfold ensureCapacityFor
  split
  · exact lt_max_of_lt_left below
  · cases reserve with
    | none => exact below
    | some extra => exact lt_max_of_lt_right (by omega)

@[simp]
theorem toIndexRun_ensureCapacityFor (reserve : Option Nat) (required : Nat)
    : (run.ensureCapacityFor reserve required).toIndexRun = run.toIndexRun := by
  unfold ensureCapacityFor
  split
  · rfl
  · split <;> rfl

theorem toIndexRun_perform (action : SizedAction)
    : (run.perform config action).toIndexRun
      = run.toIndexRun.perform config (run.action action) := by
  unfold perform
  cases action with
  | insert faults reserve id vector =>
    dsimp only
    split <;> simp
  | delete | rebuild => rfl

theorem Sound.start (capacity extra : Nat) : Sound config (start capacity extra) where
  recorded := IndexRun.Recorded.start
  exact_ := by
    refine ⟨fun _ other => ?_, fun _ => rfl, fun other held found => ?_⟩
    · simp [SizedRun.start, IndexRun.start, HnswIndex.empty]
    · simp [SizedRun.start, IndexRun.start, HnswIndex.empty] at found
  covered _ member := by cases member

/-- Every answered action keeps the run sound. -/
theorem Sound.perform (sound : run.Sound config) {action} (answered : run.Answered action)
    : (run.perform config action).Sound config := by
  have recorded : (run.perform config action).toIndexRun.Recorded := by
    rw [toIndexRun_perform]
    exact sound.recorded.perform answered
  refine ⟨recorded, ?_, ?_⟩
  · rw [toIndexRun_perform]
    cases action with
    | insert faults reserve id vector =>
      exact sound.exact_.insertion (run.index.insertion config faults id vector)
        fun ⟨_, succeeded⟩ => length_of_insert succeeded
    | delete internalId =>
      unfold SizedRun.action IndexRun.perform HnswIndex.delete
      dsimp only
      split <;> exact ⟨sound.exact_.kept, sound.exact_.none, sound.exact_.length⟩
    | rebuild removeFails => exact sound.exact_.triggerRebuild removeFails
  · cases action with
    | insert faults reserve id vector =>
      have kept := tombstones_insertion (run.index.insertion config faults id vector)
      unfold SizedRun.perform
      dsimp only
      split
      · exact fun internalId member => sound.covered internalId (kept member)
      · intro internalId member
        rw [toIndexRun_ensureCapacityFor] at member
        refine covered_ensureCapacityFor reserve ?_ ?_ internalId member
        · exact fun internalId member => sound.covered internalId (kept member)
        · exact (sound.recorded.perform answered).wellFormed.tombstone_lt
    | delete internalId =>
      unfold SizedRun.perform SizedRun.action IndexRun.perform HnswIndex.delete
      dsimp only
      split
      · exact sound.covered
      · next fits =>
        intro other member
        rcases Finset.mem_insert.mp member with rfl | earlier
        · by_contra beyond
          rw [if_neg beyond] at fits
          cases fits
        · exact sound.covered other earlier
    | rebuild removeFails =>
      exact fun internalId member => sound.covered internalId (Finset.mem_filter.mp member).1

end SizedRun

namespace HnswIndex

variable {index : HnswIndex} {rows : List (String × Nat)}

theorem WellFormed.lists_reverse (wellFormed : index.WellFormed)
    (lists : Lists index.idMapping rows)
    : Lists index.reverseMapping (rows.map Prod.swap) where
  nodup := by
    rw [map_map]
    refine Nodup.map_on ?_ (Nodup.of_map _ lists.nodup)
    rintro ⟨left, internalId⟩ leftIn ⟨right, other⟩ rightIn same
    obtain rfl : internalId = other := same
    have found := (wellFormed.mapped_iff _ _).mp ((lists.mem_iff _ _).mp leftIn)
    rw [(wellFormed.mapped_iff _ _).mp ((lists.mem_iff _ _).mp rightIn)] at found
    rw [Option.some.inj found]
  mem_iff internalId id := by
    rw [← wellFormed.mapped_iff, ← lists.mem_iff]
    constructor
    · intro member
      obtain ⟨row, isRow, same⟩ := mem_map.mp member
      cases same
      exact isRow
    · exact fun member => mem_map.mpr ⟨_, member, rfl⟩

theorem WellFormed.size_contents_iff (wellFormed : index.WellFormed)
    (lists : Lists index.idMapping rows)
    : index.contents.size = rows.length ↔ ∀ row ∈ rows, row.2 ∈ index.contents := by
  have mapped : index.contents.keys ⊆ rows.map Prod.snd := by
    intro internalId member
    rw [Std.ExtTreeMap.mem_keys, Std.ExtTreeMap.mem_iff_isSome_getElem?,
      Option.isSome_iff_exists] at member
    obtain ⟨vector, found⟩ := member
    obtain ⟨id, reverse⟩ := wellFormed.held internalId vector found
    have listed := (lists.mem_iff _ _).mpr ((wellFormed.mapped_iff id internalId).mpr reverse)
    exact mem_map.mpr ⟨_, listed, rfl⟩
  have distinct : (rows.map Prod.snd).Nodup := by
    have swapped := (wellFormed.lists_reverse lists).nodup
    rw [map_map] at swapped
    exact swapped
  have counted : rows.length = (rows.map Prod.snd).length := (length_map _).symm
  rw [← Std.ExtTreeMap.length_keys, counted]
  constructor
  · intro same row isRow
    have perm := (subperm_of_subset Std.ExtTreeMap.nodup_keys mapped).perm_of_length_le same.ge
    exact Std.ExtTreeMap.mem_keys.mp (perm.mem_iff.mpr (mem_map_of_mem isRow))
  · intro held
    refine Nat.le_antisymm (subperm_of_subset Std.ExtTreeMap.nodup_keys mapped).length_le ?_
    refine (subperm_of_subset distinct fun internalId member => ?_).length_le
    obtain ⟨row, isRow, rfl⟩ := mem_map.mp member
    exact Std.ExtTreeMap.mem_keys.mpr (held row isRow)

end HnswIndex

section Rows

variable {config : HnswConfig} {index : HnswIndex}

theorem encodeMappings_eq_ok (wellFormed : index.WellFormed) {rows}
    : encodeMappings index = .ok rows
      ↔ (∀ row ∈ index.idMapping.toList, row.2 ∈ index.contents)
        ∧ index.idMapping.toList.insertionSort (fun left right =>
          left.2 < right.2 ∨ (left.2 = right.2 ∧ left.1 ≤ right.1)) = rows := by
  have lists := lists_toList index.idMapping
  have sizes := wellFormed.size_contents_iff lists
  have reversed := (wellFormed.lists_reverse lists).length_eq
  rw [length_map, lists.length_eq] at reversed
  rw [lists.length_eq] at sizes
  simp only [encodeMappings, seq_eq_ok, rejectIf_eq_ok, checkEach_eq_ok, pure_eq_ok]
  constructor
  · rintro ⟨-, -, checked, written⟩
    exact ⟨fun row member => not_not.mp (checked row member).2, written⟩
  · rintro ⟨held, written⟩
    refine ⟨fun apart => ?_, ?_, fun row member => ⟨?_, not_not.mpr (held row member)⟩, written⟩
    · exact apart.elim (absurd reversed) (absurd (sizes.mpr held).symm)
    · rintro ⟨row, member, beyond⟩
      have reverse := (wellFormed.mapped_iff _ _).mp ((lists.mem_iff row.1 row.2).mp member)
      exact absurd (wellFormed.mapped_lt _ _ reverse) (Nat.not_lt.mpr beyond)
    · exact not_not.mpr ((wellFormed.mapped_iff _ _).mp ((lists.mem_iff row.1 row.2).mp member))

theorem loadMapping_eq_ok {nextId : Nat} {graph maps next row}
    : loadMapping nextId graph maps row = .ok next
      ↔ (row.1 ≠ "" ∧ row.2 < nextId) ∧ (row.2 ∉ maps.2 ∧ row.1 ∉ maps.1)
        ∧ row.2 ∈ graph.contents
        ∧ (maps.1.insert row.1 row.2, maps.2.insert row.2 row.1) = next := by
  simp only [loadMapping, seq_eq_ok, rejectIf_eq_ok, pure_eq_ok, not_or, not_not, Nat.not_le]

theorem foldEach_loadMapping {nextId : Nat} {graph} (rows : List (String × Nat))
    (maps result : KeyValueMap String Nat × KeyValueMap Nat String)
    (ids : (rows.map Prod.fst).Nodup) (internalIds : (rows.map Prod.snd).Nodup)
    (fresh : ∀ row ∈ rows, row.1 ∉ maps.1 ∧ row.2 ∉ maps.2)
    : foldEach (loadMapping nextId graph) maps rows = .ok result
      ↔ (∀ row ∈ rows, row.1 ≠ "" ∧ row.2 < nextId ∧ row.2 ∈ graph.contents)
        ∧ (rows.foldl (fun written row => written.insert row.1 row.2) maps.1,
          (rows.map Prod.swap).foldl (fun written row => written.insert row.1 row.2) maps.2)
          = result := by
  induction rows generalizing maps with
  | nil => simp [foldEach]
  | cons row rest ih =>
    obtain ⟨freshId, restIds⟩ := nodup_cons.mp ids
    obtain ⟨freshInternal, restInternal⟩ := nodup_cons.mp internalIds
    obtain ⟨newId, newInternal⟩ := fresh row mem_cons_self
    have later : ∀ other ∈ rest, other.1 ∉ maps.1.insert row.1 row.2
        ∧ other.2 ∉ maps.2.insert row.2 row.1 := by
      intro other member
      obtain ⟨absent, absentInternal⟩ := fresh other (mem_cons_of_mem _ member)
      simp only [Std.ExtTreeMap.mem_insert, Std.LawfulEqOrd.compare_eq_iff_eq, not_or]
      exact ⟨⟨fun same => freshId (same ▸ mem_map_of_mem member), absent⟩,
        fun same => freshInternal (same ▸ mem_map_of_mem member), absentInternal⟩
    have step := ih (maps.1.insert row.1 row.2, maps.2.insert row.2 row.1) restIds restInternal
      later
    rw [foldEach, bind_eq_ok, forall_mem_cons, foldl_cons, map_cons, foldl_cons]
    constructor
    · rintro ⟨next, read, continued⟩
      obtain ⟨inside, -, held, rfl⟩ := loadMapping_eq_ok.mp read
      obtain ⟨restInside, written⟩ := step.mp continued
      exact ⟨⟨⟨inside.1, inside.2, held⟩, restInside⟩, written⟩
    · rintro ⟨⟨inside, restInside⟩, written⟩
      exact ⟨_, loadMapping_eq_ok.mpr ⟨⟨inside.1, inside.2.1⟩, ⟨newInternal, newId⟩,
        inside.2.2, rfl⟩, step.mpr ⟨restInside, written⟩⟩

theorem encodeExactRow_eq_ok {internalId : Nat} {row}
    : encodeExactRow config index internalId = .ok row
      ↔ row.1 = internalId ∧ index.exactVectors[internalId]? = some row.2
        ∧ row.2.length = config.dimensions := by
  simp only [encodeExactRow, bind_eq_ok, okOr_eq_ok, exists_unit, rejectIf_eq_ok, pure_eq_ok,
    not_not]
  constructor
  · rintro ⟨vector, found, long, rfl⟩
    exact ⟨rfl, found, long⟩
  · rintro ⟨rfl, found, long⟩
    exact ⟨row.2, found, long, rfl⟩

theorem encodeExact_lists (wellFormed : index.WellFormed)
    (exactKept : SizedRun.ExactKept config index) (quantized : config.precision = .i8)
    : ∃ rows, encodeExact config index = .ok rows ∧ Lists index.exactVectors rows := by
  have lists := lists_toList index.idMapping
  have mapped : ∀ internalId, internalId ∈ index.idMapping.toList.map Prod.snd
      ↔ internalId ∈ index.exactVectors := by
    intro internalId
    rw [exactKept.kept quantized, mem_values, Std.ExtTreeMap.mem_iff_isSome_getElem?,
      Option.isSome_iff_exists]
    exact exists_congr fun id => wellFormed.mapped_iff id internalId
  have distinct : (index.idMapping.toList.map Prod.snd).Nodup := by
    have swapped := (wellFormed.lists_reverse lists).nodup
    rw [map_map] at swapped
    exact swapped
  have each : ∀ internalId ∈ index.idMapping.toList.map Prod.snd,
      ∃ row, encodeExactRow config index internalId = .ok row := by
    intro internalId member
    have present := (mapped internalId).mp member
    rw [Std.ExtTreeMap.mem_iff_isSome_getElem?, Option.isSome_iff_exists] at present
    obtain ⟨vector, found⟩ := present
    exact ⟨(internalId, vector), encodeExactRow_eq_ok.mpr ⟨rfl, found, exactKept.length _ _ found⟩⟩
  obtain ⟨rows, read⟩ := exists_mapM_eq_ok each
  have pairs := mapM_eq_ok.mp read
  have ids : rows.map Prod.fst = index.idMapping.toList.map Prod.snd := by
    have same := pairs.imp fun internalId row written => (encodeExactRow_eq_ok.mp written).1.symm
    rw [← forall₂_map_right_iff, forall₂_eq_eq_eq] at same
    exact same.symm
  refine ⟨rows.insertionSort fun left right => left.1 ≤ right.1, ?_, ?_⟩
  · rw [encodeExact, read, ok_bind]
    rfl
  · refine Lists.perm ⟨ids ▸ distinct, fun key value => ?_⟩ (perm_insertionSort _ _)
    constructor
    · intro member
      obtain ⟨internalId, _, written⟩ := mem_of_partner pairs member
      obtain ⟨rfl, found, -⟩ := encodeExactRow_eq_ok.mp written
      exact found
    · intro found
      have member : key ∈ index.idMapping.toList.map Prod.snd := (mapped key).mpr (by
        rw [Std.ExtTreeMap.mem_iff_isSome_getElem?, found]
        rfl)
      obtain ⟨row, isRow, written⟩ := partner_of_mem pairs member
      obtain ⟨rfl, same, -⟩ := encodeExactRow_eq_ok.mp written
      cases same.symm.trans found
      exact isRow

theorem foldEach_decodeRow {dimensions : Nat} (rows : List (Nat × List Score))
    (slots : KeyValueMap Nat (List Score)) (ids : (rows.map Prod.fst).Nodup)
    (long : ∀ row ∈ rows, row.2.length = dimensions)
    : foldEach (decodeRow dimensions) ((rows.map Prod.fst).toFinset, slots) rows
      = .ok (∅, rows.foldl (fun written row => written.insert row.1 row.2) slots) := by
  induction rows generalizing slots with
  | nil => rfl
  | cons row rest ih =>
    obtain ⟨fresh, restIds⟩ := nodup_cons.mp ids
    have remaining : ((row :: rest).map Prod.fst).toFinset.erase row.1
        = (rest.map Prod.fst).toFinset := by
      rw [map_cons, toFinset_cons, Finset.erase_insert fun member => fresh (mem_toFinset.mp member)]
    have read : decodeRow dimensions (((row :: rest).map Prod.fst).toFinset, slots) row
        = .ok ((rest.map Prod.fst).toFinset, slots.insert row.1 row.2) := by
      rw [← remaining]
      simp [decodeRow, rejectIf, long row mem_cons_self]
    rw [foldEach, read, ok_bind, foldl_cons]
    exact ih _ restIds fun other member => long other (mem_cons_of_mem _ member)

theorem decodeExact_eq (wellFormed : index.WellFormed) (exactKept : SizedRun.ExactKept config index)
    (quantized : config.precision = .i8) {rows} (lists : Lists index.exactVectors rows)
    : decodeExact rows index.idMapping config.dimensions = .ok index.exactVectors := by
  have reversed := wellFormed.lists_reverse (lists_toList index.idMapping)
  have distinct := reversed.nodup
  rw [map_map] at distinct
  have same : (rows.map Prod.fst).Perm (index.idMapping.toList.map Prod.snd) := by
    refine (perm_ext_iff_of_nodup lists.nodup distinct).mpr fun internalId => ?_
    rw [lists.mem_keys, exactKept.kept quantized, ← reversed.mem_keys, map_map]
  have counted : rows.length = index.idMapping.size := by
    rw [← (lists_toList index.idMapping).length_eq]
    simpa using same.length_eq
  have expected : (index.idMapping.toList.map Prod.snd).toFinset
      = (rows.map Prod.fst).toFinset := (toFinset_eq_of_perm _ _ same).symm
  have long : ∀ row ∈ rows, row.2.length = config.dimensions := fun row member =>
    exactKept.length row.1 row.2 ((lists.mem_iff row.1 row.2).mp member)
  rw [decodeExact, rejectIf, if_neg (not_not.mpr counted), ok_bind, expected,
    foldEach_decodeRow rows ∅ lists.nodup long, ok_bind, rejectIf, if_neg (by simp), ok_bind,
    lists.foldl_insert]
  rfl

end Rows

namespace SizedRun

variable {tools : SnapshotTools} {config : HnswConfig} {options : GraphOptions} {run : SizedRun}
variable {payload : String}

theorem precisionName_eq_i8 {precision}
    : precisionName precision = "i8" ↔ precision = .i8 := by
  cases precision <;> decide

theorem save_eq_ok (sound : run.Sound config)
    (held : ∀ row ∈ run.index.idMapping.toList, row.2 ∈ run.index.contents)
    : ∃ mappings exactRows, save tools config options run.stored payload
          = .ok (run.stored.files tools config options payload mappings exactRows)
        ∧ Lists run.index.idMapping mappings
        ∧ if config.precision = .i8
          then ∃ rows, exactRows = some rows ∧ Lists run.index.exactVectors rows
          else exactRows = none := by
  have wellFormed := sound.recorded.wellFormed
  have mapped := (encodeMappings_eq_ok wellFormed).mpr ⟨held, rfl⟩
  have lists := (lists_toList run.index.idMapping).perm (perm_insertionSort
    (fun left right => left.2 < right.2 ∨ (left.2 = right.2 ∧ left.1 ≤ right.1)) _)
  by_cases quantized : config.precision = .i8
  · obtain ⟨rows, written, listed⟩ := encodeExact_lists wellFormed sound.exact_ quantized
    refine ⟨_, some rows, ?_, lists, ?_⟩
    · rw [save, stored, mapped, ok_bind, if_pos (precisionName_eq_i8.mpr quantized), written]
      rfl
    · rw [if_pos quantized]
      exact ⟨rows, rfl, listed⟩
  · refine ⟨_, none, ?_, lists, ?_⟩
    · rw [save, stored, mapped, ok_bind, if_neg fun named =>
        quantized (precisionName_eq_i8.mp named)]
      rfl
    · rw [if_neg quantized]

variable {mappings : List (String × Nat)} {exactRows : Option (List (Nat × List Score))}

theorem loadExact_eq (sound : run.Sound config) (listed : if config.precision = .i8
      then ∃ rows, exactRows = some rows ∧ Lists run.index.exactVectors rows
      else exactRows = none)
    : loadExact tools (run.stored.files tools config options payload mappings exactRows)
        run.index.idMapping
      = .ok run.index.exactVectors := by
  unfold loadExact
  by_cases quantized : config.precision = .i8
  · rw [if_pos quantized] at listed
    obtain ⟨rows, rfl, lists⟩ := listed
    have named : (run.stored.files tools config options payload mappings
        (some rows)).manifest.precision = "i8" := precisionName_eq_i8.mpr quantized
    rw [if_pos named]
    simp only [SizedIndex.files, Option.map_some, Option.getD_some, rejectIf,
      tools.exactDigest_ne rows, if_false, ok_bind, okOr, ne_eq, not_true_eq_false]
    exact decodeExact_eq sound.recorded.wellFormed sound.exact_ quantized lists
  · rw [if_neg quantized] at listed
    have named : (run.stored.files tools config options payload mappings
        exactRows).manifest.precision ≠ "i8" := fun named =>
      quantized (precisionName_eq_i8.mp named)
    rw [if_neg named, listed, sound.exact_.none quantized]
    simp [SizedIndex.files, rejectIf]

theorem checkFiles_eq_ok
    : checkFiles tools config options
        (run.stored.files tools config options payload mappings exactRows) payload = .ok ()
      ↔ tools.connectivity options.m = options.m
        ∧ tools.expansionAdd options.efConstruction = options.efConstruction := by
  simp only [checkFiles, seq_eq_ok, SizedIndex.files, SizedIndex.graph]
  simp
  tauto

theorem tryRestore_eq_ok {capacity deletedCount : Nat} {bytes tombstones}
    : TombstoneBitset.tryRestore capacity deletedCount bytes = .ok tombstones
      ↔ bytes.length = (capacity + 7) / 8 ∧ (∀ bit ∈ bytes.bits, bit < capacity)
        ∧ bytes.bits.card = deletedCount ∧ bytes.bits = tombstones := by
  simp only [TombstoneBitset.tryRestore, seq_eq_ok, rejectIf_eq_ok, pure_eq_ok, not_not,
    not_exists, not_and, Nat.not_le]

/-- Reading the rows of the maps gives the maps. -/
theorem foldEach_mappings (sound : run.Sound config) (lists : Lists run.index.idMapping mappings)
    {maps graph}
    : foldEach (loadMapping run.index.nextId graph) (∅, ∅) mappings = .ok maps
      ↔ (∀ row ∈ mappings, row.1 ≠ "" ∧ row.2 ∈ graph.contents)
        ∧ (run.index.idMapping, run.index.reverseMapping) = maps := by
  have wellFormed := sound.recorded.wellFormed
  have reversed := wellFormed.lists_reverse lists
  have internalIds := reversed.nodup
  rw [map_map] at internalIds
  rw [foldEach_loadMapping mappings (∅, ∅) maps lists.nodup internalIds (by simp),
    lists.foldl_insert, reversed.foldl_insert]
  refine and_congr_left fun _ => forall₂_congr fun row member => ?_
  have allocated := wellFormed.mapped_lt _ _
    ((wellFormed.mapped_iff _ _).mp ((lists.mem_iff row.1 row.2).mp member))
  simp [allocated]

/-- What was saved loads exactly if it is restorable. -/
theorem load_eq_ok (sound : run.Sound config)
    (held : ∀ row ∈ run.index.idMapping.toList, row.2 ∈ run.index.contents)
    (lists : Lists run.index.idMapping mappings) (listed : if config.precision = .i8
      then ∃ rows, exactRows = some rows ∧ Lists run.index.exactVectors rows
      else exactRows = none)
    : load tools config options (run.stored.files tools config options payload mappings exactRows)
        payload = .ok run.stored
      ↔ run.Restorable tools options := by
  have wellFormed := sound.recorded.wellFormed
  have sameRows : ∀ row, row ∈ mappings ↔ row ∈ run.index.idMapping.toList := fun row =>
    (lists.mem_iff row.1 row.2).trans ((lists_toList _).mem_iff row.1 row.2).symm
  have counted : mappings.length = run.index.contents.size := by
    rw [lists.length_eq, ← (lists_toList run.index.idMapping).length_eq]
    exact ((wellFormed.size_contents_iff (lists_toList _)).mpr held).symm
  have reversed := wellFormed.lists_reverse (lists_toList run.index.idMapping)
  have keys : ∀ internalId, internalId ∈ run.index.reverseMapping.keys
      ↔ ∃ row ∈ run.index.idMapping.toList, row.2 = internalId := by
    intro internalId
    rw [Std.ExtTreeMap.mem_keys, ← reversed.mem_keys, map_map, mem_map]
    rfl
  rw [load, seq_eq_ok, checkFiles_eq_ok, seq_eq_ok, rejectIf_eq_ok, bind_eq_ok]
  constructor
  · rintro ⟨⟨connectivity, expansion⟩, -, maps, read, continued⟩
    obtain ⟨named, rfl⟩ := (foldEach_mappings sound lists).mp read
    obtain ⟨tombstones, restored, continued⟩ := bind_eq_ok.mp continued
    obtain ⟨-, -, -, rfl⟩ := tryRestore_eq_ok.mp restored
    obtain ⟨few, continued⟩ := seq_eq_ok.mp continued
    obtain ⟨covered, -⟩ := seq_eq_ok.mp continued
    rw [rejectIf_eq_ok] at few covered
    refine ⟨connectivity, expansion, fun row member => ?_, Nat.not_lt.mp few⟩
    obtain ⟨nonempty, present⟩ := named row ((sameRows row).mpr member)
    refine ⟨nonempty, present, Nat.not_le.mp fun beyond => covered ⟨row.2, ?_, beyond⟩⟩
    exact (keys row.2).mpr ⟨row, member, rfl⟩
  · rintro ⟨connectivity, expansion, mapped, few⟩
    refine ⟨⟨connectivity, expansion⟩, not_not.mpr counted, _,
      (foldEach_mappings sound lists).mpr ⟨fun row member => ?_, rfl⟩, ?_⟩
    · obtain ⟨nonempty, present, -⟩ := mapped row ((sameRows row).mp member)
      exact ⟨nonempty, present⟩
    · refine bind_eq_ok.mpr ⟨_, tryRestore_eq_ok.mpr ⟨rfl, sound.covered, rfl, rfl⟩, ?_⟩
      refine seq_eq_ok.mpr ⟨rejectIf_eq_ok.mpr (Nat.not_lt.mpr few), ?_⟩
      refine seq_eq_ok.mpr ⟨rejectIf_eq_ok.mpr ?_, ?_⟩
      · rintro ⟨internalId, member, beyond⟩
        obtain ⟨row, isRow, rfl⟩ := (keys internalId).mp member
        exact absurd (mapped row isRow).2.2 (Nat.not_lt.mpr beyond)
      · rw [loadExact_eq sound listed, ok_bind]
        rfl

/-- In every run that deletes only ids it was answered, the index comes back from its snapshot
exactly if it is restorable.
Witness: saving needs every mapped id to be held.
-/
theorem snapshot_restores_iff (tools : SnapshotTools) (config : HnswConfig)
    (options : GraphOptions) (payload : String) (capacity extra : Nat)
    (actions : List SizedAction)
    (answered : Runs.Along (perform config) Answered (start capacity extra) actions)
    : let run := actions.foldl (perform config) (start capacity extra)
      (save tools config options run.stored payload >>= fun files =>
          load tools config options files payload) = .ok run.stored
      ↔ run.Restorable tools options := by
  dsimp only
  have sound : (actions.foldl (perform config) (start capacity extra)).Sound config :=
    Runs.Along.invariant (fun _ _ kept answers => kept.perform answers) answered
      (Sound.start capacity extra)
  generalize actions.foldl (perform config) (start capacity extra) = run at sound ⊢
  by_cases held : ∀ row ∈ run.index.idMapping.toList, row.2 ∈ run.index.contents
  · obtain ⟨mappings, exactRows, saved, lists, listed⟩ :=
      @save_eq_ok tools config options run payload sound held
    rw [saved, ok_bind]
    exact load_eq_ok sound held lists listed
  · refine iff_of_false (fun restored => held ?_) fun restorable => held fun row member =>
      (restorable.mapped row member).2.1
    obtain ⟨files, saved, -⟩ := bind_eq_ok.mp restored
    obtain ⟨mappings, encoded, -⟩ := bind_eq_ok.mp saved
    exact ((encodeMappings_eq_ok sound.recorded.wellFormed).mp encoded).1

def sampleTools : SnapshotTools where
  connectivity := id
  expansionAdd := id
  graphDigest _ := "graph"
  mappingsDigest _ := "mappings"
  tombstonesDigest _ := "tombstones"
  exactDigest _ := "exact"
  exactDigest_ne _ := by decide

def sampleRun (actions : List SizedAction) : SizedRun :=
  actions.foldl (perform { IndexRun.lineConfig with precision := .i8 }) (start 1 0)

/-- An insertion that fails, growth, an upsert, a deletion and a rebuild. -/
def grownRun : List SizedAction :=
  [.insert { addFails := some "out of memory" } none "a" [.finite 1],
    .insert {} (some 0) "a" [.finite 1], .insert {} none "b" [.finite 2],
    .insert {} none "b" [.finite 3], .delete 1, .rebuild fun _ => false, .delete 2]

theorem grown_run_restored
    : (save sampleTools { IndexRun.lineConfig with precision := .i8 } ⟨16, 128⟩
          (sampleRun grownRun).stored "payload" >>= fun files =>
        load sampleTools { IndexRun.lineConfig with precision := .i8 } ⟨16, 128⟩ files "payload")
      = .ok (sampleRun grownRun).stored :=
  (snapshot_restores_iff sampleTools { IndexRun.lineConfig with precision := .i8 } ⟨16, 128⟩
    "payload" 1 0 grownRun (by decide +kernel)).mpr
    ⟨rfl, rfl, by decide +kernel, by decide +kernel⟩

/-- The error of saving an index and loading it again. -/
def restoreError (actions : List SizedAction) : Option AkiDbError :=
  errorOf (save sampleTools { IndexRun.lineConfig with precision := .i8 } ⟨16, 128⟩
    (sampleRun actions).stored "payload" >>= fun files =>
      load sampleTools { IndexRun.lineConfig with precision := .i8 } ⟨16, 128⟩ files "payload")

/-- A deletion of a removed id, an empty external id, and an upsert that failed. -/
theorem snapshots_refused
    : restoreError [.insert {} none "a" [.finite 1], .delete 0, .rebuild fun _ => false, .delete 0]
        = some (.indexError "HNSW snapshot has more tombstones than vectors")
      ∧ restoreError [.insert {} none "" [.finite 1]]
        = some (.indexError "HNSW snapshot mapping for '' is outside the id space")
      ∧ restoreError [.insert {} none "a" [.finite 1],
          .insert { addFails := some "out of memory" } none "a" [.finite 2]]
        = some (.indexError
          "HNSW id maps are out of sync with the graph and cannot be snapshotted") := by
  decide +kernel

end SizedRun

end AkiDB.Vectors
