import Mathlib.Data.List.Sort

/-! The idempotency checker: hashes of processed documents, in memory and in a table. -/

namespace AkiDB.Ingestion
open List

/-- A row of the table; rows stand in the order of their insertion. -/
structure ProcessedRow where
  hash : String
  createdAt : Nat
deriving DecidableEq

/-- The hashes in memory stand in the order of their insertion. -/
structure IdempotencyChecker where
  processed : List String
  rows : List ProcessedRow
  maxEntries : Nat
deriving DecidableEq

/-- The statements of a mark that fail; failures are logged and passed over. -/
structure MarkFaults where
  evict : String → Bool
  persist : Bool

namespace IdempotencyChecker

/-- A checker over an existing table: the newest rows are loaded, oldest first. -/
def newPersistent (rows : List ProcessedRow) (maxEntries : Nat) : IdempotencyChecker :=
  let newest := rows.insertionSort fun earlier later => earlier.createdAt ≤ later.createdAt
  { processed := (newest.drop (newest.length - max maxEntries 1)).map (·.hash)
    rows
    maxEntries := max maxEntries 1 }

/-- Take the oldest entries until there is room: what goes and what stays. -/
def evictOldest (maxEntries : Nat) : List String → List String × List String
  | [] => ([], [])
  | oldest :: rest =>
    if maxEntries ≤ rest.length + 1 then
      let (evicted, kept) := evictOldest maxEntries rest
      (oldest :: evicted, kept)
    else ([], oldest :: rest)

def deleteRow (hash : String) (rows : List ProcessedRow) : List ProcessedRow :=
  rows.filter (·.hash ≠ hash)

def insertRow (row : ProcessedRow) (rows : List ProcessedRow) : List ProcessedRow :=
  if rows.any (·.hash = row.hash) then rows else rows ++ [row]

/-- Check and mark in one operation: whether the hash was marked before. -/
def checkAndMark (hash : String) (now : Nat) (faults : MarkFaults)
    (checker : IdempotencyChecker) : Bool × IdempotencyChecker :=
  if checker.processed.contains hash then (true, checker)
  else
    let (evicted, kept) := evictOldest checker.maxEntries checker.processed
    let remaining := evicted.foldl
      (fun rows old => if faults.evict old then rows else deleteRow old rows) checker.rows
    let rows := if faults.persist then remaining else insertRow ⟨hash, now⟩ remaining
    (false, { checker with processed := kept ++ [hash], rows })

/-- Remove a mark. The table keeps its row if the statement fails. -/
def unmarkHash (hash : String) (fails : Bool) (checker : IdempotencyChecker)
    : IdempotencyChecker :=
  { checker with
    processed := checker.processed.filter (· ≠ hash)
    rows := if fails then checker.rows else deleteRow hash checker.rows }

/-- The hash is marked, in memory or in the table. -/
def Remembers (checker : IdempotencyChecker) (hash : String) : Prop :=
  hash ∈ checker.processed ∨ hash ∈ checker.rows.map (·.hash)

variable {hash : String} {rows : List ProcessedRow}

variable {maxEntries : Nat}

theorem mem_evictOldest {entries} (kept : hash ∈ (evictOldest maxEntries entries).2)
    : hash ∈ entries := by
  induction entries with
  | nil => exact kept
  | cons oldest rest ih =>
    unfold evictOldest at kept
    split at kept
    · exact mem_cons_of_mem _ (ih kept)
    · exact kept

variable {removed : String}

theorem mem_deleteRow
    : hash ∈ (deleteRow removed rows).map (·.hash)
      ↔ hash ∈ rows.map (·.hash) ∧ hash ≠ removed := by
  simp only [deleteRow, mem_map, mem_filter, decide_eq_true_eq]
  constructor
  · rintro ⟨row, ⟨found, other⟩, rfl⟩
    exact ⟨⟨row, found, rfl⟩, other⟩
  · rintro ⟨⟨row, found, rfl⟩, other⟩
    exact ⟨row, ⟨found, other⟩, rfl⟩

/-- Evictions only remove rows. -/
theorem mem_of_evicted {fails : String → Bool} {evicted : List String}
    (found : hash ∈ (evicted.foldl
      (fun rows old => if fails old then rows else deleteRow old rows) rows).map (·.hash))
    : hash ∈ rows.map (·.hash) := by
  induction evicted generalizing rows with
  | nil => exact found
  | cons old rest ih =>
    have earlier : hash ∈ (if fails old then rows else deleteRow old rows).map (·.hash) :=
      ih found
    split at earlier
    · exact earlier
    · exact (mem_deleteRow.mp earlier).1

theorem mem_insertRow {row} (found : hash ∈ (insertRow row rows).map (·.hash))
    : hash = row.hash ∨ hash ∈ rows.map (·.hash) := by
  unfold insertRow at found
  split at found
  · exact .inr found
  · simpa [or_comm] using found

variable {checker : IdempotencyChecker}

theorem remembers_checkAndMark {marked : String} {now : Nat} {faults : MarkFaults}
    (remembers : (checker.checkAndMark marked now faults).2.Remembers hash)
    : hash = marked ∨ checker.Remembers hash := by
  unfold checkAndMark at remembers
  split at remembers
  · exact .inr remembers
  · rcases remembers with inMemory | inTable
    · rcases mem_append.mp inMemory with kept | new
      · exact .inr (.inl (mem_evictOldest kept))
      · exact .inl (mem_singleton.mp new)
    · dsimp only at inTable
      split at inTable
      · exact .inr (.inr (mem_of_evicted inTable))
      · exact (mem_insertRow inTable).imp_right fun row => .inr (mem_of_evicted row)

theorem remembers_unmarkHash (remembers : (checker.unmarkHash removed false).Remembers hash)
    : hash ≠ removed ∧ checker.Remembers hash := by
  rcases remembers with inMemory | inTable
  · obtain ⟨found, other⟩ := mem_filter.mp inMemory
    exact ⟨of_decide_eq_true other, .inl found⟩
  · obtain ⟨found, other⟩ := mem_deleteRow.mp inTable
    exact ⟨other, .inr found⟩

theorem remembers_newPersistent (remembers : (newPersistent rows maxEntries).Remembers hash)
    : hash ∈ rows.map (·.hash) := by
  rcases remembers with inMemory | inTable
  · obtain ⟨row, loaded, rfl⟩ := mem_map.mp inMemory
    exact mem_map_of_mem ((mem_insertionSort _).mp (mem_of_mem_drop loaded))
  · exact inTable

end IdempotencyChecker

end AkiDB.Ingestion
