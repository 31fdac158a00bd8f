import Mathlib.Data.List.DropRight
import AkiDB.Library.Runs
import AkiDB.Ingestion.Idempotency

/-! Which hashes a checker over a working database remembers: the latest ones of those marked. -/

namespace AkiDB.Ingestion
open List

/-- No statement fails. -/
def MarkFaults.none : MarkFaults where
  evict _ := false
  persist := false

namespace IdempotencyChecker

/-- Mark without a check. Room is made also for a hash that is marked already. -/
def markProcessed (hash : String) (now : Nat) (faults : MarkFaults)
    (checker : IdempotencyChecker) : IdempotencyChecker :=
  let (evicted, kept) := evictOldest checker.maxEntries checker.processed
  let remaining := evicted.foldl
    (fun rows old => if faults.evict old then rows else deleteRow old rows) checker.rows
  { checker with
    processed := if kept.contains hash then kept else kept ++ [hash]
    rows := if faults.persist then remaining else insertRow ⟨hash, now⟩ remaining }

def clear (fails : Bool) (checker : IdempotencyChecker) : IdempotencyChecker :=
  { checker with processed := [], rows := if fails then checker.rows else [] }

theorem checkAndMark_of_new {hash : String} {checker : IdempotencyChecker}
    (new : hash ∉ checker.processed) (now : Nat) (faults : MarkFaults)
    : (checker.checkAndMark hash now faults).2 = checker.markProcessed hash now faults := by
  have absent : hash ∉ (evictOldest checker.maxEntries checker.processed).2 :=
    fun kept => new (mem_evictOldest kept)
  simp [checkAndMark, markProcessed, new, absent]

theorem evictOldest_eq (maxEntries : Nat) (entries : List String)
    : evictOldest maxEntries entries = (entries.take (entries.length + 1 - maxEntries),
      entries.drop (entries.length + 1 - maxEntries)) := by
  induction entries with
  | nil => simp [evictOldest]
  | cons oldest rest ih =>
    unfold evictOldest
    split_ifs with full
    · rw [ih, length_cons, Nat.sub_add_comm full, take_succ_cons, drop_succ_cons]
    · rw [length_cons, Nat.sub_eq_zero_of_le (by omega), take_zero, drop_zero]

/-- The rows of the oldest hashes go with them. -/
theorem foldl_deleteRow {rows : List ProcessedRow} (distinct : (rows.map (·.hash)).Nodup)
    (count : Nat)
    : ((rows.map (·.hash)).take count).foldl (fun rows old => deleteRow old rows) rows
      = rows.drop count := by
  induction rows generalizing count with
  | nil => simp
  | cons row rest ih =>
    cases count with
    | zero => rfl
    | succ count =>
      obtain ⟨other, distinct⟩ := nodup_cons.mp distinct
      have first : deleteRow row.hash (row :: rest) = rest := by
        unfold deleteRow
        rw [filter_cons_of_neg (by simp), filter_eq_self]
        intro later member
        exact decide_eq_true fun same => other (mem_map.mpr ⟨later, member, same⟩)
      rw [map_cons, take_succ_cons, foldl_cons, first, ih distinct, drop_succ_cons]

end IdempotencyChecker

inductive MarkAction where
  | checkAndMark (hash : String)
  | markProcessed (hash : String)
  | unmarkHash (hash : String)
  | clear

structure Marking extends IdempotencyChecker where
  marked : List String
  now : Nat

namespace Marking
open IdempotencyChecker

def start (maxEntries now : Nat) : Marking :=
  ⟨newPersistent [] maxEntries, [], now⟩

def mark (hash : String) (marked : List String) : List String :=
  if hash ∈ marked then marked else marked ++ [hash]

variable (marking : Marking)

/-- An action, some time after the one before. -/
def step : Nat × MarkAction → Marking
  | (gap, .checkAndMark hash) =>
    ⟨(marking.checkAndMark hash (marking.now + gap) .none).2, mark hash marking.marked,
      marking.now + gap⟩
  | (gap, .markProcessed hash) =>
    ⟨marking.markProcessed hash (marking.now + gap) .none, mark hash marking.marked,
      marking.now + gap⟩
  | (gap, .unmarkHash hash) =>
    ⟨marking.unmarkHash hash false, marking.marked.filter (· ≠ hash), marking.now + gap⟩
  | (gap, .clear) => ⟨marking.clear false, [], marking.now + gap⟩

/-- Only fresh hashes are marked, and hashes are removed only while none is forgotten. -/
def Faithful : Nat × MarkAction → Prop
  | (_, .checkAndMark hash) => hash ∈ marking.marked → hash ∈ marking.processed
  | (_, .markProcessed hash) => hash ∈ marking.marked →
    hash ∈ marking.processed ∧ marking.processed.length < marking.maxEntries
  | (_, .unmarkHash _) => marking.marked.length ≤ marking.maxEntries
  | (_, .clear) => True

/-- Memory and table hold the hashes marked last, oldest first. -/
structure Kept (maxEntries : Nat) : Prop where
  limit : marking.maxEntries = max maxEntries 1
  distinct : marking.marked.Nodup
  processed : marking.processed = marking.marked.rtake marking.maxEntries
  rows : marking.rows.map (·.hash) = marking.processed
  ordered : marking.rows.Pairwise fun earlier later => earlier.createdAt ≤ later.createdAt
  past : ∀ row ∈ marking.rows, row.createdAt ≤ marking.now

namespace Kept

variable {marking} {maxEntries : Nat} {hash : String}

section Marks

variable (kept : marking.Kept maxEntries)
include kept

theorem length_eq : marking.processed.length
    = marking.marked.length - (marking.marked.length - marking.maxEntries) := by
  rw [kept.processed, rtake, length_drop]

theorem markProcessed_eq (now : Nat)
    : let count := marking.processed.length + 1 - marking.maxEntries
      let rest := marking.processed.drop count
      marking.markProcessed hash now .none = { marking.toIdempotencyChecker with
        processed := if rest.contains hash then rest else rest ++ [hash]
        rows := insertRow ⟨hash, now⟩ (marking.rows.drop count) } := by
  have distinct : (marking.rows.map (·.hash)).Nodup := by
    rw [kept.rows, kept.processed]
    exact kept.distinct.sublist (drop_sublist ..)
  have deleted := foldl_deleteRow distinct (marking.processed.length + 1 - marking.maxEntries)
  rw [kept.rows] at deleted
  simp only [IdempotencyChecker.markProcessed, evictOldest_eq, MarkFaults.none,
    Bool.false_eq_true, if_false, deleted]

theorem marks_new (new : hash ∉ marking.marked) (gap : Nat)
    : Kept ⟨marking.markProcessed hash (marking.now + gap) .none, marking.marked ++ [hash],
      marking.now + gap⟩ maxEntries := by
  have length := kept.length_eq
  have limit := kept.limit
  rw [kept.markProcessed_eq]
  dsimp only
  generalize counted : marking.processed.length + 1 - marking.maxEntries = count
  have absent : hash ∉ marking.processed.drop count := fun found =>
    new (mem_of_mem_drop (kept.processed ▸ mem_of_mem_drop found))
  have rows : insertRow ⟨hash, marking.now + gap⟩ (marking.rows.drop count)
      = marking.rows.drop count ++ [⟨hash, marking.now + gap⟩] := by
    rw [← kept.rows, ← map_drop] at absent
    refine if_neg fun found => absent ?_
    obtain ⟨row, member, same⟩ := any_eq_true.mp found
    exact mem_map.mpr ⟨row, member, of_decide_eq_true same⟩
  have past (row : ProcessedRow) (member : row ∈ marking.rows.drop count)
      : row.createdAt ≤ marking.now + gap :=
    (kept.past row (mem_of_mem_drop member)).trans (Nat.le_add_right ..)
  rw [rows, if_neg (by simpa using absent)]
  refine ⟨limit, ?_, ?_, ?_, ?_, ?_⟩
  · exact nodup_append_comm.mpr (nodup_cons.mpr ⟨new, kept.distinct⟩)
  -- the oldest hash is dropped exactly when the memory is full
  · simp only [kept.processed, rtake, drop_drop, length_append, length_singleton]
    rw [drop_append_of_le_length (by omega)]
    congr 2
    omega
  · simp only [map_append, map_drop, kept.rows, map_cons, map_nil]
  · refine pairwise_append.mpr ⟨kept.ordered.sublist (drop_sublist ..), pairwise_singleton .., ?_⟩
    exact fun row member last own => mem_singleton.mp own ▸ past row member
  · intro row member
    rcases mem_append.mp member with earlier | own
    · exact past row earlier
    · rw [mem_singleton.mp own]

theorem marks_known (known : hash ∈ marking.processed)
    (room : marking.processed.length < marking.maxEntries) (now : Nat)
    : marking.markProcessed hash now .none = marking.toIdempotencyChecker := by
  have none : marking.processed.length + 1 - marking.maxEntries = 0 := by
    omega
  have stored : (marking.rows.any (·.hash = hash)) = true := by
    rw [← kept.rows] at known
    obtain ⟨row, member, same⟩ := mem_map.mp known
    exact any_eq_true.mpr ⟨row, member, decide_eq_true same⟩
  rw [kept.markProcessed_eq]
  simp [none, known, insertRow, stored]

theorem later (gap : Nat) : Kept { marking with now := marking.now + gap } maxEntries :=
  { kept with past := fun row member => (kept.past row member).trans (Nat.le_add_right ..) }

theorem unmarks (few : marking.marked.length ≤ marking.maxEntries)
    : Kept ⟨marking.unmarkHash hash false, marking.marked.filter (· ≠ hash), marking.now⟩
      maxEntries := by
  have fewer := (length_filter_le (fun other => decide (other ≠ hash)) _).trans few
  refine ⟨kept.limit, kept.distinct.filter _, ?_, ?_, kept.ordered.filter _, ?_⟩
  · change filter (· ≠ hash) marking.processed
      = rtake (filter (· ≠ hash) marking.marked) marking.maxEntries
    rw [kept.processed, rtake, rtake, Nat.sub_eq_zero_of_le fewer, Nat.sub_eq_zero_of_le few,
      drop_zero, drop_zero]
  · change (filter _ _).map _ = filter _ _
    rw [← kept.rows, filter_map]
    rfl
  · exact fun row member => kept.past row (mem_of_mem_filter member)

/-- A checker that is opened anew over the table is the same. -/
theorem reopens : newPersistent marking.rows maxEntries = marking.toIdempotencyChecker := by
  have length := congrArg List.length kept.rows
  rw [length_map, kept.length_eq] at length
  -- all rows are loaded, and in the order in which they stand
  have all : marking.rows.length - marking.maxEntries = 0 := by
    omega
  simp only [newPersistent, kept.ordered.insertionSort_eq, ← kept.limit, all, drop_zero, kept.rows]

theorem step {action : Nat × MarkAction} (faithful : marking.Faithful action)
    : (marking.step action).Kept maxEntries := by
  obtain ⟨gap, action⟩ := action
  cases action with
  | checkAndMark hash =>
    simp only [Marking.step, mark]
    split_ifs with known
    · have unchanged : marking.checkAndMark hash (marking.now + gap) .none
          = (true, marking.toIdempotencyChecker) := if_pos (by simpa using faithful known)
      rw [unchanged]
      exact kept.later gap
    · rw [checkAndMark_of_new fun found => known (mem_of_mem_drop (kept.processed ▸ found))]
      exact kept.marks_new known gap
  | markProcessed hash =>
    simp only [Marking.step, mark]
    split_ifs with known
    · rw [kept.marks_known (faithful known).1 (faithful known).2]
      exact kept.later gap
    · exact kept.marks_new known gap
  | unmarkHash hash => exact (kept.unmarks faithful).later gap
  | clear => exact ⟨kept.limit, nodup_nil, by simp [Marking.step, clear, rtake], rfl, .nil, nofun⟩

end Marks

end Kept

/-- After every faithful run the checker remembers the latest hashes, also when opened anew. -/
theorem remembers_latest (maxEntries now : Nat) (run : { actions : List (Nat × MarkAction)
      // Runs.Along step Faithful (start maxEntries now) actions })
    : let marking := run.1.foldl step (start maxEntries now)
      marking.processed = marking.marked.rtake (max maxEntries 1)
      ∧ newPersistent marking.rows maxEntries = marking.toIdempotencyChecker := by
  have kept : (run.1.foldl step (start maxEntries now)).Kept maxEntries := by
    refine run.2.invariant
      (fun marking _ (kept : marking.Kept maxEntries) faithful => kept.step faithful) ?_
    exact ⟨rfl, nodup_nil, by simp [start, newPersistent, rtake], by simp [start, newPersistent],
      .nil, nofun⟩
  exact ⟨kept.limit ▸ kept.processed, kept.reopens⟩

theorem latest_hash_remembered
    : let marking := [(0, .checkAndMark "a"), (1, .checkAndMark "b")].foldl step (start 1 0)
      marking.processed = ["b"]
        ∧ newPersistent marking.rows 1 = marking.toIdempotencyChecker := by
  obtain ⟨latest, reopened⟩ := remembers_latest 1 0 ⟨[(0, .checkAndMark "a"),
    (1, .checkAndMark "b")], fun known => absurd known (by decide),
    fun known => absurd known (by decide), trivial⟩
  exact ⟨latest.trans (by decide), reopened⟩

/-- Marking a remembered hash forgets another one. -/
theorem known_mark_forgets
    : let marking := [(0, .checkAndMark "a"), (0, .checkAndMark "b"), (0, .markProcessed "b")].foldl
        step (start 2 0)
      marking.marked = ["a", "b"] ∧ marking.processed = ["b"] := by
  decide

end Marking

end AkiDB.Ingestion
