import AkiDB.Library.OrderedScans

/-!
Scans by the beginning of keys. A scan seeks its start and stops at the first key that begins
otherwise.
-/

namespace AkiDB.Storage
open List OrderedScans

abbrev Bytes := List (Fin 256)

/-- The rows of a store stand in the order of their keys, each key once. -/
structure RocksDbBackend where
  rows : List (Bytes × Bytes)
  sorted : rows.Pairwise fun earlier later => earlier.1 < later.1

namespace RocksDbBackend

variable (backend : RocksDbBackend) (leading start : Bytes)

def iteratorFrom (key : Bytes) : List (Bytes × Bytes) :=
  backend.rows.dropWhile (·.1 < key)

def scanPrefixLimited (limit : Option Nat) : List (Bytes × Bytes) :=
  let rows := (backend.iteratorFrom leading).takeWhile (leading <+: ·.1)
  limit.elim rows rows.take

def scanPrefixFromLimited (limit : Nat) : List (Bytes × Bytes) :=
  if limit = 0 then []
  else (((backend.iteratorFrom start).takeWhile (leading <+: ·.1)).filter (·.1 ≠ start)).take limit

/-- The method of the trait that backends may override. -/
def defaultScanFromLimited (limit : Nat) : List (Bytes × Bytes) :=
  if limit = 0 then []
  else ((backend.scanPrefixLimited leading none).filter (start < ·.1)).take limit

theorem iteratorFrom_eq (key : Bytes)
    : backend.iteratorFrom key = backend.rows.filter (key ≤ ·.1) := by
  unfold iteratorFrom
  rw [dropWhile_eq_filter]
  · exact filter_congr fun row _ => by rw [← decide_not, decide_eq_decide, not_lt]
  · refine backend.sorted.imp fun before later => ?_
    simpa using before.trans (of_decide_eq_true later)

variable {backend leading start}

theorem takeWhile_iteratorFrom {key low : Bytes} (begins : leading <+: low)
    (above : ∀ row ∈ backend.iteratorFrom key, low ≤ row.1)
    : (backend.iteratorFrom key).takeWhile (leading <+: ·.1)
      = (backend.rows.filter (key ≤ ·.1)).filter (leading <+: ·.1) := by
  rw [← iteratorFrom_eq]
  have sorted := backend.sorted.sublist (dropWhile_sublist (·.1 < key))
  refine takeWhile_eq_filter (sorted.imp_of_mem fun member _ before later => ?_)
  rw [decide_eq_true_eq] at later ⊢
  exact prefix_of_between begins later (above _ member) before.le

theorem defaultScanFromLimited_eq (limit : Nat)
    : backend.defaultScanFromLimited leading start limit
      = (backend.rows.filter fun row => leading <+: row.1 ∧ start < row.1).take limit := by
  have all : backend.scanPrefixLimited leading none = backend.rows.filter (leading <+: ·.1) := by
    refine (takeWhile_iteratorFrom (prefix_refl leading) fun row member => ?_).trans ?_
    · rw [iteratorFrom_eq, mem_filter, decide_eq_true_eq] at member
      exact member.2
    · rw [filter_filter]
      refine filter_congr fun row _ => ?_
      rw [Bool.eq_iff_iff, Bool.and_eq_true, decide_eq_true_eq, decide_eq_true_eq]
      exact and_iff_left_of_imp fun begins => not_lt.mp begins.le
  unfold defaultScanFromLimited
  split_ifs with none
  · rw [none, take_zero]
  · rw [all, filter_filter]
    congr 1
    exact filter_congr fun row _ => by simp [and_comm]

/-- The override agrees with the default method exactly if nothing is asked for, or the first key
from the start on or none begins as asked.
-/
theorem seek_scan_exact_iff (backend : RocksDbBackend) (leading start : Bytes) (limit : Nat)
    : let specified := (backend.rows.filter fun row => leading <+: row.1 ∧ start < row.1).take limit
      backend.defaultScanFromLimited leading start limit = specified
      ∧ (backend.scanPrefixFromLimited leading start limit = specified
        ↔ limit = 0 ∨ (∀ row ∈ (backend.iteratorFrom start).head?, leading <+: row.1)
          ∨ ∀ row ∈ backend.rows, leading <+: row.1 → row.1 ≤ start) := by
  refine ⟨defaultScanFromLimited_eq limit, ?_⟩
  unfold scanPrefixFromLimited
  split_ifs with none
  · exact iff_of_true (by rw [none, take_zero]) (.inl none)
  · cases found : backend.iteratorFrom start with
    | nil =>
      -- all keys come before the start
      refine iff_of_true ?_ (.inr (.inl (by simp)))
      rw [iteratorFrom_eq, filter_eq_nil_iff] at found
      rw [takeWhile_nil, filter_nil, take_nil, eq_comm, take_eq_nil_iff, filter_eq_nil_iff]
      refine .inr fun row member => ?_
      have before := found row member
      simp only [decide_eq_true_eq, not_le] at before ⊢
      exact fun after => lt_asymm before after.2
    | cons first rest =>
      by_cases begins : leading <+: first.1
      · refine iff_of_true ?_ (.inr (.inl (by simpa using begins)))
        have sorted : (backend.iteratorFrom start).Pairwise
            fun earlier later => earlier.1 < later.1 :=
          backend.sorted.sublist (dropWhile_sublist _)
        have above : ∀ row ∈ backend.iteratorFrom start, first.1 ≤ row.1 := by
          rw [found] at sorted ⊢
          intro row member
          rcases mem_cons.mp member with rfl | later
          · exact le_rfl
          · exact ((pairwise_cons.mp sorted).1 row later).le
        rw [← found, takeWhile_iteratorFrom begins above, filter_filter, filter_filter]
        congr 1
        refine filter_congr fun row _ => ?_
        rw [Bool.eq_iff_iff]
        simp only [Bool.and_eq_true, decide_eq_true_eq, lt_iff_le_and_ne, @ne_comm _ start]
        tauto
      -- the scan ends at once
      · rw [takeWhile_cons_of_neg (by simpa using begins), filter_nil, take_nil, eq_comm,
          take_eq_nil_iff, filter_eq_nil_iff]
        simp [none, begins]

/-- A key between the start and the keys asked for ends the scan. -/
theorem seek_stops_early
    : let backend : RocksDbBackend := ⟨[([97, 97], []), ([98], [])], by decide⟩
      backend.scanPrefixFromLimited [98] [97] 1 = []
      ∧ backend.defaultScanFromLimited [98] [97] 1 = [([98], [])] := by
  decide +kernel

end RocksDbBackend

end AkiDB.Storage
