import Mathlib
import AkiDB.Library.AtomicBatch

/-!
What an ordered map holds at a key after one write and after a list of writes, with keys
compared by equality.
-/

namespace KeyedMaps
open AtomicBatch List

variable {κ ν : Type} [Ord κ] [Std.TransOrd κ]

theorem lookup_empty (key : κ) : (∅ : KeyValueMap κ ν)[key]? = none := by
  simp

section Writes

variable [Std.LawfulEqOrd κ]

variable (map : KeyValueMap κ ν)

theorem lookup_filter (keep : κ → ν → Bool) (key : κ)
    : (map.filter keep)[key]? = map[key]?.filter (keep key) :=
  Std.ExtTreeMap.getElem?_filter'

variable [DecidableEq κ]

theorem lookup_insert (key other : κ) (value : ν)
    : (map.insert key value)[other]? = if key = other then some value else map[other]? := by
  simp only [Std.ExtTreeMap.getElem?_insert, Std.LawfulEqOrd.compare_eq_iff_eq]

theorem lookup_erase (key other : κ)
    : (map.erase key)[other]? = if key = other then none else map[other]? := by
  simp only [Std.ExtTreeMap.getElem?_erase, Std.LawfulEqOrd.compare_eq_iff_eq]

end Writes

section Rows

variable {ρ : Type}

/-- Writes to other keys leave a key alone. -/
theorem lookup_foldl_of_ne {key : ρ → κ} {step : KeyValueMap κ ν → ρ → KeyValueMap κ ν}
    (other : ∀ map row place, key row ≠ place → (step map row)[place]? = map[place]?)
    {rows : List ρ} {place : κ} (absent : ∀ row ∈ rows, key row ≠ place)
    (map : KeyValueMap κ ν) : (rows.foldl step map)[place]? = map[place]? := by
  induction rows generalizing map with
  | nil => rfl
  | cons row rest ih =>
    rw [foldl_cons, ih fun later member => absent later (mem_cons_of_mem _ member)]
    exact other map row place (absent row mem_cons_self)

theorem lookup_foldl_of_mem {key : ρ → κ} {write : Option ν → ρ → ν}
    {step : KeyValueMap κ ν → ρ → KeyValueMap κ ν}
    (own : ∀ map row, (step map row)[key row]? = some (write map[key row]? row))
    (other : ∀ map row place, key row ≠ place → (step map row)[place]? = map[place]?)
    {rows : List ρ} (distinct : (rows.map key).Nodup) {row : ρ} (member : row ∈ rows)
    (map : KeyValueMap κ ν)
    : (rows.foldl step map)[key row]? = some (write map[key row]? row) := by
  induction rows generalizing map with
  | nil => cases member
  | cons first rest ih =>
    rw [map_cons, nodup_cons] at distinct
    rw [foldl_cons]
    rcases mem_cons.mp member with rfl | later
    · have absent : ∀ later ∈ rest, key later ≠ key row := fun later present same =>
        distinct.1 (same ▸ mem_map_of_mem present)
      rw [lookup_foldl_of_ne other absent, own]
    · have apart : key first ≠ key row := fun same =>
        distinct.1 (same ▸ mem_map_of_mem later)
      rw [ih distinct.2 later, other map first _ apart]

variable [Std.LawfulEqOrd κ]

variable {map : KeyValueMap κ ν}

theorem ordered_values {key : ν → κ}
    (keyed : ∀ place value, map[place]? = some value → key value = place)
    : (map.toList.map Prod.snd).Pairwise
        fun left right => compare (key left) (key right) = .lt := by
  refine pairwise_map.mpr ?_
  refine Std.ExtTreeMap.ordered_keys_toList.imp_of_mem fun left right smaller => ?_
  rw [keyed _ _ (Std.ExtTreeMap.mem_toList_iff_getElem?_eq_some.mp left),
    keyed _ _ (Std.ExtTreeMap.mem_toList_iff_getElem?_eq_some.mp right)]
  exact smaller

theorem nodup_values {key : ν → κ}
    (keyed : ∀ place value, map[place]? = some value → key value = place)
    : ((map.toList.map Prod.snd).map key).Nodup := by
  refine pairwise_map.mpr ((ordered_values keyed).imp fun smaller same => ?_)
  cases smaller.symm.trans (Std.LawfulEqOrd.compare_eq_iff_eq.mpr same)

theorem mem_values {value : ν}
    : value ∈ map.toList.map Prod.snd ↔ ∃ place : κ, map[place]? = some value := by
  rw [mem_map]
  constructor
  · rintro ⟨row, member, rfl⟩
    exact ⟨row.1, Std.ExtTreeMap.mem_toList_iff_getElem?_eq_some.mp member⟩
  · rintro ⟨place, found⟩
    exact ⟨(place, value), Std.ExtTreeMap.mem_toList_iff_getElem?_eq_some.mpr found, rfl⟩

theorem lookup_foldl_values {ω : Type} (key : ω → κ) (write : Option ν → ω → ν)
    {step : KeyValueMap κ ν → ω → KeyValueMap κ ν}
    (own : ∀ map row, (step map row)[key row]? = some (write map[key row]? row))
    (other : ∀ map row place, key row ≠ place → (step map row)[place]? = map[place]?)
    {rows : KeyValueMap κ ω}
    (keyed : ∀ place value, rows[place]? = some value → key value = place)
    (map : KeyValueMap κ ν) (place : κ)
    : ((rows.toList.map Prod.snd).foldl step map)[place]?
      = rows[place]?.elim map[place]? fun row => some (write map[place]? row) := by
  cases found : rows[place]? with
  | some row =>
    obtain rfl := keyed place row found
    exact lookup_foldl_of_mem own other (nodup_values keyed) (mem_values.mpr ⟨key row, found⟩) map
  | none =>
    refine lookup_foldl_of_ne other (fun row member same => ?_) map
    obtain ⟨held, present⟩ := mem_values.mp member
    obtain rfl := keyed held row present
    rw [same, found] at present
    cases present

theorem lookup_foldl_erase [DecidableEq κ] (map : KeyValueMap κ ν) (keys : List κ) (place : κ)
    : (keys.foldl (fun map key => map.erase key) map)[place]?
      = if place ∈ keys then none else map[place]? := by
  induction keys generalizing map with
  | nil => simp
  | cons key rest ih =>
    rw [foldl_cons, ih, lookup_erase]
    by_cases later : place ∈ rest
    · simp [later]
    · by_cases same : key = place
      · simp [same]
      · simp [later, same, Ne.symm same]

end Rows

section Lists

variable [Std.LawfulEqOrd κ]

/-- The rows are the entries of the map, each once. -/
structure Lists (map : KeyValueMap κ ν) (rows : List (κ × ν)) : Prop where
  nodup : (rows.map Prod.fst).Nodup
  mem_iff : ∀ key value, (key, value) ∈ rows ↔ map[key]? = some value

theorem lists_toList (map : KeyValueMap κ ν) : Lists map map.toList where
  nodup := pairwise_map.mpr (map.distinct_keys_toList.imp fun apart same =>
    apart (Std.LawfulEqOrd.compare_eq_iff_eq.mpr same))
  mem_iff _ _ := Std.ExtTreeMap.mem_toList_iff_getElem?_eq_some

namespace Lists

variable {map : KeyValueMap κ ν} {rows others : List (κ × ν)}

omit [Std.LawfulEqOrd κ] in
theorem perm (lists : Lists map rows) (same : others.Perm rows) : Lists map others where
  nodup := (same.map _).nodup_iff.mpr lists.nodup
  mem_iff key value := same.mem_iff.trans (lists.mem_iff key value)

omit [Std.LawfulEqOrd κ] in
theorem mem_keys (lists : Lists map rows) {key : κ} : key ∈ rows.map Prod.fst ↔ key ∈ map := by
  rw [Std.ExtTreeMap.mem_iff_isSome_getElem?, Option.isSome_iff_exists, mem_map]
  constructor
  · rintro ⟨row, member, rfl⟩
    exact ⟨row.2, (lists.mem_iff row.1 row.2).mp member⟩
  · rintro ⟨value, found⟩
    exact ⟨(key, value), (lists.mem_iff key value).mpr found, rfl⟩

theorem length_eq (lists : Lists map rows) : rows.length = map.size := by
  have same : (rows.map Prod.fst).Perm map.keys :=
    (perm_ext_iff_of_nodup lists.nodup Std.ExtTreeMap.nodup_keys).mpr fun key =>
      lists.mem_keys.trans Std.ExtTreeMap.mem_keys.symm
  rw [← Std.ExtTreeMap.length_keys, ← same.length_eq, length_map]

theorem foldl_insert [DecidableEq κ] (lists : Lists map rows)
    : rows.foldl (fun written row => written.insert row.1 row.2) ∅ = map := by
  refine Std.ExtTreeMap.ext_getElem? fun key => ?_
  have own : ∀ (written : KeyValueMap κ ν) (row : κ × ν),
      (written.insert row.1 row.2)[row.1]? = some row.2 := fun written row => by
    rw [lookup_insert, if_pos rfl]
  have other : ∀ (written : KeyValueMap κ ν) (row : κ × ν) (place : κ), row.1 ≠ place →
      (written.insert row.1 row.2)[place]? = written[place]? := fun written row place apart => by
    rw [lookup_insert, if_neg apart]
  cases found : map[key]? with
  | some value =>
    have member := (lists.mem_iff key value).mpr found
    exact @lookup_foldl_of_mem _ _ _ _ _ Prod.fst (fun _ row => row.2) _ own other _ lists.nodup _
      member ∅
  | none =>
    rw [lookup_foldl_of_ne other (fun row member same => ?_) ∅, lookup_empty]
    rw [← same, (lists.mem_iff row.1 row.2).mp member] at found
    cases found

end Lists

end Lists

section Associations

variable {κ ν : Type} [BEq κ] [LawfulBEq κ] {rows : List (κ × ν)} {row : κ × ν}

theorem lookup_row [DecidableEq κ] (key other : κ) (value : ν) (rest : List (κ × ν))
    : ((key, value) :: rest).lookup other
      = if key = other then some value else rest.lookup other := by
  by_cases same : key = other
  · simp [same]
  · have differs : (other == key) = false := by simpa using Ne.symm same
    rw [lookup_cons, differs, if_neg same]

theorem lookup_of_mem (distinct : (rows.map Prod.fst).Nodup) (member : row ∈ rows)
    : rows.lookup row.1 = some row.2 := by
  classical
  induction rows with
  | nil => cases member
  | cons first rest ih =>
    obtain ⟨fresh, others⟩ := nodup_cons.mp distinct
    obtain ⟨key, value⟩ := first
    rw [lookup_row]
    rcases mem_cons.mp member with rfl | later
    · exact if_pos rfl
    · rw [if_neg, ih others later]
      exact fun same => fresh (mem_map.mpr ⟨row, later, same.symm⟩)

end Associations

end KeyedMaps
