import AkiDB.Library.GroupedCut
import Mathlib.Data.List.Dedup
import Mathlib.Data.Prod.Lex
import Mathlib.Order.Basic

/-! The best entries of a list of keyed weights, and which parts of the list have the same ones. -/

namespace TopK
open GroupedCut List

theorem then_ne_gt {α : Type} [LinearOrder α] {left right : α} {next}
    : (compare left right).then next ≠ .gt ↔ left < right ∨ left = right ∧ next ≠ .gt := by
  rcases lt_trichotomy left right with smaller | same | greater
  · simp [compare_lt_iff_lt.mpr smaller, smaller]
  · simp [same]
  · simp [compare_gt_iff_gt.mpr greater, greater.ne', greater.not_gt]

variable {κ ω : Type} [LinearOrder κ] [LinearOrder ω]

/-- The place of an entry: lower places come first. -/
def place (entry : κ × ω) : Lex (ωᵒᵈ × κ) :=
  toLex (OrderDual.toDual entry.2, entry.1)

variable {left right entry : κ × ω} {kept entries : List (κ × ω)} {number : Nat}

theorem place_lt_iff
    : place left < place right
      ↔ right.2 < left.2 ∨ (left.2 = right.2 ∧ left.1 < right.1) := by
  simp [place, Prod.Lex.toLex_lt_toLex]

theorem place_le_iff
    : place left ≤ place right
      ↔ right.2 < left.2 ∨ (left.2 = right.2 ∧ left.1 ≤ right.1) := by
  simp [place, Prod.Lex.toLex_le_toLex]

omit [LinearOrder κ] [LinearOrder ω] in
theorem place_injective : Function.Injective (place (κ := κ) (ω := ω)) := by
  intro left right same
  have parts := Prod.mk.inj (toLex.injective same)
  exact Prod.ext parts.2 (OrderDual.toDual.injective parts.1)

theorem place_le_of_key (key : left.1 = right.1)
    : place left ≤ place right ↔ right.2 ≤ left.2 := by
  rw [place_le_iff, key]
  constructor
  · intro placed
    rcases placed with lighter | same
    · exact le_of_lt lighter
    · exact le_of_eq same.1.symm
  · intro lighter
    rcases lt_or_eq_of_le lighter with strictly | same
    · exact .inl strictly
    · exact .inr ⟨same.symm, le_refl _⟩

/-- No other entry of the key is heavier. -/
def IsBest (entries : List (κ × ω)) (entry : κ × ω) : Prop :=
  ∀ other ∈ entries, other.1 = entry.1 → other.2 ≤ entry.2

instance (entries : List (κ × ω)) (entry : κ × ω) : Decidable (IsBest entries entry) :=
  inferInstanceAs (Decidable (∀ other ∈ entries, _ → _))

def bestPerKey (entries : List (κ × ω)) : List (κ × ω) :=
  entries.dedup.filter fun entry => IsBest entries entry

def ranked (entries : List (κ × ω)) : List (κ × ω) :=
  (bestPerKey entries).insertionSort fun left right => place left ≤ place right

def topK (number : Nat) (entries : List (κ × ω)) : List (κ × ω) :=
  (ranked entries).take number

/-- The keys of kept entries that come before the given one. -/
def keysBefore (kept : List (κ × ω)) (entry : κ × ω) : Finset κ :=
  ((kept.filter fun other => place other < place entry).map Prod.fst).toFinset

/-- The kept entries have its key with no less weight, or enough other keys before it. -/
def Covered (number : Nat) (kept : List (κ × ω)) (entry : κ × ω) : Prop :=
  (∃ other ∈ kept, other.1 = entry.1 ∧ entry.2 ≤ other.2)
  ∨ number ≤ (keysBefore kept entry).card

instance (number : Nat) (kept : List (κ × ω)) (entry : κ × ω)
    : Decidable (Covered number kept entry) :=
  inferInstanceAs (Decidable (_ ∨ _))

theorem mem_keysBefore {key : κ}
    : key ∈ keysBefore kept entry
      ↔ ∃ other ∈ kept, other.1 = key ∧ place other < place entry := by
  simp only [keysBefore, mem_toFinset, mem_map, mem_filter, decide_eq_true_eq]
  constructor
  · intro found
    obtain ⟨other, ⟨member, before⟩, named⟩ := found
    exact ⟨other, member, named, before⟩
  · intro found
    obtain ⟨other, member, named, before⟩ := found
    exact ⟨other, ⟨member, before⟩, named⟩

theorem keysBefore_mono {more later} (keeps : ∀ other ∈ kept, other ∈ more)
    (after : place entry ≤ place later)
    : keysBefore kept entry ⊆ keysBefore more later := by
  intro key found
  obtain ⟨other, member, named, before⟩ := mem_keysBefore.mp found
  exact mem_keysBefore.mpr ⟨other, keeps other member, named, lt_of_lt_of_le before after⟩

namespace Covered

variable {number : Nat} {kept : List (κ × ω)} {entry : κ × ω}

theorem of_mem (member : entry ∈ kept) : Covered number kept entry :=
  .inl ⟨entry, member, rfl, le_refl _⟩

theorem mono {more} (keeps : ∀ other ∈ kept, other ∈ more) (covered : Covered number kept entry)
    : Covered number more entry := by
  rcases covered with ⟨other, member, sameKey, heavier⟩ | enough
  · exact .inl ⟨other, keeps other member, sameKey, heavier⟩
  · exact .inr (enough.trans (Finset.card_le_card (keysBefore_mono keeps (le_refl _))))

variable {later : κ × ω}

theorem key_before (covered : Covered number kept entry) (before : place entry < place later)
    (few : (keysBefore kept later).card < number)
    : ∃ other ∈ kept, other.1 = entry.1 ∧ entry.2 ≤ other.2 := by
  rcases covered with found | enough
  · exact found
  · have fewer := Finset.card_le_card (keysBefore_mono (fun _ member => member) (le_of_lt before) :
        keysBefore kept entry ⊆ keysBefore kept later)
    omega

theorem keysBefore_subset {entries} (covered : ∀ other ∈ entries, Covered number kept other)
    (few : (keysBefore kept later).card < number)
    : keysBefore entries later ⊆ keysBefore kept later := by
  intro key found
  obtain ⟨other, member, named, before⟩ := mem_keysBefore.mp found
  obtain ⟨again, isKept, sameKey, heavier⟩ := (covered other member).key_before before few
  have placed := (place_le_of_key sameKey).mpr heavier
  exact mem_keysBefore.mpr ⟨again, isKept, sameKey.trans named, lt_of_le_of_lt placed before⟩

theorem trans {middle} (covered : Covered number middle entry)
    (each : ∀ other ∈ middle, Covered number kept other)
    : Covered number kept entry := by
  by_cases few : (keysBefore kept entry).card < number
  · rcases covered with ⟨other, member, sameKey, heavier⟩ | enough
    · rcases each other member with ⟨again, isKept, againKey, againHeavier⟩ | many
      · exact .inl ⟨again, isKept, againKey.trans sameKey, heavier.trans againHeavier⟩
      · have placed := (place_le_of_key sameKey).mpr heavier
        have fewer := Finset.card_le_card (keysBefore_mono (fun _ isKept => isKept) placed :
            keysBefore kept other ⊆ keysBefore kept entry)
        exact .inr (many.trans fewer)
    · have fewer := Finset.card_le_card (keysBefore_subset each few)
      omega
  · exact .inr (Nat.not_lt.mp few)

end Covered

theorem exists_best (member : entry ∈ entries)
    : ∃ best ∈ entries, best.1 = entry.1 ∧ IsBest entries best := by
  let sameKey := (entries.filter fun other => other.1 = entry.1).toFinset
  have nonempty : sameKey.Nonempty := ⟨entry, by simp [sameKey, member]⟩
  obtain ⟨best, inKey, greatest⟩ := sameKey.exists_max_image Prod.snd nonempty
  simp only [sameKey, mem_toFinset, mem_filter, decide_eq_true_eq] at inKey greatest
  refine ⟨best, inKey.1, inKey.2, ?_⟩
  intro other isEntry named
  exact greatest other ⟨isEntry, named.trans inKey.2⟩

theorem mem_ranked : entry ∈ ranked entries ↔ entry ∈ entries ∧ IsBest entries entry := by
  simp [ranked, bestPerKey]

instance : Std.Total fun left right : κ × ω => place left ≤ place right :=
  ⟨fun left right => le_total (place left) (place right)⟩

instance : IsTrans (κ × ω) fun left right => place left ≤ place right :=
  ⟨fun _ _ _ => le_trans⟩

theorem ranked_sorted (entries : List (κ × ω))
    : (ranked entries).Pairwise fun left right => place left < place right := by
  have sorted : (ranked entries).Pairwise fun left right => place left ≤ place right :=
    pairwise_insertionSort _ (bestPerKey entries)
  have distinct : (ranked entries).Nodup := by
    have nodup : (bestPerKey entries).Nodup := (nodup_dedup entries).filter _
    exact (perm_insertionSort _ _).nodup_iff.mpr nodup
  refine (sorted.and distinct).imp ?_
  intro left right both
  exact lt_of_le_of_ne both.1 fun same => both.2 (place_injective same)

theorem eq_of_key (leftRanked : left ∈ ranked entries) (rightRanked : right ∈ ranked entries)
    (sameKey : left.1 = right.1)
    : left = right := by
  obtain ⟨leftMember, leftBest⟩ := mem_ranked.mp leftRanked
  obtain ⟨rightMember, rightBest⟩ := mem_ranked.mp rightRanked
  refine Prod.ext sameKey (le_antisymm ?_ ?_)
  · exact rightBest left leftMember sameKey
  · exact leftBest right rightMember sameKey.symm

theorem card_before_ranked (entries : List (κ × ω)) (entry : κ × ω)
    : (before place (ranked entries).toFinset entry).card = (keysBefore entries entry).card := by
  have sameKeys : (before place (ranked entries).toFinset entry).image Prod.fst
      = keysBefore entries entry := by
    ext key
    simp only [mem_keysBefore, Finset.mem_image, mem_before, mem_toFinset, mem_ranked]
    constructor
    · rintro ⟨other, ⟨⟨member, _⟩, before⟩, named⟩
      exact ⟨other, member, named, before⟩
    · rintro ⟨other, member, named, before⟩
      obtain ⟨best, isEntry, sameKey, isBest⟩ := exists_best member
      have placed := (place_le_of_key sameKey).mpr (isBest other member sameKey.symm)
      exact ⟨best, ⟨⟨isEntry, isBest⟩, lt_of_le_of_lt placed before⟩, sameKey.trans named⟩
  rw [← sameKeys, Finset.card_image_of_injOn]
  intro left isLeft right isRight sameKey
  exact eq_of_key (mem_toFinset.mp (mem_before.mp isLeft).1)
    (mem_toFinset.mp (mem_before.mp isRight).1) sameKey

theorem mem_topK
    : entry ∈ topK number entries
      ↔ entry ∈ entries ∧ IsBest entries entry
        ∧ (keysBefore entries entry).card < number := by
  rw [topK, mem_take_iff (ranked_sorted entries), mem_top, card_before_ranked,
    mem_toFinset, mem_ranked, and_assoc]

theorem topK_sorted (number : Nat) (entries : List (κ × ω))
    : (topK number entries).Pairwise fun left right => place left < place right :=
  (ranked_sorted entries).sublist (take_sublist _ _)

theorem topK_congr (number : Nat) {left right : List (κ × ω)}
    (same : ∀ entry, entry ∈ left ↔ entry ∈ right)
    : topK number left = topK number right := by
  refine eq_of_sorted (topK_sorted _ _) (topK_sorted _ _) ?_
  intro entry
  have sameKeys : keysBefore left entry = keysBefore right entry := by
    ext key
    simp only [mem_keysBefore, same]
  simp only [mem_topK, IsBest, same, sameKeys]

/-- The chosen entries cover all of them. -/
theorem topK_covers (number : Nat) (member : entry ∈ entries)
    : Covered number (topK number entries) entry := by
  obtain ⟨best, isEntry, sameKey, isBest⟩ := exists_best member
  have placed := (place_le_of_key sameKey).mpr (isBest entry member sameKey.symm)
  by_cases few : (keysBefore entries best).card < number
  · have chosen := mem_topK.mpr ⟨isEntry, isBest, few⟩
    exact .inl ⟨best, chosen, sameKey, isBest entry member sameKey.symm⟩
  · have full : (topK number entries).length = number := by
      have some : (before place (ranked entries).toFinset best).card
          ≤ (ranked entries).toFinset.card := Finset.card_le_card (Finset.filter_subset _ _)
      have all := toFinset_card_le (ranked entries)
      rw [card_before_ranked] at some
      rw [topK, length_take]
      omega
    have keysDistinct : ((topK number entries).map Prod.fst).Nodup := by
      apply Nodup.map_on
      · intro left leftChosen right rightChosen key
        exact eq_of_key (mem_of_mem_take leftChosen) (mem_of_mem_take rightChosen) key
      · exact nodup_of_sorted (topK_sorted number entries)
    have allBefore : ((topK number entries).map Prod.fst).toFinset
        ⊆ keysBefore (topK number entries) entry := by
      intro key found
      obtain ⟨other, chosen, named⟩ := mem_map.mp (mem_toFinset.mp found)
      refine mem_keysBefore.mpr ⟨other, chosen, named, lt_of_lt_of_le ?_ placed⟩
      by_contra notBefore
      have fewer := Finset.card_le_card
        (keysBefore_mono (fun _ isEntry => isEntry) (le_of_not_gt notBefore) :
          keysBefore entries best ⊆ keysBefore entries other)
      have few := (mem_topK.mp chosen).2.2
      omega
    have enough := Finset.card_le_card allBefore
    rw [toFinset_card_of_nodup keysDistinct, length_map, full] at enough
    exact .inr enough

/-- A part has the same chosen entries exactly when it covers them all.
Witness: covering fixes which keys come before an entry.
-/
theorem topK_eq_iff (part : ∀ entry ∈ kept, entry ∈ entries)
    : topK number kept = topK number entries
      ↔ ∀ entry ∈ entries, Covered number kept entry := by
  constructor
  · intro same entry member
    have covers := topK_covers number member
    rw [← same] at covers
    exact covers.mono fun other chosen => (mem_topK.mp chosen).1
  · intro covered
    refine eq_of_sorted (topK_sorted _ _) (topK_sorted _ _) ?_
    intro entry
    have fewer := Finset.card_le_card
      (keysBefore_mono part (le_refl _) : keysBefore kept entry ⊆ keysBefore entries entry)
    rw [mem_topK, mem_topK]
    constructor
    · intro chosen
      obtain ⟨isKept, isBest, few⟩ := chosen
      have sameKeys := Finset.card_le_card (Covered.keysBefore_subset covered few)
      refine ⟨part entry isKept, ?_, by omega⟩
      intro other member sameKey
      by_contra heavier
      have before : place other < place entry :=
        place_lt_iff.mpr (.inl (lt_of_not_ge heavier))
      obtain ⟨again, againKept, againKey, atLeast⟩ :=
        (covered other member).key_before before few
      have atMost := isBest again againKept (againKey.trans sameKey)
      exact heavier (atLeast.trans atMost)
    · intro chosen
      obtain ⟨member, isBest, few⟩ := chosen
      have isKept : entry ∈ kept := by
        rcases covered entry member with ⟨other, otherKept, sameKey, heavier⟩ | enough
        · have lighter := isBest other (part other otherKept) sameKey
          have same : other = entry := Prod.ext sameKey (le_antisymm lighter heavier)
          rw [← same]
          exact otherKept
        · omega
      exact ⟨isKept, fun other otherKept => isBest other (part other otherKept), by omega⟩

theorem covered_iff_of_last (last : ∀ other ∈ kept, place other ≤ place entry)
    : Covered number kept entry
      ↔ entry.1 ∈ kept.map Prod.fst ∨ number ≤ (kept.map Prod.fst).toFinset.card := by
  constructor
  · intro covered
    rcases covered with ⟨other, isKept, sameKey, _⟩ | enough
    · exact .inl (mem_map.mpr ⟨other, isKept, sameKey⟩)
    · refine .inr (enough.trans (Finset.card_le_card ?_))
      intro key found
      obtain ⟨other, isKept, named, _⟩ := mem_keysBefore.mp found
      exact mem_toFinset.mpr (mem_map.mpr ⟨other, isKept, named⟩)
  · intro enough
    by_cases known : entry.1 ∈ kept.map Prod.fst
    · obtain ⟨other, isKept, sameKey⟩ := mem_map.mp known
      exact .inl ⟨other, isKept, sameKey, (place_le_of_key sameKey).mp (last other isKept)⟩
    · refine .inr ((enough.resolve_left known).trans (Finset.card_le_card ?_))
      intro key found
      obtain ⟨other, isKept, named⟩ := mem_map.mp (mem_toFinset.mp found)
      refine mem_keysBefore.mpr ⟨other, isKept, named, lt_of_le_of_ne (last other isKept) ?_⟩
      intro samePlace
      rw [← place_injective samePlace] at known
      exact known (mem_map_of_mem isKept)

section
variable {α : Type}

/-- The items whose key was not seen before, in order. -/
def retainFirst (key : α → κ) : List κ → List α → List α
  | _, [] => []
  | seen, item :: rest =>
    if key item ∈ seen then retainFirst key seen rest
    else item :: retainFirst key (key item :: seen) rest

variable {entry : α → κ × ω}

theorem retainFirst_sublist (key : α → κ) (seen : List κ) (items : List α)
    : (retainFirst key seen items).Sublist items := by
  induction items generalizing seen with
  | nil => exact .slnil
  | cons item rest ih =>
    unfold retainFirst
    split
    · exact (ih seen).cons item
    · exact (ih _).cons_cons item

variable {items : List α}

theorem mem_keys_retainFirst {key : α → κ} {seen} {found : κ}
    : found ∈ (retainFirst key seen items).map key ↔ found ∈ items.map key ∧ found ∉ seen := by
  induction items generalizing seen with
  | nil => simp [retainFirst]
  | cons item rest ih =>
    unfold retainFirst
    split
    · next old =>
        rw [ih, map_cons, mem_cons]
        constructor
        · exact fun facts => ⟨.inr facts.1, facts.2⟩
        · rintro ⟨rfl | later, isNew⟩
          · exact absurd old isNew
          · exact ⟨later, isNew⟩
    · next unseen =>
        rw [map_cons, map_cons, mem_cons, mem_cons, ih, mem_cons]
        by_cases same : found = key item
        · simp [same, unseen]
        · simp [same]

theorem nodup_keys_retainFirst (key : α → κ) (seen : List κ) (items : List α)
    : ((retainFirst key seen items).map key).Nodup := by
  induction items generalizing seen with
  | nil => simp [retainFirst]
  | cons item rest ih =>
    unfold retainFirst
    split
    · exact ih seen
    · refine nodup_cons.mpr ⟨fun again => ?_, ih _⟩
      exact (mem_keys_retainFirst.mp again).2 mem_cons_self

theorem best_of_mem_retainFirst {seen} {item : α}
    (sorted : (items.map entry).Pairwise fun left right => place left ≤ place right)
    (retained : item ∈ retainFirst (fun item => (entry item).1) seen items)
    : IsBest (items.map entry) (entry item) := by
  induction items generalizing seen with
  | nil => exact absurd retained (by simp [retainFirst])
  | cons head rest ih =>
    rw [map_cons] at sorted
    obtain ⟨first, restSorted⟩ := pairwise_cons.mp sorted
    have others : ∀ {others : List κ}, (entry head).1 ∈ others
        → item ∈ retainFirst (fun item => (entry item).1) others rest
        → IsBest ((head :: rest).map entry) (entry item) := by
      intro others known later other member sameKey
      have isNew := (mem_keys_retainFirst.mp (mem_map_of_mem later)).2
      rcases mem_cons.mp member with rfl | inRest
      · exact absurd (sameKey ▸ known) isNew
      · exact ih restSorted later other inRest sameKey
    unfold retainFirst at retained
    split at retained
    · next old => exact others old retained
    · rcases mem_cons.mp retained with rfl | later
      · intro other member sameKey
        rcases mem_cons.mp member with rfl | inRest
        · exact le_refl _
        · exact (place_le_of_key sameKey.symm).mp (first other inRest)
      · exact others mem_cons_self later

theorem mem_retainFirst
    (sorted : (items.map entry).Pairwise fun left right => place left ≤ place right) (found : κ × ω)
    : found ∈ (retainFirst (fun item => (entry item).1) [] items).map entry
      ↔ found ∈ items.map entry ∧ IsBest (items.map entry) found := by
  constructor
  · intro member
    obtain ⟨item, retained, rfl⟩ := mem_map.mp member
    exact ⟨mem_map_of_mem ((retainFirst_sublist _ _ _).subset retained),
      best_of_mem_retainFirst sorted retained⟩
  · rintro ⟨member, isBest⟩
    obtain ⟨item, isItem, rfl⟩ := mem_map.mp member
    have known : (entry item).1 ∈ (retainFirst (fun item => (entry item).1) [] items).map
        fun item => (entry item).1 :=
      mem_keys_retainFirst.mpr ⟨mem_map_of_mem isItem, not_mem_nil⟩
    obtain ⟨other, retained, sameKey⟩ := mem_map.mp known
    have otherIn := mem_map_of_mem (f := entry) ((retainFirst_sublist _ _ _).subset retained)
    have same : entry other = entry item := Prod.ext sameKey (le_antisymm
      (isBest _ otherIn sameKey) (best_of_mem_retainFirst sorted retained _ member sameKey.symm))
    exact mem_map.mpr ⟨other, retained, same⟩

theorem take_retainFirst (number : Nat)
    (sorted : (items.map entry).Pairwise fun left right => place left ≤ place right)
    : ((retainFirst (fun item => (entry item).1) [] items).take number).map entry
      = topK number (items.map entry) := by
  have strictly : ((retainFirst (fun item => (entry item).1) [] items).map entry).Pairwise
      fun left right => place left < place right := by
    have placed := sorted.sublist
      ((retainFirst_sublist (fun item => (entry item).1) [] items).map entry)
    have keys := nodup_keys_retainFirst (fun item => (entry item).1) [] items
    have distinct : ((retainFirst (fun item => (entry item).1) [] items).map entry).Pairwise
        fun left right => left ≠ right := by
      refine Nodup.of_map Prod.fst ?_
      rw [map_map]
      exact keys
    refine (placed.and distinct).imp ?_
    intro left right both
    exact lt_of_le_of_ne both.1 fun same => both.2 (place_injective same)
  rw [map_take, topK]
  congr 1
  refine eq_of_sorted strictly (ranked_sorted _) ?_
  intro found
  rw [mem_retainFirst sorted, mem_ranked]

end

end TopK
