import Mathlib.Algebra.BigOperators.Group.Finset.Basic
import Mathlib.Algebra.Order.BigOperators.Group.Finset
import Mathlib.Data.Finset.Max
import Mathlib.Data.List.Sort

/-!
Items cut to so many per group and to so many in all, and which parts of them choose the same.
-/

namespace GroupedCut
open Finset

variable {α γ β : Type} [DecidableEq γ] [LinearOrder β]
variable (place : α → β) (group : α → γ)

def before (items : Finset α) (item : α) : Finset α :=
  items.filter fun other => place other < place item

/-- The items of the same group that come before. -/
def rivals (items : Finset α) (item : α) : Finset α :=
  (before place items item).filter fun other => group other = group item

/-- The items with fewer rivals than the limit, if there is one. -/
def cut (limit : Option Nat) (items : Finset α) : Finset α :=
  items.filter fun item => ∀ most ∈ limit, (rivals place group items item).card < most

def top (number : Nat) (items : Finset α) : Finset α :=
  items.filter fun item => (before place items item).card < number

variable {place group} {items part all : Finset α} {item : α} {limit : Option Nat}
variable {number : Nat}

theorem mem_before {other : α}
    : other ∈ before place items item ↔ other ∈ items ∧ place other < place item :=
  mem_filter

theorem mem_rivals {other : α}
    : other ∈ rivals place group items item
      ↔ other ∈ items ∧ place other < place item ∧ group other = group item := by
  rw [rivals, mem_filter, mem_before, and_assoc]

theorem mem_cut
    : item ∈ cut place group limit items
      ↔ item ∈ items ∧ ∀ most ∈ limit, (rivals place group items item).card < most :=
  mem_filter

theorem mem_top
    : item ∈ top place number items ↔ item ∈ items ∧ (before place items item).card < number :=
  mem_filter

theorem rivals_mono (subset : part ⊆ all)
    : rivals place group part item ⊆ rivals place group all item := by
  intro other member
  obtain ⟨here, facts⟩ := mem_rivals.mp member
  exact mem_rivals.mpr ⟨subset here, facts⟩

/-- Of items in different places, as many are first as there can be. -/
theorem card_top (distinct : Set.InjOn place items)
    : (top place number items).card = min number items.card := by
  classical
  induction items using Finset.induction_on_max_value place with
  | empty => simp [top]
  | insert last others fresh most ih =>
    have below : ∀ other ∈ others, place other < place last := by
      intro other member
      refine lt_of_le_of_ne (most other member) fun same => fresh ?_
      have equal := distinct (mem_coe.mpr (mem_insert_of_mem member))
        (mem_coe.mpr (mem_insert_self last others)) same
      exact equal ▸ member
    have earlier : ∀ other ∈ others,
        before place (insert last others) other = before place others other := by
      intro other member
      unfold before
      rw [filter_insert, if_neg (not_lt_of_gt (below other member))]
    have atLast : before place (insert last others) last = others := by
      unfold before
      rw [filter_insert, if_neg (lt_irrefl _), filter_true_of_mem below]
    have rest : (others.filter fun item =>
        (before place (insert last others) item).card < number) = top place number others :=
      filter_congr fun other member => by rw [earlier other member]
    have counted := ih (distinct.mono (by
      rw [coe_insert]
      exact Set.subset_insert _ _))
    have absent : last ∉ top place number others := fun member => fresh (mem_top.mp member).1
    rw [top, filter_insert, atLast, rest, card_insert_of_notMem fresh]
    split
    · rw [card_insert_of_notMem absent, counted]
      omega
    · rw [counted]
      omega

theorem filter_before_cut (most : Nat) (item : α) (value : γ)
    : ((before place (cut place group (some most) items) item).filter
        fun other => group other = value)
      = top place most (items.filter fun other => place other < place item ∧ group other = value)
      := by
  ext other
  simp only [mem_filter, mem_before, mem_cut, mem_top, Option.mem_some_iff, forall_eq']
  have same : place other < place item → group other = value → rivals place group items other
        = before place
          (items.filter fun other => place other < place item ∧ group other = value) other := by
    intro earlier named
    ext rival
    simp only [mem_rivals, mem_before, mem_filter, named]
    constructor
    · rintro ⟨member, placed, grouped⟩
      exact ⟨⟨member, placed.trans earlier, grouped⟩, placed⟩
    · rintro ⟨⟨member, -, grouped⟩, placed⟩
      exact ⟨member, placed, grouped⟩
  constructor
  · rintro ⟨⟨⟨member, few⟩, earlier⟩, named⟩
    exact ⟨⟨member, earlier, named⟩, same earlier named ▸ few⟩
  · rintro ⟨⟨member, earlier, named⟩, few⟩
    exact ⟨⟨⟨member, (same earlier named).symm ▸ few⟩, earlier⟩, named⟩

theorem card_before_cut_mono (distinct : Set.InjOn place all) (subset : part ⊆ all) (item : α)
    : (before place (cut place group limit part) item).card
      ≤ (before place (cut place group limit all) item).card := by
  cases limit with
  | none =>
    refine card_le_card fun other member => ?_
    obtain ⟨chosen, earlier⟩ := mem_before.mp member
    exact mem_before.mpr ⟨mem_cut.mpr ⟨subset (mem_cut.mp chosen).1, by simp⟩, earlier⟩
  | some most =>
    have named : ∀ items : Finset α, items ⊆ all →
        Set.MapsTo group (before place (cut place group (some most) items) item : Set α)
          (all.image group : Set γ) := by
      intro items inAll other member
      have chosen := (mem_before.mp (mem_coe.mp member)).1
      exact mem_coe.mpr (mem_image_of_mem group (inAll (mem_cut.mp chosen).1))
    rw [card_eq_sum_card_fiberwise (named part subset),
      card_eq_sum_card_fiberwise (named all Subset.rfl)]
    refine sum_le_sum fun value _ => ?_
    rw [filter_before_cut, filter_before_cut,
      card_top (distinct.mono (coe_subset.mpr (filter_subset _ _ |>.trans subset))),
      card_top (distinct.mono (coe_subset.mpr (filter_subset _ _)))]
    exact min_le_min_left _ (card_le_card (filter_subset_filter _ subset))

theorem mem_top_cut_of_subset (distinct : Set.InjOn place all) (subset : part ⊆ all)
    (member : item ∈ part) (chosen : item ∈ top place number (cut place group limit all))
    : item ∈ top place number (cut place group limit part) := by
  obtain ⟨kept, few⟩ := mem_top.mp chosen
  refine mem_top.mpr ⟨mem_cut.mpr ⟨member, fun most isLimit => ?_⟩,
    lt_of_le_of_lt (card_before_cut_mono distinct subset item) few⟩
  exact lt_of_le_of_lt (card_le_card (rivals_mono subset)) ((mem_cut.mp kept).2 most isLimit)

/-- A part that has the chosen items of the whole chooses the same. -/
theorem top_cut_eq (distinct : Set.InjOn place all) (subset : part ⊆ all)
    (has : top place number (cut place group limit all) ⊆ part)
    : top place number (cut place group limit part)
      = top place number (cut place group limit all) := by
  have cutDistinct : ∀ items ⊆ all, Set.InjOn place (cut place group limit items : Finset α) :=
    fun items inAll =>
      distinct.mono (coe_subset.mpr fun other member => inAll (mem_cut.mp member).1)
  have forward : top place number (cut place group limit all)
      ⊆ top place number (cut place group limit part) :=
    fun other chosen => mem_top_cut_of_subset distinct subset (has chosen) chosen
  refine (Subset.antisymm forward ?_).symm
  rcases Nat.lt_or_ge (cut place group limit all).card number with few | many
  · -- everything the whole cuts to is chosen
    have every : cut place group limit all ⊆ top place number (cut place group limit all) :=
      fun other member => mem_top.mpr
        ⟨member, lt_of_le_of_lt (card_le_card (filter_subset _ _)) few⟩
    intro other chosen
    obtain ⟨kept, -⟩ := mem_top.mp chosen
    obtain ⟨member, limited⟩ := mem_cut.mp kept
    refine every (mem_cut.mpr ⟨subset member, fun most isLimit => ?_⟩)
    by_contra crowded
    have first : top place most (rivals place group all other) ⊆ rivals place group part other := by
      intro rival isFirst
      obtain ⟨isRival, ahead⟩ := mem_top.mp isFirst
      obtain ⟨inAll, earlier, grouped⟩ := mem_rivals.mp isRival
      have fewRivals : (rivals place group all rival).card < most := by
        refine lt_of_le_of_lt (card_le_card fun third isThird => ?_) ahead
        obtain ⟨thirdIn, before_, sameGroup⟩ := mem_rivals.mp isThird
        exact mem_before.mpr
          ⟨mem_rivals.mpr ⟨thirdIn, before_.trans earlier, sameGroup.trans grouped⟩, before_⟩
      have chosenRival : rival ∈ cut place group limit all :=
        mem_cut.mpr ⟨inAll, fun other_ same => Option.mem_unique isLimit same ▸ fewRivals⟩
      exact mem_rivals.mpr ⟨has (every chosenRival), earlier, grouped⟩
    have counted := card_le_card first
    rw [card_top (distinct.mono (coe_subset.mpr fun rival member => (mem_rivals.mp member).1))]
      at counted
    have := limited most isLimit
    omega
  · have sizes : (top place number (cut place group limit part)).card
        ≤ (top place number (cut place group limit all)).card := by
      rw [card_top (cutDistinct part subset), card_top (cutDistinct all Subset.rfl),
        Nat.min_eq_left many]
      exact Nat.min_le_left _ _
    exact (eq_of_subset_of_card_le forward sizes).symm.subset

theorem before_top (window : Nat) (member : item ∈ top place window items)
    : before place (top place window items) item = before place items item := by
  ext other
  rw [mem_before, mem_before]
  refine ⟨fun facts => ⟨(mem_top.mp facts.1).1, facts.2⟩, fun facts => ⟨?_, facts.2⟩⟩
  refine mem_top.mpr ⟨facts.1, lt_of_le_of_lt (card_le_card fun third isThird => ?_)
    (mem_top.mp member).2⟩
  obtain ⟨thirdIn, earlier⟩ := mem_before.mp isThird
  exact mem_before.mpr ⟨thirdIn, earlier.trans facts.2⟩

theorem mem_top_cut_top (window : Nat)
    : item ∈ top place number (cut place group limit (top place window items))
      ↔ item ∈ top place number (cut place group limit items) ∧ item ∈ top place window items := by
  have sameRivals : ∀ {other : α}, other ∈ top place window items →
      rivals place group (top place window items) other = rivals place group items other :=
    fun member => by rw [rivals, rivals, before_top window member]
  have sameCut : ∀ {other : α}, other ∈ top place window items →
      (other ∈ cut place group limit (top place window items)
        ↔ other ∈ cut place group limit items) := by
    intro other member
    rw [mem_cut, mem_cut, sameRivals member]
    exact and_congr_left fun _ => iff_of_true member (mem_top.mp member).1
  have sameBefore : item ∈ top place window items →
      before place (cut place group limit (top place window items)) item
        = before place (cut place group limit items) item := by
    intro member
    ext other
    rw [mem_before, mem_before]
    refine and_congr_left fun earlier => ?_
    by_cases inside : other ∈ top place window items
    · exact sameCut inside
    · refine iff_of_false (fun chosen => inside (mem_cut.mp chosen).1) fun chosen => inside ?_
      have isBefore : other ∈ before place items item :=
        mem_before.mpr ⟨(mem_cut.mp chosen).1, earlier⟩
      rw [← before_top window member] at isBefore
      exact (mem_before.mp isBefore).1
  constructor
  · intro chosen
    obtain ⟨kept, few⟩ := mem_top.mp chosen
    have inside := (mem_cut.mp kept).1
    exact ⟨mem_top.mpr ⟨(sameCut inside).mp kept, sameBefore inside ▸ few⟩, inside⟩
  · rintro ⟨chosen, inside⟩
    obtain ⟨kept, few⟩ := mem_top.mp chosen
    exact mem_top.mpr ⟨(sameCut inside).mpr kept, (sameBefore inside).symm ▸ few⟩

/-- The items with fewer than the limit of their group kept before them. -/
def keepPerGroup (group : α → γ) (limit : Option Nat) : List γ → List α → List α
  | _, [] => []
  | kept, item :: rest =>
    if ∀ most ∈ limit, kept.count (group item) < most then
      item :: keepPerGroup group limit (group item :: kept) rest
    else keepPerGroup group limit kept rest

variable (kept : List γ)

@[simp]
theorem keepPerGroup_none (list : List α)
    : keepPerGroup group none kept list = list := by
  induction list generalizing kept with
  | nil => rfl
  | cons item rest ih => simp [keepPerGroup, ih]

theorem keepPerGroup_sublist (list : List α)
    : (keepPerGroup group limit kept list).Sublist list := by
  induction list generalizing kept with
  | nil => exact .slnil
  | cons item rest ih =>
    unfold keepPerGroup
    split
    · exact (ih _).cons_cons item
    · exact (ih _).cons item

omit [DecidableEq γ] in
theorem nodup_of_sorted {list : List α}
    (sorted : list.Pairwise fun left right => place left < place right) : list.Nodup := by
  refine sorted.imp ?_
  rintro left _ placed rfl
  exact lt_irrefl _ placed

omit [DecidableEq γ] in
/-- Lists in their places with the same items are equal. -/
theorem eq_of_sorted {left right : List α}
    (leftSorted : left.Pairwise fun first second => place first < place second)
    (rightSorted : right.Pairwise fun first second => place first < place second)
    (same : ∀ item, item ∈ left ↔ item ∈ right)
    : left = right := by
  have perm := (List.perm_ext_iff_of_nodup (nodup_of_sorted leftSorted)
    (nodup_of_sorted rightSorted)).mpr same
  exact perm.eq_of_pairwise (fun _ _ _ _ before_ after => absurd before_ (lt_asymm after))
    leftSorted rightSorted

omit [DecidableEq γ] in
theorem pair_sublist_iff {first second : α} {list : List α}
    (sorted : list.Pairwise fun left right => place left < place right)
    : [first, second].Sublist list ↔ first ∈ list ∧ second ∈ list ∧ place first < place second := by
  constructor
  · intro part
    exact ⟨part.subset (by simp), part.subset (by simp),
      List.pairwise_iff_forall_sublist.mp sorted part⟩
  · rintro ⟨hasFirst, hasSecond, placed⟩
    have pair : [first, second].Pairwise fun left right => place left < place right := by
      simpa using placed
    have part := List.subperm_of_subset (nodup_of_sorted pair)
      (List.cons_subset.mpr ⟨hasFirst, List.cons_subset.mpr ⟨hasSecond, List.nil_subset _⟩⟩)
    have : Std.Antisymm fun left right : α => place left < place right :=
      ⟨fun _ _ before_ after => absurd before_ (lt_asymm after)⟩
    exact List.sublist_of_subperm_of_pairwise part pair sorted

omit [DecidableEq γ] in
theorem sorted_insertionSort {order : α → α → Prop} [DecidableRel order] {list : List α}
    (agrees : ∀ left ∈ list, ∀ right ∈ list, order left right ↔ place left ≤ place right)
    (distinct : (list.map place).Nodup)
    : (list.insertionSort order).Pairwise fun left right => place left < place right := by
  have placed : ((list.insertionSort order).map place).Pairwise (· ≤ ·) := by
    rw [List.map_insertionSort _ (· ≤ ·) _ _ agrees]
    exact List.pairwise_insertionSort _ _
  have apart : ((list.insertionSort order).map place).Nodup :=
    ((List.perm_insertionSort order list).map place).nodup_iff.mpr distinct
  exact List.pairwise_map.mp (placed.and apart |>.imp fun both => lt_of_le_of_ne both.1 both.2)

omit [DecidableEq γ] in
theorem take_eq_iff [DecidableEq α] {part whole : List α}
    (partSorted : part.Pairwise fun left right => place left < place right)
    (wholeSorted : whole.Pairwise fun left right => place left < place right)
    (subset : ∀ item ∈ part, item ∈ whole)
    : part.take number = whole.take number ↔ ∀ item ∈ whole.take number, item ∈ part := by
  refine ⟨fun same item member => List.mem_of_mem_take (same.symm ▸ member), fun has => ?_⟩
  have filtered : part = whole.filter (· ∈ part) := by
    refine eq_of_sorted partSorted (wholeSorted.filter _) fun item => ?_
    rw [List.mem_filter, decide_eq_true_eq]
    exact ⟨fun member => ⟨subset item member, member⟩, And.right⟩
  have split : part = whole.take number ++ (whole.drop number).filter (· ∈ part) := by
    conv_lhs => rw [filtered, ← List.take_append_drop number whole, List.filter_append]
    rw [List.filter_eq_self.mpr fun item member => decide_eq_true (has item member)]
  rw [split]
  rcases Nat.le_total number whole.length with enough | few
  · rw [List.take_append_of_le_length (by simp [enough]), List.take_take, min_self]
  · rw [List.drop_eq_nil_of_le few, List.filter_nil, List.append_nil, List.take_take, min_self]

variable [DecidableEq α]

theorem before_cons {head : α} {rest : List α}
    (sorted : (head :: rest).Pairwise fun left right => place left < place right)
    (member : item ∈ rest)
    : before place (head :: rest).toFinset item = insert head (before place rest.toFinset item)
      ∧ head ∉ before place rest.toFinset item := by
  obtain ⟨first, -⟩ := List.pairwise_cons.mp sorted
  constructor
  · unfold before
    rw [List.toFinset_cons, filter_insert, if_pos (first item member)]
  · intro present
    have inRest := List.mem_toFinset.mp (mem_before.mp present).1
    exact lt_irrefl _ (first head inRest)

theorem before_head {head : α} {rest : List α}
    (sorted : (head :: rest).Pairwise fun left right => place left < place right)
    : before place (head :: rest).toFinset head = ∅ := by
  obtain ⟨first, -⟩ := List.pairwise_cons.mp sorted
  refine filter_eq_empty_iff.mpr fun other member => ?_
  rcases List.mem_cons.mp (List.mem_toFinset.mp member) with rfl | inRest
  · exact lt_irrefl _
  · exact not_lt_of_gt (first other inRest)

variable {list : List α}

theorem mem_take_iff (sorted : list.Pairwise fun left right => place left < place right)
    : item ∈ list.take number ↔ item ∈ top place number list.toFinset := by
  induction list generalizing number with
  | nil => simp [mem_top]
  | cons head rest ih =>
    cases number with
    | zero => simp [top]
    | succ number =>
      have restSorted := (List.pairwise_cons.mp sorted).2
      rw [List.take_succ_cons, List.mem_cons, ih restSorted, mem_top, mem_top,
        List.mem_toFinset, List.mem_toFinset, List.mem_cons]
      by_cases inRest : item ∈ rest
      · obtain ⟨split, fresh⟩ := before_cons sorted inRest
        have different : item ≠ head := fun same => by
          subst same
          exact lt_irrefl _ ((List.pairwise_cons.mp sorted).1 item inRest)
        rw [split, card_insert_of_notMem fresh]
        simp [inRest, different]
      · by_cases same : item = head
        · subst same
          rw [before_head sorted]
          simp
        · simp [inRest, same]

theorem mem_take_iff_length (sorted : list.Pairwise fun left right => place left < place right)
    : item ∈ list.take number
      ↔ item ∈ list ∧ (list.filter (place · < place item)).length < number := by
  rw [mem_take_iff sorted, mem_top, List.mem_toFinset,
    ← List.toFinset_card_of_nodup ((nodup_of_sorted sorted).filter _), List.toFinset_filter]
  simp only [before, decide_eq_true_eq]

/-- A list in its places is cut as its items are. -/
theorem mem_keepPerGroup (sorted : list.Pairwise fun left right => place left < place right)
    : item ∈ keepPerGroup group limit kept list
      ↔ item ∈ list ∧ ∀ most ∈ limit,
        kept.count (group item) + (rivals place group list.toFinset item).card < most := by
  induction list generalizing kept with
  | nil => simp [keepPerGroup]
  | cons head rest ih =>
    have restSorted := (List.pairwise_cons.mp sorted).2
    have atHead : (rivals place group (head :: rest).toFinset head).card = 0 := by
      rw [rivals, before_head sorted, filter_empty, card_empty]
    by_cases inRest : item ∈ rest
    · obtain ⟨split, fresh⟩ := before_cons sorted inRest
      have different : item ≠ head := fun same => by
        subst same
        exact lt_irrefl _ ((List.pairwise_cons.mp sorted).1 item inRest)
      have counted : (rivals place group (head :: rest).toFinset item).card
          = (rivals place group rest.toFinset item).card
            + if group head = group item then 1 else 0 := by
        rw [rivals, split, filter_insert]
        split
        · rw [card_insert_of_notMem fun present => fresh (mem_filter.mp present).1]
          rfl
        · rfl
      unfold keepPerGroup
      split
      · rw [List.mem_cons, ih _ restSorted, counted, List.count_cons]
        simp only [inRest, different, false_or, true_and, List.mem_cons, or_true, beq_iff_eq]
        refine forall₂_congr fun most _ => ?_
        omega
      · next full =>
          rw [ih _ restSorted, counted]
          simp only [inRest, true_and, List.mem_cons, or_true]
          push Not at full
          obtain ⟨most, isLimit, crowded⟩ := full
          refine forall₂_congr fun other same => ?_
          obtain rfl := Option.mem_unique isLimit same
          split
          · next grouped =>
              rw [grouped] at crowded
              omega
          · rfl
    · have elsewhere : ∀ others, item ∉ keepPerGroup group limit others rest :=
        fun others member => inRest ((keepPerGroup_sublist others rest).subset member)
      by_cases same : item = head
      · subst same
        unfold keepPerGroup
        rw [atHead]
        split
        · next few => simpa using few
        · next full => simpa [elsewhere] using full
      · unfold keepPerGroup
        split <;> simp [elsewhere, inRest, same]

theorem mem_take_keepPerGroup (sorted : list.Pairwise fun left right => place left < place right)
    : item ∈ (keepPerGroup group limit [] list).take number
      ↔ item ∈ top place number (cut place group limit list.toFinset) := by
  have kept : (keepPerGroup group limit [] list).toFinset
      = cut place group limit list.toFinset := by
    ext other
    rw [List.mem_toFinset, mem_keepPerGroup [] sorted, mem_cut, List.mem_toFinset]
    simp
  rw [mem_take_iff (sorted.sublist (keepPerGroup_sublist [] list)), kept]

end GroupedCut
