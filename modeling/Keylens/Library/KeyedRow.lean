import Mathlib.Data.List.Basic
import Mathlib.Data.List.Pairwise
import Mathlib.Data.List.Sort
import Mathlib.Order.Basic
import Mathlib.Algebra.Order.Ring.Int

/-!
# Rows of items with increasing keys

A row is a list whose items carry strictly increasing keys: a sorted deque, a
timeline of buckets.  The lemmas say how such a row splits at a key, what
inserting or replacing one item does to it, and, for integer keys, how far
apart its items are.  The last sections sort items by a key and take fronts of rows.
-/

namespace Keylens.Library

universe u v

/-- Position of the last item that satisfies `accept`. -/
def rposition {α : Type u} (accept : α → Bool) (items : List α) : Option Nat :=
  (items.reverse.findIdx? accept).map fun back => items.length - 1 - back

theorem rposition_eq_none {α : Type u} {accept : α → Bool} {items : List α}
    (rejected : ∀ item ∈ items, accept item = false) : rposition accept items = none := by
  have missing : items.reverse.findIdx? accept = none := by
    rw [List.findIdx?_eq_none_iff]
    intro item member
    exact rejected item (List.mem_reverse.mp member)
  simp [rposition, missing]

theorem rposition_lt {α : Type u} {accept : α → Bool} {items : List α} {i : Nat}
    (found : rposition accept items = some i) : i < items.length := by
  rcases Option.map_eq_some_iff.mp found with ⟨back, foundBack, rfl⟩
  rw [List.findIdx?_eq_some_iff_findIdx_eq, List.length_reverse] at foundBack
  omega

theorem rposition_append_cons {α : Type u} {accept : α → Bool} {item : α} (before : List α)
    {after : List α} (accepted : accept item = true)
    (rejected : ∀ other ∈ after, accept other = false) :
    rposition accept (before ++ item :: after) = some before.length := by
  have back : (after.reverse ++ item :: before.reverse).findIdx? accept =
      some after.length := by
    rw [List.findIdx?_append]
    have missing : after.reverse.findIdx? accept = none := by
      rw [List.findIdx?_eq_none_iff]
      intro other member
      exact rejected other (List.mem_reverse.mp member)
    simp [missing, List.findIdx?_cons, accepted]
  simp only [rposition, List.reverse_append, List.reverse_cons, List.append_assoc,
    List.singleton_append, back, Option.map_some, List.length_append, List.length_cons]
  congr 1
  omega

theorem modify_append_cons {α : Type u} (before after : List α) (item : α) (update : α → α) :
    (before ++ item :: after).modify before.length update = before ++ update item :: after := by
  induction before with
  | nil => rfl
  | cons head before ih => simpa [List.modify_succ_cons] using ih

theorem insertIdx_append {α : Type u} (before after : List α) (item : α) :
    (before ++ after).insertIdx before.length item = before ++ item :: after := by
  induction before with
  | nil => simp
  | cons head before ih => simpa using ih

/-- Two items of a list stand in one order or in the other. -/
theorem rel_or_rel_of_pairwise {α : Type u} {rel : α → α → Prop} {items : List α} {item other : α}
    (pairwise : items.Pairwise rel) (member : item ∈ items) (memberOther : other ∈ items)
    (different : item ≠ other) : rel item other ∨ rel other item := by
  have either : items.Pairwise fun left right => rel left right ∨ rel right left :=
    pairwise.imp Or.inl
  have symm : Std.Symm fun left right => rel left right ∨ rel right left := ⟨fun _ _ => Or.symm⟩
  exact either.forall member memberOther different

section Increasing

variable {β : Type u} {κ : Type v} [LinearOrder κ] (key : β → κ)

/-- The keys of the row increase strictly. -/
def Increasing (items : List β) : Prop :=
  items.Pairwise fun left right => key left < key right

variable {key}

theorem Increasing.tail {item : β} {items : List β}
    (increasing : Increasing key (item :: items)) : Increasing key items :=
  (List.pairwise_cons.mp increasing).2

theorem Increasing.drop {items : List β} (increasing : Increasing key items) (count : Nat) :
    Increasing key (items.drop count) :=
  List.Pairwise.sublist (List.drop_sublist count items) increasing

theorem Increasing.eq_of_key_eq {items : List β} (increasing : Increasing key items)
    {left right : β} (leftMem : left ∈ items) (rightMem : right ∈ items)
    (equal : key left = key right) : left = right := by
  induction items with
  | nil => cases leftMem
  | cons item items ih =>
      have before := (List.pairwise_cons.mp increasing).1
      rcases List.mem_cons.mp leftMem with leftEq | leftLater <;>
        rcases List.mem_cons.mp rightMem with rightEq | rightLater
      · rw [leftEq, rightEq]
      · exact absurd (leftEq ▸ equal) (before right rightLater).ne
      · exact absurd (rightEq ▸ equal).symm (before left leftLater).ne
      · exact ih increasing.tail leftLater rightLater

/-- What can only hold from a smaller key to a larger one holds for no two items if it does
for none and a later one. -/
theorem Increasing.pairwise_not_iff {items : List β} (increasing : Increasing key items)
    {bad : β → β → Prop} (forward : ∀ left right, bad left right → key left < key right) :
    (items.Pairwise fun left right => ¬bad left right) ↔
      ∀ left ∈ items, ∀ right ∈ items, ¬bad left right := by
  constructor
  · intro pairwise left memberLeft right memberRight isBad
    have less := forward left right isBad
    have different : left ≠ right := fun same => less.ne (congrArg key same)
    rcases rel_or_rel_of_pairwise (increasing.and pairwise) memberLeft memberRight different with
      ⟨_, good⟩ | ⟨greater, _⟩
    · exact good isBad
    · exact less.asymm greater
  · intro good
    apply List.pairwise_of_forall_mem_list
    exact good

/-- A row is determined by its items. -/
theorem Increasing.eq_of_mem_iff {left right : List β} (leftInc : Increasing key left)
    (rightInc : Increasing key right) (same : ∀ item, item ∈ left ↔ item ∈ right) :
    left = right := by
  have irreflexive : Std.Irrefl fun left right : β => key left < key right :=
    ⟨fun item => lt_irrefl (key item)⟩
  have antisymmetric : Std.Antisymm fun left right : β => key left < key right :=
    ⟨fun _ _ before after => absurd after before.asymm⟩
  exact List.Pairwise.eq_of_mem_iff leftInc rightInc same

/-- A row splits at any key. -/
theorem Increasing.split {items : List β} (increasing : Increasing key items) (bound : κ) :
    ∃ lows highs, items = lows ++ highs ∧ (∀ low ∈ lows, key low ≤ bound) ∧
      ∀ high ∈ highs, bound < key high := by
  induction items with
  | nil => exact ⟨[], [], rfl, by simp, by simp⟩
  | cons item items ih =>
      by_cases above : bound < key item
      · refine ⟨[], item :: items, rfl, by simp, fun high member => ?_⟩
        rcases List.mem_cons.mp member with rfl | later
        · exact above
        · exact above.trans ((List.pairwise_cons.mp increasing).1 high later)
      · rcases ih increasing.tail with ⟨lows, highs, split, lowLe, highGt⟩
        refine ⟨item :: lows, highs, by rw [split, List.cons_append], ?_, highGt⟩
        intro low member
        rcases List.mem_cons.mp member with rfl | later
        · exact not_lt.mp above
        · exact lowLe low later

/-- Putting an item between the keys below and above its own. -/
theorem Increasing.insert {lows highs : List β} {item : β}
    (increasing : Increasing key (lows ++ highs)) (lowLt : ∀ low ∈ lows, key low < key item)
    (highGt : ∀ high ∈ highs, key item < key high) :
    Increasing key (lows ++ item :: highs) := by
  rcases List.pairwise_append.mp increasing with ⟨lowsIncreasing, highsIncreasing, across⟩
  apply List.pairwise_append.mpr
  refine ⟨lowsIncreasing, List.pairwise_cons.mpr ⟨highGt, highsIncreasing⟩, ?_⟩
  intro low lowMem other otherMem
  rcases List.mem_cons.mp otherMem with rfl | high
  · exact lowLt low lowMem
  · exact across low lowMem other high

theorem Increasing.lows_lt {lows highs : List β} {item : β}
    (increasing : Increasing key (lows ++ item :: highs)) :
    ∀ low ∈ lows, key low < key item := by
  intro low member
  exact (List.pairwise_append.mp increasing).2.2 low member item (List.mem_cons_self ..)

theorem Increasing.highs_gt {lows highs : List β} {item : β}
    (increasing : Increasing key (lows ++ item :: highs)) :
    ∀ high ∈ highs, key item < key high :=
  (List.pairwise_cons.mp (List.pairwise_append.mp increasing).2.1).1

theorem Increasing.remove {lows highs : List β} {item : β}
    (increasing : Increasing key (lows ++ item :: highs)) : Increasing key (lows ++ highs) :=
  List.Pairwise.sublist ((List.sublist_cons_self item highs).append_left lows) increasing

theorem Increasing.le_getLast {items : List β} (increasing : Increasing key items)
    {item last : β} (member : item ∈ items) (isLast : items.getLast? = some last) :
    key item ≤ key last := by
  rcases List.getLast?_eq_some_iff.mp isLast with ⟨before, rfl⟩
  rcases List.mem_append.mp member with earlier | here
  · exact (increasing.lows_lt item earlier).le
  · rw [List.mem_singleton.mp here]

end Increasing

section Integers

variable {β : Type u} {key : β → Int}

/-- Integer keys that increase strictly leave room for the items between. -/
theorem Increasing.length_add_le {items : List β} {item last : β}
    (increasing : Increasing key (item :: items))
    (isLast : (item :: items).getLast? = some last) :
    key item + items.length ≤ key last := by
  induction items generalizing item with
  | nil =>
      cases isLast
      simp
  | cons next items ih =>
      have step : key item < key next :=
        (List.pairwise_cons.mp increasing).1 next (List.mem_cons_self ..)
      have rest := ih increasing.tail (by rw [← isLast, List.getLast?_cons_cons])
      rw [List.length_cons]
      push_cast
      omega

/-- All but the last `count` items of an integer row lie at least `count` below
its last key. -/
theorem Increasing.key_take_add_le {items : List β} {item last : β} {count : Nat}
    (increasing : Increasing key items) (isLast : items.getLast? = some last)
    (positive : 0 < count) (member : item ∈ items.take (items.length - count)) :
    key item + count ≤ key last := by
  have kept : (items.drop (items.length - count)).length = count := by
    have nonempty := List.length_pos_of_mem member
    rw [List.length_take] at nonempty
    rw [List.length_drop]
    omega
  cases dropped : items.drop (items.length - count) with
  | nil =>
      rw [dropped] at kept
      simp only [List.length_nil] at kept
      omega
  | cons first rest =>
      have split : items.take (items.length - count) ++ first :: rest = items := by
        rw [← dropped, List.take_append_drop]
      rw [← split] at increasing isLast
      have below := increasing.lows_lt item member
      have restIncreasing : Increasing key (first :: rest) :=
        (List.pairwise_append.mp increasing).2.1
      have restLast : (first :: rest).getLast? = some last := by
        rw [← isLast, List.getLast?_append_cons]
      have room := restIncreasing.length_add_le restLast
      rw [dropped, List.length_cons] at kept
      omega

end Integers

section Sorting

variable {β : Type u} {κ : Type v} [LinearOrder κ] (key : β → κ)

/-- Sort by a key; items with one key keep their order. -/
def sortByKey (items : List β) : List β :=
  items.insertionSort fun left right => key left ≤ key right

variable {key}

@[simp] theorem mem_sortByKey {items : List β} {item : β} :
    item ∈ sortByKey key items ↔ item ∈ items :=
  List.mem_insertionSort _

theorem pairwise_sortByKey (items : List β) :
    (sortByKey key items).Pairwise fun left right => key left ≤ key right := by
  have total : Std.Total fun left right : β => key left ≤ key right :=
    ⟨fun _ _ => le_total ..⟩
  have trans : IsTrans β fun left right => key left ≤ key right :=
    ⟨fun _ _ _ => le_trans⟩
  exact List.pairwise_insertionSort _ items

/-- Where no marked item has the key of an unmarked one, sorting lists the marked
ones first exactly when none of them has a larger key than an unmarked one. -/
theorem marked_first_iff {items : List β} {marked : β → Prop}
    (apart : ∀ item ∈ items, ∀ other ∈ items, marked item → ¬marked other →
      key item ≠ key other) :
    ((sortByKey key items).Pairwise fun above below => marked below → marked above) ↔
      ∀ item ∈ items, ∀ other ∈ items, marked item → ¬marked other → key item ≤ key other := by
  constructor
  · intro first item member other memberOther isMarked unmarked
    have listed : item ∈ sortByKey key items := mem_sortByKey.mpr member
    have listedOther : other ∈ sortByKey key items := mem_sortByKey.mpr memberOther
    have different : item ≠ other := by
      rintro rfl
      exact unmarked isMarked
    rcases rel_or_rel_of_pairwise ((pairwise_sortByKey items).and first) listed listedOther
      different with ⟨ordered, _⟩ | ⟨_, carries⟩
    · exact ordered
    · exact absurd (carries isMarked) unmarked
  · intro small
    apply (pairwise_sortByKey items).imp_of_mem
    intro above below memberAbove memberBelow ordered isMarked
    by_contra unmarked
    have below := mem_sortByKey.mp memberBelow
    have above := mem_sortByKey.mp memberAbove
    exact apart _ below _ above isMarked unmarked
      (le_antisymm (small _ below _ above isMarked unmarked) ordered)

omit [LinearOrder κ] in
/-- A partition that puts the accepted items first, each part in the order it had, is in
order exactly when the items of each part were. -/
theorem pairwise_partition_iff (accept : β → Bool) (before : β → β → Prop) {items : List β} :
    ((items.filter accept ++ items.filter (not ∘ accept)).Pairwise fun above below =>
        (accept below → accept above) ∧ (accept above = accept below → before above below)) ↔
      items.Pairwise fun above below => accept above = accept below → before above below := by
  have apart : ∀ above ∈ items.filter accept, ∀ below ∈ items.filter (not ∘ accept),
      (accept below → accept above) ∧ (accept above = accept below → before above below) := by
    intro above memberAbove below memberBelow
    have yes := (List.mem_filter.mp memberAbove).2
    have no : accept below = false := by simpa using (List.mem_filter.mp memberBelow).2
    simp [yes, no]
  rw [List.pairwise_append, List.pairwise_filter, List.pairwise_filter,
    and_iff_left apart, ← List.pairwise_and_iff]
  apply List.Pairwise.iff
  intro above below
  cases here : accept above <;> cases there : accept below <;> simp [here, there]

end Sorting

/-! ## Fronts of an increasing list -/

/-- An increasing list that takes nothing without what comes before it is a front of the
list that it takes from. -/
theorem prefix_of_downward_closed {α : Type*} [Preorder α] {taken all : List α}
    (increasing : taken.Pairwise (· < ·)) (ordered : all.Pairwise (· < ·)) (among : taken ⊆ all)
    (closed : ∀ item ∈ taken, ∀ earlier ∈ all, earlier < item → earlier ∈ taken) :
    taken <+: all := by
  induction all generalizing taken with
  | nil =>
      have none : taken = [] := List.subset_nil.mp among
      simp [none]
  | cons first all ih =>
      cases taken with
      | nil => exact List.nil_prefix
      | cons head taken =>
          rw [List.pairwise_cons] at increasing ordered
          have same : head = first := by
            rcases List.mem_cons.mp (among List.mem_cons_self) with same | later
            · exact same
            · have before := closed head List.mem_cons_self first List.mem_cons_self
                (ordered.1 head later)
              rcases List.mem_cons.mp before with same | behind
              · exact same.symm
              · exact absurd (increasing.1 first behind) (ordered.1 head later).asymm
          subst same
          apply List.cons_prefix_cons.mpr
          refine ⟨rfl, ih increasing.2 ordered.2 ?_ ?_⟩
          · intro item member
            rcases List.mem_cons.mp (among (List.mem_cons_of_mem _ member)) with same | later
            · exact absurd (increasing.1 item member) (same ▸ lt_irrefl _)
            · exact later
          · intro item member earlier isEarlier lt
            rcases List.mem_cons.mp (closed item (List.mem_cons_of_mem _ member) earlier
              (List.mem_cons_of_mem _ isEarlier) lt) with same | later
            · exact absurd (ordered.1 earlier isEarlier) (same ▸ lt_irrefl _)
            · exact later

/-- What comes before a number among the numbers of a kind. -/
theorem eq_filter_range_of_prefix {accepts : Nat → Bool} {front : List Nat} {number count : Nat}
    (starts : front ++ [number] <+: (List.range count).filter accepts) :
    front = (List.range number).filter accepts := by
  have member : number ∈ (List.range count).filter accepts := starts.subset (by simp)
  rcases List.mem_filter.mp member with ⟨inRange, accepted⟩
  rcases Nat.exists_eq_add_of_lt (List.mem_range.mp inRange) with ⟨more, rfl⟩
  have split : (List.range (number + more + 1)).filter accepts =
      (List.range number).filter accepts ++
        number :: ((List.range more).map (number + 1 + ·)).filter accepts := by
    rw [Nat.add_assoc, Nat.add_comm more, ← Nat.add_assoc, List.range_add, List.filter_append,
      List.range_succ, List.filter_append, List.filter_singleton, accepted]
    simp
  rcases starts with ⟨later, whole⟩
  rw [List.append_assoc, List.singleton_append, split] at whole
  have below : number ∉ (List.range number).filter accepts := by simp
  have above : number ∉ ((List.range more).map (number + 1 + ·)).filter accepts := by
    simp only [List.mem_filter, List.mem_map, not_and, forall_exists_index, and_imp]
    intro step _ same
    omega
  exact ((List.append_cons_inj_of_notMem below above).mp whole.symm).1.symm

end Keylens.Library
