import Mathlib.Algebra.BigOperators.Group.List.Basic
import Mathlib.Algebra.Order.Ring.Int
import Mathlib.Data.List.TakeWhile

/-!
# Listings of a forest

A listing has every item right before all that is below it.  When the depth of the
items is known too, the forest can be read back from the listing: the items below
one are those up to the next that is not deeper, and the parent of one is the
nearest above it that is less deep.
-/

namespace Keylens.Library

universe u

variable {α : Type u}

/-- The forest with the given tops, listed from the top down. -/
inductive Listing (childrenOf : α → List α) : List α → List α → Prop where
  | nil : Listing childrenOf [] []
  | cons {item : α} {tops below rest : List α}
      (nested : Listing childrenOf (childrenOf item) below) (next : Listing childrenOf tops rest) :
      Listing childrenOf (item :: tops) (item :: (below ++ rest))

/-- An item of two lists joined is an item of the one or of the other. -/
theorem split_append {left right before after : List α} {item : α}
    (split : left ++ right = before ++ item :: after) :
    (∃ back, left = before ++ item :: back ∧ after = back ++ right) ∨
      ∃ front, before = left ++ front ∧ right = front ++ item :: after := by
  rcases List.append_eq_append_iff.mp split with
    ⟨front, beforeEq, rightEq⟩ | ⟨back, leftEq, afterEq⟩
  · exact .inr ⟨front, beforeEq, rightEq⟩
  · cases back with
    | nil => exact .inr ⟨[], by simpa using leftEq.symm, by simpa using afterEq.symm⟩
    | cons head back =>
        rw [List.cons_append, List.cons.injEq] at afterEq
        rcases afterEq with ⟨rfl, afterEq⟩
        exact .inl ⟨back, leftEq, afterEq⟩

namespace Listing

variable {childrenOf : α → List α} {tops list : List α}

/-- A listing made entry by entry. -/
theorem flatMap {ι : Type*} {entries : List ι} {top : ι → α} {below : ι → List α}
    (nested : ∀ entry ∈ entries, Listing childrenOf (childrenOf (top entry)) (below entry)) :
    Listing childrenOf (entries.map top)
      (entries.flatMap fun entry => top entry :: below entry) := by
  induction entries with
  | nil => exact .nil
  | cons entry entries ih =>
      apply Listing.cons
      · exact nested entry (List.mem_cons_self ..)
      · exact ih fun other member => nested other (List.mem_cons_of_mem _ member)

/-- A listing has the tops. -/
theorem mem_of_top {item : α} (listing : Listing childrenOf tops list) (top : item ∈ tops) :
    item ∈ list := by
  induction listing with
  | nil => exact top
  | cons nested next _ nextIH =>
      rcases List.mem_cons.mp top with rfl | later
      · exact List.mem_cons_self ..
      · exact List.mem_cons_of_mem _ (List.mem_append_right _ (nextIH later))

/-- With an item a listing has its children. -/
theorem mem_of_child {item child : α} (listing : Listing childrenOf tops list)
    (member : item ∈ list) (isChild : child ∈ childrenOf item) : child ∈ list := by
  induction listing with
  | nil => cases member
  | cons nested next nestedIH nextIH =>
      apply List.mem_cons_of_mem
      rcases List.mem_cons.mp member with rfl | later
      · exact List.mem_append_left _ (nested.mem_of_top isChild)
      · rcases List.mem_append.mp later with below | rest
        · exact List.mem_append_left _ (nestedIH below)
        · exact List.mem_append_right _ (nextIH rest)

/-- When no item weighs less than its children and one more, an only child apart,
the weight of the tops bounds the length. -/
theorem length_add_length_le (weight : α → Nat) (listing : Listing childrenOf tops list)
    (branching : ∀ item ∈ list,
      2 + 2 * ((childrenOf item).map weight).sum ≤ 2 * weight item + (childrenOf item).length) :
    list.length + tops.length ≤ 2 * (tops.map weight).sum := by
  induction listing with
  | nil => exact le_rfl
  | @cons item tops below rest nested next nestedIH nextIH =>
      have belowBound := nestedIH fun other member =>
        branching other (List.mem_cons_of_mem _ (List.mem_append_left _ member))
      have restBound := nextIH fun other member =>
        branching other (List.mem_cons_of_mem _ (List.mem_append_right _ member))
      have itemBound := branching item (List.mem_cons_self ..)
      simp only [List.length_cons, List.length_append, List.map_cons, List.sum_cons]
      omega

section Depth

variable {depthOf : α → Nat}

/-- What is below an item goes no further than the next item that is not deeper. -/
theorem takeWhile_append {depth : Nat} (left : List α) {right rightTops : List α}
    (listing : Listing childrenOf rightTops right)
    (top : ∀ item ∈ rightTops, depthOf item ≤ depth) :
    (left ++ right).takeWhile (fun other => depth < depthOf other) =
      left.takeWhile (fun other => depth < depthOf other) := by
  have ends : right.takeWhile (fun other => depth < depthOf other) = [] := by
    cases listing with
    | nil => rfl
    | @cons item _ _ _ _ _ =>
        have shallow := top item (List.mem_cons_self ..)
        exact List.takeWhile_cons_of_neg (by simpa using shallow)
  induction left with
  | nil => exact ends
  | cons head left ih => simp only [List.cons_append, List.takeWhile_cons, ih]

variable (steps : ∀ item, ∀ child ∈ childrenOf item, depthOf child = depthOf item + 1)
include steps

theorem le_depthOf {depth : Nat} (listing : Listing childrenOf tops list)
    (top : ∀ item ∈ tops, depthOf item = depth) : ∀ item ∈ list, depth ≤ depthOf item := by
  induction listing generalizing depth with
  | nil => exact fun _ member => nomatch member
  | @cons item tops below rest _ _ nestedIH nextIH =>
      have itemDepth := top item (List.mem_cons_self ..)
      intro other member
      rcases List.mem_cons.mp member with rfl | later
      · exact itemDepth.ge
      · rcases List.mem_append.mp later with inBelow | inRest
        · have deeper := nestedIH (steps item) other inBelow
          omega
        · exact nextIH (fun next member => top next (List.mem_cons_of_mem _ member)) other inRest

/-- The tops are the items that are least deep. -/
theorem filter_eq_tops {depth : Nat} (listing : Listing childrenOf tops list)
    (top : ∀ item ∈ tops, depthOf item = depth) :
    list.filter (fun item => depthOf item = depth) = tops := by
  induction listing with
  | nil => rfl
  | @cons item tops below rest nested _ _ nextIH =>
      have itemDepth := top item (List.mem_cons_self ..)
      have noneBelow : below.filter (fun item => depthOf item = depth) = [] := by
        apply List.filter_eq_nil_iff.mpr
        intro other member
        have deeper := nested.le_depthOf steps (steps item) other member
        simp only [decide_eq_true_iff]
        omega
      rw [List.filter_cons_of_pos (by simpa using itemDepth), List.filter_append, noneBelow,
        List.nil_append, nextIH fun next member => top next (List.mem_cons_of_mem _ member)]

/-- The children of an item are the items one level deeper up to the next that is
not deeper. -/
theorem children_eq {depth : Nat} (listing : Listing childrenOf tops list)
    (top : ∀ item ∈ tops, depthOf item = depth) {before after : List α} {item : α}
    (split : list = before ++ item :: after) :
    (after.takeWhile fun other => depthOf item < depthOf other).filter
      (fun other => depthOf other = depthOf item + 1) = childrenOf item := by
  induction listing generalizing depth before after with
  | nil => simp at split
  | @cons head tops below rest nested next nestedIH nextIH =>
      have laterTop : ∀ item ∈ tops, depthOf item = depth :=
        fun item member => top item (List.mem_cons_of_mem _ member)
      cases before with
      | nil =>
          rw [List.nil_append, List.cons.injEq] at split
          rcases split with ⟨rfl, rfl⟩
          have headDepth := top head (List.mem_cons_self ..)
          have allBelow : below.takeWhile (fun other => depthOf head < depthOf other) = below := by
            apply List.takeWhile_eq_self_iff.mpr
            intro other member
            have deeper := nested.le_depthOf steps (steps head) other member
            exact decide_eq_true deeper
          rw [next.takeWhile_append below
            fun item member => (laterTop item member).trans_le headDepth.ge, allBelow]
          exact nested.filter_eq_tops steps (steps head)
      | cons _ before =>
          rw [List.cons_append, List.cons.injEq] at split
          rcases split_append split.2 with ⟨back, belowEq, rfl⟩ | ⟨front, _, restEq⟩
          · -- The item is below the head, so it is deeper than the tops that follow.
            have itemMem : item ∈ below := by simp [belowEq]
            have headDepth := top head (List.mem_cons_self ..)
            have deeper := nested.le_depthOf steps (steps head) item itemMem
            rw [next.takeWhile_append back fun other member => ?_]
            · exact nestedIH (steps head) belowEq
            · have otherDepth := laterTop other member
              omega
          · exact nextIH laterTop restEq

/-- An item is a top, or the nearest item above it that is less deep is its
parent. -/
theorem mem_tops_or_child {depth : Nat} (listing : Listing childrenOf tops list)
    (top : ∀ item ∈ tops, depthOf item = depth) {before after : List α} {item : α}
    (split : list = before ++ item :: after) :
    item ∈ tops ∨ ∃ front parent between, before = front ++ parent :: between ∧
      item ∈ childrenOf parent ∧ ∀ other ∈ between, depthOf item ≤ depthOf other := by
  induction listing generalizing depth before after with
  | nil => simp at split
  | @cons head tops below rest nested next nestedIH nextIH =>
      cases before with
      | nil =>
          rw [List.nil_append, List.cons.injEq] at split
          exact .inl (split.1 ▸ List.mem_cons_self ..)
      | cons _ before =>
          rw [List.cons_append, List.cons.injEq] at split
          rcases split with ⟨rfl, split⟩
          rcases split_append split with ⟨back, belowEq, rfl⟩ | ⟨front, beforeEq, restEq⟩
          · right
            rcases nestedIH (steps head) belowEq with
              child | ⟨front, parent, between, beforeEq, child, deeper⟩
            · refine ⟨[], head, before, rfl, child, ?_⟩
              intro other member
              have otherMem : other ∈ below := by simp [belowEq, member]
              have otherDepth := nested.le_depthOf steps (steps head) other otherMem
              rwa [steps head item child]
            · exact ⟨head :: front, parent, between, by simp [beforeEq], child, deeper⟩
          · rcases nextIH (fun item member => top item (List.mem_cons_of_mem _ member)) restEq with
              isTop | ⟨upper, parent, between, frontEq, child, deeper⟩
            · exact .inl (List.mem_cons_of_mem _ isTop)
            · right
              exact ⟨head :: (below ++ upper), parent, between, by simp [beforeEq, frontEq], child,
                deeper⟩

end Depth

end Listing

end Keylens.Library
