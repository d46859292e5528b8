import Mathlib.Logic.Hydra

/-!
# Coming to rest

A system makes moves in any order.  When it cannot move for ever it comes to rest,
whichever moves it makes.  A system of several workers, each of which makes progress
of its own, cannot move for ever.
-/

namespace Keylens.Library

universe u v

variable {σ : Type u} {Move : σ → σ → Prop} {goal other : σ → Prop} {state : σ}

/-- No move is left. -/
def Rests (Move : σ → σ → Prop) (state : σ) : Prop :=
  ∀ next, ¬Move state next

/-- Whichever moves are made, a state of a kind is reached. -/
inductive Inevitable (Move : σ → σ → Prop) (goal : σ → Prop) : σ → Prop where
  | here {state : σ} (reached : goal state) : Inevitable Move goal state
  | later {state : σ} (moves : ∃ next, Move state next)
      (still : ∀ next, Move state next → Inevitable Move goal next) : Inevitable Move goal state

namespace Inevitable

theorem mono (inevitable : Inevitable Move goal state)
    (implies : ∀ state, goal state → other state) :
    Inevitable Move other state := by
  induction inevitable with
  | here reached => exact .here (implies _ reached)
  | later moves _ ih => exact .later moves ih

/-- What every move preserves still holds there. -/
theorem and_invariant {invariant : σ → Prop} (inevitable : Inevitable Move goal state)
    (preserves : ∀ state next, invariant state → Move state next → invariant next)
    (holds : invariant state) :
    Inevitable Move (fun state => goal state ∧ invariant state) state := by
  induction inevitable with
  | here reached => exact .here ⟨reached, holds⟩
  | later moves _ ih => exact .later moves fun next move => ih next move (preserves _ _ holds move)

/-- Some moves lead there. -/
theorem exists_reached (inevitable : Inevitable Move goal state) :
    ∃ rest, Relation.ReflTransGen Move state rest ∧ goal rest := by
  induction inevitable with
  | here reached => exact ⟨_, .refl, reached⟩
  | later moves _ ih =>
      rcases moves with ⟨next, move⟩
      rcases ih next move with ⟨rest, reached, there⟩
      exact ⟨rest, .head move reached, there⟩

end Inevitable

/-- A system that cannot move for ever comes to rest. -/
theorem inevitable_rests (ends : WellFounded fun next state => Move state next) (state : σ) :
    Inevitable Move (Rests Move) state := by
  induction state using ends.induction with
  | _ state ih =>
      by_cases moves : ∃ next, Move state next
      · exact .later moves ih
      · exact .here fun next move => moves ⟨next, move⟩

/-! ## Several workers -/

section Workers

variable {α : Type v} {Less : α → α → Prop} {front back : List α} {before : α}

/-- One of several workers makes progress. -/
theorem cutExpand_one {after : α} (less : Less after before) :
    Relation.CutExpand Less (↑(front ++ after :: back) : Multiset α)
      ↑(front ++ before :: back) := by
  refine ⟨{after}, before, by simpa using less, ?_⟩
  simp only [← Multiset.coe_add, ← Multiset.cons_coe, ← Multiset.singleton_add]
  ac_rfl

/-- One of several workers is done. -/
theorem cutExpand_done :
    Relation.CutExpand Less (↑(front ++ back) : Multiset α) ↑(front ++ before :: back) := by
  refine ⟨0, before, by simp, ?_⟩
  simp only [← Multiset.coe_add, ← Multiset.cons_coe, ← Multiset.singleton_add]
  ac_rfl

end Workers

end Keylens.Library
