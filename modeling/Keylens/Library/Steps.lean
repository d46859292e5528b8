import Mathlib.Logic.Basic

/-!
# Systems with labelled steps

A system takes a step for some event, and may have several steps for one event.  What
every step preserves holds wherever a run leads; and a system whose every step another one
can follow does nothing that the other one does not do.
-/

namespace Keylens.Library

universe u v w

/-- Where a run from a state leads if every event meets a condition on the state before
it. -/
inductive Reaches {σ : Type u} {ε : Type v} (Step : σ → ε → σ → Prop) (heeds : σ → ε → Prop)
    (first : σ) : σ → Prop where
  | start : Reaches Step heeds first first
  | next {state next : σ} {event : ε} (before : Reaches Step heeds first state)
      (heeded : heeds state event) (step : Step state event next) : Reaches Step heeds first next

namespace Reaches

variable {σ : Type u} {τ : Type w} {ε : Type v} {Step : σ → ε → σ → Prop}
variable {Other : τ → ε → τ → Prop} {heeds : σ → ε → Prop} {obeys : τ → ε → Prop}
variable {first state : σ}

theorem invariant (reaches : Reaches Step heeds first state) {invariant : σ → Prop}
    (holds : invariant first)
    (preserves : ∀ state event next, invariant state → heeds state event →
      Step state event next → invariant next) : invariant state := by
  induction reaches with
  | start => exact holds
  | next _ heeded step ih => exact preserves _ _ _ ih heeded step

/-- Runs may be looked at from a distance: every step is seen as a step, and the events
meet the condition on what is seen. -/
theorem seen (reaches : Reaches Step heeds first state) (view : σ → τ) {invariant : σ → Prop}
    (holds : ∀ state, Reaches Step heeds first state → invariant state)
    (steps : ∀ state event next, invariant state → Step state event next →
      Other (view state) event (view next))
    (condition : ∀ state event, invariant state → heeds state event → obeys (view state) event) :
    Reaches Other obeys (view first) (view state) := by
  induction reaches with
  | start => exact .start
  | next before heeded step ih =>
      have known := holds _ before
      exact ih.next (condition _ _ known heeded) (steps _ _ _ known step)

end Reaches

end Keylens.Library
