import Mathlib.Data.List.Induction

/-!
# Runs of a system

A system takes an input in every step; a run is a list of inputs.  A property
that every step preserves, as long as the step meets a condition on the state
before it, holds at the end of every run whose steps all meet that condition.
-/

namespace Keylens.Library

universe u v

variable {σ : Type u} {ι : Type v} {step : σ → ι → σ} {good : σ → ι → Prop} {state : σ}
variable {inputs : List ι} {input : ι}

/-- The state after some inputs. -/
def run (step : σ → ι → σ) (state : σ) (inputs : List ι) : σ :=
  inputs.foldl step state

@[simp] theorem run_nil : run step state [] = state := rfl

@[simp] theorem run_cons : run step state (input :: inputs) = run step (step state input) inputs :=
  rfl

theorem run_append (front back : List ι) :
    run step state (front ++ back) = run step (run step state front) back :=
  List.foldl_append

section Parts

variable {β : Type*} (part : σ → β)

/-- A part of the state that no step touches is what it was. -/
theorem run_kept (kept : ∀ input ∈ inputs, ∀ state, part (step state input) = part state)
    (state : σ) : part (run step state inputs) = part state := by
  induction inputs generalizing state with
  | nil => rfl
  | cons input inputs ih =>
      rw [run_cons, ih fun later member => kept later (List.mem_cons_of_mem _ member)]
      exact kept input List.mem_cons_self state

/-- A part that one input alone touches is what that input makes of it. -/
theorem run_assigned {front back : List ι} {value : β}
    (assigned : ∀ state, part (step state input) = value)
    (kept : ∀ later ∈ back, ∀ state, part (step state later) = part state) (state : σ) :
    part (run step state (front ++ input :: back)) = value := by
  rw [run_append, run_cons, run_kept part kept, assigned]

end Parts

section Fields

variable {κ ν β : Type*} [BEq κ] [LawfulBEq κ] {name : κ} {set : σ → κ × ν → σ} {part : σ → β}

/-- Named fields are read one after the other.  What the fields of one name alone
decide is what the last of them says. -/
theorem part_foldl_fields {read : ν → β}
    (assigned : ∀ state value, part (set state (name, value)) = read value)
    (others : ∀ state other value, other ≠ name → part (set state (other, value)) = part state)
    (fields : List (κ × ν)) (state : σ) :
    part (fields.foldl set state) =
      ((fields.reverse.lookup name).map read).getD (part state) := by
  induction fields using List.reverseRecOn with
  | nil => rfl
  | append_singleton fields field ih =>
      rcases field with ⟨other, value⟩
      rw [List.foldl_append, List.reverse_append, List.foldl_cons, List.foldl_nil,
        List.reverse_singleton, List.singleton_append, List.lookup_cons]
      by_cases same : other = name
      · subst same
        simp [assigned]
      · have apart : (name == other) = false := beq_eq_false_iff_ne.mpr (Ne.symm same)
        rw [others _ _ _ same, ih, apart]

end Fields

/-- Every step of a run meets a condition on the state before it and its
input. -/
def Along (step : σ → ι → σ) (good : σ → ι → Prop) : σ → List ι → Prop
  | _, [] => True
  | state, input :: inputs => good state input ∧ Along step good (step state input) inputs

theorem along_append {front back : List ι} :
    Along step good state (front ++ back) ↔
      Along step good state front ∧ Along step good (run step state front) back := by
  induction front generalizing state with
  | nil => simp [Along]
  | cons head front ih => simp [Along, ih, and_assoc]

/-- A condition on the inputs alone. -/
theorem along_of_forall (meets : ∀ input ∈ inputs, ∀ state, good state input) :
    Along step good state inputs := by
  induction inputs generalizing state with
  | nil => exact trivial
  | cons input inputs ih =>
      refine ⟨meets input List.mem_cons_self state, ih ?_⟩
      exact fun other later => meets other (List.mem_cons_of_mem input later)

/-- A run that does not meet the condition has a first stretch after which a step
does not. -/
theorem exists_of_not_along (fails : ¬Along step good state inputs) :
    ∃ front input, ¬good (run step state front) input := by
  induction inputs generalizing state with
  | nil => exact absurd trivial fails
  | cons input inputs ih =>
      by_cases here : good state input
      · rcases ih (fun later => fails ⟨here, later⟩) with ⟨front, bad, failsThere⟩
        exact ⟨input :: front, bad, failsThere⟩
      · exact ⟨[], input, here⟩

/-- What every step that meets the condition preserves holds at the end of every
run whose steps meet it. -/
theorem run_invariant {property : σ → Prop}
    (preserves : ∀ state input, property state → good state input → property (step state input))
    (holds : property state) (along : Along step good state inputs) :
    property (run step state inputs) := by
  induction inputs generalizing state with
  | nil => exact holds
  | cons input inputs ih =>
      rcases along with ⟨here, later⟩
      exact ih (preserves state input holds here) later

/-- A property that an invariant implies and that a step from the invariant breaks
exactly when it does not meet the condition holds all along a run exactly when
every step meets the condition. -/
theorem forall_prefix_iff_along {invariant property : σ → Prop}
    (preserves : ∀ state input, invariant state → good state input →
      invariant (step state input))
    (implies : ∀ state, invariant state → property state)
    (breaks : ∀ state input, invariant state → ¬good state input → ¬property (step state input))
    (holds : invariant state) :
    (∀ front, front <+: inputs → property (run step state front)) ↔
      Along step good state inputs := by
  constructor
  · intro throughout
    induction inputs generalizing state with
    | nil => trivial
    | cons input inputs ih =>
        have here : good state input := by
          by_contra bad
          exact breaks state input holds bad (throughout [input] ⟨inputs, rfl⟩)
        refine ⟨here, ih (preserves state input holds here) ?_⟩
        intro front isPrefix
        exact throughout (input :: front) (List.cons_prefix_cons.mpr ⟨rfl, isPrefix⟩)
  · intro along front isPrefix
    rcases isPrefix with ⟨rest, rfl⟩
    exact implies _ (run_invariant preserves holds (along_append.mp along).1)

/-- The same for a property that is its own invariant. -/
theorem forall_prefix_iff_along_of_step_iff {property : σ → Prop}
    (exactly : ∀ state input, property state → (property (step state input) ↔ good state input))
    (holds : property state) :
    (∀ front, front <+: inputs → property (run step state front)) ↔
      Along step good state inputs :=
  forall_prefix_iff_along (fun state input now => (exactly state input now).mpr) (fun _ now => now)
    (fun state input now => mt (exactly state input now).mp) holds

/-- What every step preserves holds at the end of every run. -/
theorem run_invariant_of_step {property : σ → Prop}
    (preserves : ∀ state input, property state → property (step state input))
    (holds : property state) (inputs : List ι) : property (run step state inputs) := by
  induction inputs generalizing state with
  | nil => exact holds
  | cons input inputs ih => exact ih (preserves state input holds)

end Keylens.Library
