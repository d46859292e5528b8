import Mathlib.Logic.Basic

/-!
# Computations with a trace

A computation that may fail, together with the events it causes on the way.  What
has happened before a failure has happened.
-/

namespace Keylens.Library

universe u v w

/-- What a computation causes and what it comes to. -/
structure Traced (event : Type u) (ε : Type v) (α : Type w) where
  events : List event
  result : Except ε α

namespace Traced

variable {event : Type u} {ε : Type v} {α β : Type w}

/-- Nothing happens. -/
def done (result : Except ε α) : Traced event ε α :=
  { events := [], result }

def bind (first : Traced event ε α) (rest : α → Traced event ε β) : Traced event ε β :=
  match first.result with
  | .ok value =>
      { events := first.events ++ (rest value).events, result := (rest value).result }
  | .error error => { events := first.events, result := .error error }

instance : Monad (Traced event ε) where
  pure value := done (.ok value)
  bind := bind

/-- Both computations run, whatever either comes to. -/
def both (first : Traced event ε α) (second : Traced event ε β) :
    Traced event ε (Except ε α × Except ε β) where
  events := first.events ++ second.events
  result := .ok (first.result, second.result)

/-- Every event is of a kind. -/
def Causes (good : event → Prop) (traced : Traced event ε α) : Prop :=
  ∀ happened ∈ traced.events, good happened

@[simp] theorem result_done (result : Except ε α) :
    (done result : Traced event ε α).result = result := rfl

/-- Forgetting the events leaves the plain computation. -/
@[simp] theorem result_bind (first : Traced event ε α) (rest : α → Traced event ε β) :
    (first >>= rest).result = first.result >>= fun value => (rest value).result := by
  change (Traced.bind first rest).result = _
  rw [Traced.bind]
  cases first.result <;> rfl

@[simp] theorem result_both (first : Traced event ε α) (second : Traced event ε β) :
    (both first second).result = .ok (first.result, second.result) := rfl

theorem done_ok_bind (value : α) (rest : α → Traced event ε β) :
    (done (.ok value) >>= rest) = rest value := rfl

variable {good : event → Prop}

theorem causes_done (result : Except ε α) : (done result : Traced event ε α).Causes good := by
  intro happened member
  cases member

theorem causes_pure (value : α) : (pure value : Traced event ε α).Causes good :=
  causes_done _

theorem Causes.bind {first : Traced event ε α} {rest : α → Traced event ε β}
    (before : first.Causes good) (after : ∀ value, (rest value).Causes good) :
    (first >>= rest).Causes good := by
  change (Traced.bind first rest).Causes good
  intro happened member
  rw [Traced.bind] at member
  split at member
  next value _ =>
      rcases List.mem_append.mp member with early | late
      · exact before happened early
      · exact after value happened late
  next => exact before happened member

theorem Causes.both {first : Traced event ε α} {second : Traced event ε β}
    (left : first.Causes good) (right : second.Causes good) :
    (Traced.both first second).Causes good := by
  intro happened member
  rcases List.mem_append.mp member with early | late
  · exact left happened early
  · exact right happened late

end Traced

end Keylens.Library
