import Keylens.Library.Prog

/-!
# Programs and what answers them

What answers a program may keep a state of its own, which every call changes.  Several
programs may call it in turn, and a call that leaves the state alone is not noticed by the
others.
-/

namespace Keylens.Library

universe u v

/-- What answers the calls: the answers that a call may get in a state, and the state after
the call. -/
structure Host (I : Interface.{u}) (σ : Type v) where
  may : σ → I.Answers
  next : σ → I.Call → σ

namespace Host

variable {I : Interface.{u}} {σ : Type v} (host : Host I σ) (first : σ)

/-- The state after some calls. -/
def after (asked : List I.Call) : σ :=
  asked.foldl host.next first

/-- What may be answered after some calls. -/
def answers (asked : List I.Call) : I.Answers :=
  host.may (host.after first asked)

@[simp] theorem after_concat (asked : List I.Call) (call : I.Call) :
    host.after first (asked ++ [call]) = host.next (host.after first asked) call := by
  simp [after]

/-- What may be answered at one time may be answered at any time. -/
def always (may : I.Answers) : Host I Unit where
  may _ := may
  next _ _ := ()

end Host

namespace Prog

variable {I : Interface.{u}} {α β : Type u} {σ : Type v}

/-- Whatever the host answers, the program comes to a value, and the host to a state, of
which something holds. -/
def Ends (host : Host I σ) (goal : α → σ → Prop) : Prog I α → σ → Prop
  | done value, state => goal value state
  | ask asked answered, state =>
      ∀ answer, host.may state asked answer →
        (answered answer).Ends host goal (host.next state asked)

variable {host : Host I σ} {goal other : α → σ → Prop} {prog : Prog I α} {state : σ}

theorem Ends.mono (holds : prog.Ends host goal state)
    (implies : ∀ value state, goal value state → other value state) :
    prog.Ends host other state := by
  induction prog generalizing state with
  | done value => exact implies value state holds
  | ask asked answered ih => exact fun answer told => ih answer (holds answer told)

theorem Ends.bind {last : β → σ → Prop} {rest : α → Prog I β} (holds : prog.Ends host goal state)
    (goesOn : ∀ value state, goal value state → (rest value).Ends host last state) :
    (prog >>= rest).Ends host last state := by
  induction prog generalizing state with
  | done value => exact goesOn value state holds
  | ask asked answered ih => exact fun answer told => ih answer (holds answer told)

/-- A program whose calls keep an invariant of the host. -/
theorem Every.ends {may : I.Answers} {asks : I.Call → Prop} {gives : α → Prop}
    (every : prog.Every may asks gives) (invariant : σ → Prop) (holds : invariant state)
    (keeps : ∀ state call answer, invariant state → asks call → host.may state call answer →
      may call answer ∧ invariant (host.next state call)) :
    prog.Ends host (fun value state => gives value ∧ invariant state) state := by
  induction prog generalizing state with
  | done value => exact ⟨every, holds⟩
  | ask asked answered ih =>
      intro answer told
      rcases keeps state asked answer holds every.1 told with ⟨known, next⟩
      exact ih answer (every.2 answer known) next

/-! ## One way to go -/

/-- With answers that the host may give, the program makes some calls and comes to a
value. -/
inductive Runs (host : Host I σ) : Prog I α → σ → List I.Call → α → Prop where
  | done {value : α} {state : σ} : Runs host (done value) state [] value
  | ask {asked : I.Call} {answered : I.Answer asked → Prog I α} {state : σ}
      {calls : List I.Call} {value : α} (answer : I.Answer asked)
      (told : host.may state asked answer)
      (rest : Runs host (answered answer) (host.next state asked) calls value) :
      Runs host (ask asked answered) state (asked :: calls) value

end Prog

end Keylens.Library
