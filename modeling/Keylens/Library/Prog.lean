import Mathlib.Logic.Basic

/-!
# Programs that ask

A program either is done or asks for something and goes on with the answer.  It
says nothing about who answers, or about what happens between a call and its
answer.  What a program asks for on every path, what it comes to and how much it
asks for can be shown from what may be answered.
-/

namespace Keylens.Library

universe u

/-- What may be asked for, and the answers to it. -/
structure Interface where
  Call : Type u
  Answer : Call → Type u

inductive Prog (I : Interface.{u}) (α : Type u) where
  | done (value : α)
  | ask (call : I.Call) (rest : I.Answer call → Prog I α)

/-- Which answers a call may get. -/
abbrev Interface.Answers (I : Interface.{u}) := (call : I.Call) → I.Answer call → Prop

/-- Nothing is known of the answers. -/
def Interface.anything (I : Interface.{u}) : I.Answers := fun _ _ => True

namespace Prog

variable {I : Interface.{u}} {α β : Type u}

def bind (prog : Prog I α) (rest : α → Prog I β) : Prog I β :=
  match prog with
  | done value => rest value
  | ask call answered => ask call fun answer => (answered answer).bind rest

/-- Ask, and return the answer. -/
def call (asked : I.Call) : Prog I (I.Answer asked) :=
  ask asked done

instance : Monad (Prog I) where
  pure := done
  bind := bind

theorem bind_done (prog : Prog I α) : prog >>= done = prog := by
  induction prog with
  | done value => rfl
  | ask asked answered ih => exact congrArg (ask asked) (funext ih)

theorem bind_assoc {γ : Type u} (prog : Prog I α) (middle : α → Prog I β) (rest : β → Prog I γ) :
    prog >>= middle >>= rest = prog >>= fun value => middle value >>= rest := by
  induction prog with
  | done value => rfl
  | ask asked answered ih => exact congrArg (ask asked) (funext ih)

instance : LawfulMonad (Prog I) :=
  LawfulMonad.mk' (Prog I) bind_done (fun _ _ => rfl) bind_assoc

/-! ## What holds on every path -/

/-- On every path that the answers allow, every call is of a kind and so is the value
at the end. -/
def Every (may : I.Answers) (asks : I.Call → Prop) (gives : α → Prop) : Prog I α → Prop
  | done value => gives value
  | ask asked answered =>
      asks asked ∧ ∀ answer, may asked answer → (answered answer).Every may asks gives

section Every

variable {may : I.Answers} {asks other : I.Call → Prop} {gives : α → Prop} {prog : Prog I α}

theorem Every.bind {after : β → Prop} {rest : α → Prog I β} (every : prog.Every may asks gives)
    (goesOn : ∀ value, gives value → (rest value).Every may asks after) :
    (prog >>= rest).Every may asks after := by
  induction prog with
  | done value => exact goesOn value every
  | ask asked answered ih =>
      exact ⟨every.1, fun answer known => ih answer (every.2 answer known)⟩

theorem Every.mono {more : α → Prop} (every : prog.Every may asks gives)
    (calls : ∀ call, asks call → other call) (values : ∀ value, gives value → more value) :
    prog.Every may other more := by
  induction prog with
  | done value => exact values value every
  | ask asked answered ih =>
      exact ⟨calls asked every.1, fun answer known => ih answer (every.2 answer known)⟩

/-- The more is known of the answers, the better. -/
theorem Every.told {told : I.Answers} (every : prog.Every may asks gives)
    (known : ∀ call answer, told call answer → may call answer) :
    prog.Every told asks gives := by
  induction prog with
  | done value => exact every
  | ask asked answered ih =>
      exact ⟨every.1, fun answer said => ih answer (every.2 answer (known asked answer said))⟩

theorem Every.and {more : α → Prop} (first : prog.Every may asks gives)
    (second : prog.Every may other more) :
    prog.Every may (fun call => asks call ∧ other call) fun value =>
      gives value ∧ more value := by
  induction prog with
  | done value => exact ⟨first, second⟩
  | ask asked answered ih =>
      exact ⟨⟨first.1, second.1⟩, fun answer known =>
        ih answer (first.2 answer known) (second.2 answer known)⟩

theorem every_true (prog : Prog I α) : prog.Every may (fun _ => True) fun _ => True := by
  induction prog with
  | done value => trivial
  | ask asked answered ih => exact ⟨trivial, fun answer _ => ih answer⟩

end Every

/-! ## What a program costs -/

/-- On every path the calls cost at most so much together. -/
def Within (cost : I.Call → Nat) : Nat → Prog I α → Prop
  | _, done _ => True
  | most, ask asked answered =>
      cost asked ≤ most ∧ ∀ answer, (answered answer).Within cost (most - cost asked)

section Within

variable {cost : I.Call → Nat} {most more : Nat} {prog : Prog I α}

theorem Within.mono (within : prog.Within cost most) (le : most ≤ more) :
    prog.Within cost more := by
  induction prog generalizing most more with
  | done value => trivial
  | ask asked answered ih =>
      exact ⟨Nat.le_trans within.1 le, fun answer =>
        ih answer (within.2 answer) (Nat.sub_le_sub_right le _)⟩

theorem Within.bind {rest : α → Prog I β} (within : prog.Within cost most)
    (goesOn : ∀ value, (rest value).Within cost more) :
    (prog >>= rest).Within cost (most + more) := by
  induction prog generalizing most with
  | done value => exact (goesOn value).mono (Nat.le_add_left ..)
  | ask asked answered ih =>
      refine ⟨Nat.le_trans within.1 (Nat.le_add_right ..), fun answer => ?_⟩
      rw [Nat.sub_add_comm within.1]
      exact ih answer (within.2 answer)

/-- The same, where what follows depends on what is known of the value. -/
theorem Within.bind_every {asks : I.Call → Prop} {gives : α → Prop} {rest : α → Prog I β}
    (within : prog.Within cost most) (every : prog.Every I.anything asks gives)
    (goesOn : ∀ value, gives value → (rest value).Within cost more) :
    (prog >>= rest).Within cost (most + more) := by
  induction prog generalizing most with
  | done value => exact (goesOn value every).mono (Nat.le_add_left ..)
  | ask asked answered ih =>
      refine ⟨Nat.le_trans within.1 (Nat.le_add_right ..), fun answer => ?_⟩
      rw [Nat.sub_add_comm within.1]
      exact ih answer (within.2 answer) (every.2 answer trivial)

/-- What is free in one way of counting is free in every cheaper one. -/
theorem Within.cheaper {other : I.Call → Nat} (within : prog.Within cost most)
    (le : ∀ call, other call ≤ cost call) : prog.Within other most := by
  induction prog generalizing most with
  | done value => trivial
  | ask asked answered ih =>
      refine ⟨Nat.le_trans (le asked) within.1, fun answer => ?_⟩
      exact (ih answer (within.2 answer)).mono (Nat.sub_le_sub_left (le asked) most)

/-- Calls that cost nothing. -/
theorem within_of_every {asks : I.Call → Prop} {gives : α → Prop}
    (every : prog.Every I.anything asks gives) (free : ∀ call, asks call → cost call = 0) :
    prog.Within cost most := by
  induction prog generalizing most with
  | done value => trivial
  | ask asked answered ih =>
      rw [Within, free asked every.1]
      exact ⟨Nat.zero_le _, fun answer => ih answer (every.2 answer trivial)⟩

end Within

/-! ## Several programs -/

/-- On every path several programs cost at most so much together. -/
def WithinAll (cost : I.Call → Nat) : Nat → List (Prog I α) → Prop
  | _, [] => True
  | most, prog :: progs => ∃ here later, here + later ≤ most ∧ prog.Within cost here ∧
      WithinAll cost later progs

section WithinAll

variable {cost : I.Call → Nat} {most more : Nat} {front back : List (Prog I α)}

theorem WithinAll.mono (within : WithinAll cost most front) (le : most ≤ more) :
    WithinAll cost more front := by
  cases front with
  | nil => trivial
  | cons prog progs =>
      rcases within with ⟨here, later, enough, first, others⟩
      exact ⟨here, later, Nat.le_trans enough le, first, others⟩

theorem withinAll_append :
    WithinAll cost most (front ++ back) ↔ ∃ here later, here + later ≤ most ∧
      WithinAll cost here front ∧ WithinAll cost later back := by
  induction front generalizing most with
  | nil =>
      constructor
      · exact fun within => ⟨0, most, Nat.le_of_eq (Nat.zero_add most), trivial, within⟩
      · rintro ⟨here, later, enough, _, within⟩
        exact within.mono (Nat.le_trans (Nat.le_add_left ..) enough)
  | cons prog front ih =>
      constructor
      · rintro ⟨first, rest, enough, within, others⟩
        rcases ih.mp others with ⟨here, later, fits, inFront, inBack⟩
        exact ⟨first + here, later, by omega, ⟨first, here, Nat.le_refl _, within, inFront⟩, inBack⟩
      · rintro ⟨here, later, enough, ⟨first, rest, fits, within, inFront⟩, inBack⟩
        exact ⟨first, rest + later, by omega, within,
          ih.mpr ⟨rest, later, Nat.le_refl _, inFront, inBack⟩⟩

/-- One more program. -/
theorem WithinAll.concat {prog : Prog I α} (within : WithinAll cost most front)
    (last : prog.Within cost more) : WithinAll cost (most + more) (front ++ [prog]) :=
  withinAll_append.mpr
    ⟨most, more, Nat.le_refl _, within, more, 0, Nat.le_refl _, last, trivial⟩

/-- One of several programs pays for its call. -/
theorem WithinAll.pay {asked : I.Call} {answered : I.Answer asked → Prog I α}
    (within : WithinAll cost most (front ++ ask asked answered :: back)) (answer : I.Answer asked) :
    cost asked ≤ most ∧ WithinAll cost (most - cost asked) (front ++ answered answer :: back) := by
  rcases withinAll_append.mp within with
    ⟨here, later, enough, inFront, first, rest, fits, ⟨cheap, goesOn⟩, inBack⟩
  refine ⟨by omega, withinAll_append.mpr ⟨here, later - cost asked, by omega, inFront, ?_⟩⟩
  exact ⟨first - cost asked, rest, by omega, goesOn answer, inBack⟩

/-- One of several programs is done. -/
theorem WithinAll.drop {prog : Prog I α} (within : WithinAll cost most (front ++ prog :: back)) :
    WithinAll cost most (front ++ back) := by
  rcases withinAll_append.mp within with
    ⟨here, later, enough, inFront, first, rest, fits, _, inBack⟩
  exact withinAll_append.mpr ⟨here, rest, by omega, inFront, inBack⟩

end WithinAll

/-! ## Programs that may fail -/

section Failing

variable {ε : Type u} {may : I.Answers} {cost : I.Call → Nat} {most more : Nat}
variable {asks : I.Call → Prop}
variable {prog : ExceptT ε (Prog I) α} {rest : α → ExceptT ε (Prog I) β}

/-- What goes on after a computation that may fail. -/
def orFail (rest : α → Prog I (Except ε β)) : Except ε α → Prog I (Except ε β)
  | .ok value => rest value
  | .error error => done (.error error)

/-- A failure ends the program. -/
theorem failing_bind : ExceptT.run (prog >>= rest) = prog.run >>= orFail fun value =>
    (rest value).run := by
  change prog.run >>= _ = _
  congr 1
  funext result
  cases result <;> rfl

theorem Every.failing {gives : Except ε α → Prop} {after : Except ε β → Prop}
    (every : prog.run.Every may asks gives)
    (ok : ∀ value, gives (.ok value) → (rest value).run.Every may asks after)
    (error : ∀ error, gives (.error error) → after (.error error)) :
    (ExceptT.run (prog >>= rest)).Every may asks after := by
  rw [failing_bind]
  apply every.bind
  intro result given
  cases result with
  | ok value => exact ok value given
  | error failure => exact error failure given

theorem Within.failing (within : prog.run.Within cost most)
    (goesOn : ∀ value, (rest value).run.Within cost more) :
    (ExceptT.run (prog >>= rest)).Within cost (most + more) := by
  rw [failing_bind]
  apply within.bind
  intro result
  cases result with
  | ok value => exact goesOn value
  | error failure => trivial

end Failing

/-! ## Going on -/

/-- What is left of a program once its call is answered. -/
inductive After : Prog I α → Prog I α → Prop where
  | answer (asked : I.Call) (answered : I.Answer asked → Prog I α) (answer : I.Answer asked) :
      After (answered answer) (ask asked answered)

/-- No program asks forever. -/
theorem wellFounded_after : WellFounded (After (I := I) (α := α)) := by
  constructor
  intro prog
  induction prog with
  | done value => exact ⟨_, fun _ later => nomatch later⟩
  | ask asked answered ih =>
      constructor
      rintro _ ⟨⟩
      exact ih _

end Prog

end Keylens.Library
