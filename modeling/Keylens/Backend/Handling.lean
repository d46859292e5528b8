import Keylens.Library.Host
import Keylens.Backend.Service

/-!
# A request on its way to its update

What the worker does for a request is a program.  When its calls are answered in one way,
the worker gets from the request to the update, call by call, and whatever every move
keeps holds then.
-/

namespace Keylens.Backend

open Keylens.Library Keylens.Connection Keylens.BullMq Keylens.Ui

namespace Tasks

/-- Every move of the worker keeps it. -/
def KeptByMoves {σ : Type} (setting : Setting) (host : Host calls σ) (first : σ)
    (holds : Tasks → Prop) : Prop :=
  ∀ before after, holds before →
    Move setting (host.answers first before.asked) before after → holds after

/-- The main loop has answered the request that it was to take next. -/
def handled (state : Tasks) (made : List Call) (loop : Loop) (update : Update) : Tasks :=
  { state.put (some state.taken) update with
    loop, taken := state.taken + 1, asked := state.asked ++ made }

variable {σ : Type} {setting : Setting} {host : Host calls σ} {first now : σ}
variable {holds : Tasks → Prop} {state : Tasks} {made : List Call}

theorem take_of_handle {request : Request} {work : Work (Loop × Update)}
    (handles : Work.handle setting state.loop request = some work) :
    state.take setting request =
      { state with taken := state.taken + 1, main := some (state.taken, work) } := by
  have turned : state.take setting request =
      turnTo setting { state with taken := state.taken + 1 } state.taken request := by
    cases request <;> first | rfl | cases handles
  rw [turned, turnTo, handles]
  rfl

/-- The main loop asks one thing after the other. -/
theorem KeptByMoves.asks (kept : KeptByMoves setting host first holds)
    {work : Work (Loop × Update)} {answer : Loop × Update}
    (runs : work.Runs host now made answer) {number : Nat} (here : holds state)
    (main : state.main = some (number, work)) (stands : host.after first state.asked = now)
    {asked : List Call} (asks : asked = state.asked ++ made) :
    holds { state with main := some (number, .done answer), asked } := by
  induction runs generalizing state with
  | done =>
      rw [← main, asks.trans (List.append_nil _)]
      exact here
  | @ask call answered now made value answer told rest ih =>
      subst stands
      have next := kept _ _ here (.mainAsks main told)
      have there := ih next rfl (Host.after_concat ..) (asks.trans (List.append_cons ..))
      exact there

/-- The request is taken and answered. -/
theorem KeptByMoves.handles (kept : KeptByMoves setting host first holds) {request : Request}
    {work : Work (Loop × Update)} {loop : Loop} {update : Update} (here : holds state)
    (idle : state.main = none) (accepted : state.accepted[state.taken]? = some request)
    (handles : Work.handle setting state.loop request = some work)
    (runs : work.Runs host (host.after first state.asked) made (loop, update))
    (room : state.hasRoom) : holds (state.handled made loop update) := by
  have taken := kept _ _ here (.take idle accepted)
  rw [take_of_handle handles] at taken
  have sent := kept _ _ (kept.asks runs taken rfl rfl rfl) (.mainSends rfl room)
  rwa [← idle] at sent

/-- A task asks one thing after the other and sends its update. -/
theorem KeptByMoves.answers (kept : KeptByMoves setting host first holds) {work : Work Update}
    {update : Update} (runs : work.Runs host now made update) {front back : List Task}
    {number : Nat} {aborted : Bool} (here : holds state)
    (spawned : state.spawned = front ++ ⟨number, some work, aborted⟩ :: back)
    (stands : host.after first state.asked = now) (room : state.hasRoom) {asked : List Call}
    (asks : asked = state.asked ++ made) :
    holds { state.put (some number) update with
      spawned := front ++ ⟨number, none, aborted⟩ :: back, asked } := by
  induction runs generalizing state with
  | done =>
      rw [asks.trans (List.append_nil _)]
      exact kept _ _ here (.taskSends spawned room)
  | @ask call answered now made value answer told rest ih =>
      subst stands
      have next := kept _ _ here (.taskAsks spawned told)
      have there := ih next rfl (Host.after_concat ..) room (asks.trans (List.append_cons ..))
      exact there

theorem Reachable.keptByMoves {may : calls.Answers} {lens : BullMqLens} :
    KeptByMoves setting (Host.always may) () (Reachable setting may lens) :=
  fun _ _ reachable move => reachable.tail (.drains (.move move))

end Tasks

end Keylens.Backend
