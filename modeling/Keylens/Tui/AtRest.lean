import Keylens.Tui.Waiting

/-!
# The browser between two events

While no key is pressed, no deadline and no tick comes, and the reader says nothing, the
worker answers what it was asked for and the app takes the answers.  That comes to an end:
then nothing more can happen, and nothing is waited for.
-/

namespace Keylens.Tui

open Keylens.Library Keylens.Connection Keylens.BullMq Keylens.Ui Keylens.Backend

/-- The worker goes on, or the app takes an update. -/
def BrowseEvent.isQuiet : BrowseEvent → Bool
  | .receive | .work => true
  | _ => false

namespace Browse

/-- What goes on without a key, a deadline, a tick or a word of the reader. -/
def Drains (setting : Setting) (may : calls.Answers) (rtt : Nat) (before after : Browse) : Prop :=
  ∃ event, event.isQuiet ∧ Step setting may rtt before event after

variable {setting : Setting} {may : calls.Answers} {rtt : Nat} {state next : Browse}
variable {lens : BullMqLens} {server : ServerInfo} {url : Str}
variable {heeds : Browse → BrowseEvent → Prop}

/-- An update that waits is one that the UI has not taken. -/
theorem received_lt_of_waiting {source : Option Nat} {update : Update}
    {rest : List (Option Nat × Update)} (waiting : state.tasks.updates = (source, update) :: rest) :
    state.tasks.received < state.tasks.sent.length := by
  have short := congrArg List.length waiting
  rw [Tasks.updates, List.length_drop, List.length_cons] at short
  omega

theorem tasks_drains (drains : Drains setting may rtt state next) :
    Tasks.Drains setting may state.tasks next.tasks := by
  rcases drains with ⟨event, quiet, step⟩
  cases step with
  | key | fetch | tick | wait | read => cases quiet
  | work move => exact .move move
  | receive runs waiting =>
      rw [tasks_receive]
      exact .receive (received_lt_of_waiting waiting)

theorem wellFounded_drains : WellFounded fun next state => Drains setting may rtt state next :=
  Subrelation.wf tasks_drains (InvImage.wf Browse.tasks Tasks.wellFounded_drains)

/-- When the browser rests so do the tasks. -/
theorem tasks_rests (runs : state.app.quit = false)
    (rests : Rests (Drains setting may rtt) state) :
    Rests (Tasks.Drains setting may) state.tasks := by
  intro tasks drains
  cases drains with
  | move move => exact rests _ ⟨.work, rfl, .work move⟩
  | receive waiting =>
      cases updates : state.tasks.updates with
      | nil =>
          have taken := List.drop_eq_nil_iff.mp updates
          omega
      | cons oldest rest => exact rests _ ⟨.receive, rfl, .receive runs updates⟩

theorem quit_apply (app : App) (update : Update) : (app.apply update).quit = app.quit := by
  cases update with
  | batch keys reset complete scannedPages => cases reset <;> rfl
  | detail keyMeta value stream =>
      rw [App.apply, App.applyDetail]
      split <;> rfl
  | jobs jobState data =>
      rw [App.apply, App.applyJobs]
      split <;> rfl
  | _ => rfl

theorem quit_drains (drains : Drains setting may rtt state next) :
    next.app.quit = state.app.quit := by
  rcases drains with ⟨event, quiet, step⟩
  cases step with
  | key | fetch | tick | wait | read => cases quiet
  | work move => rfl
  | receive runs waiting =>
      rw [app_receive]
      exact quit_apply _ _

/-- What holds wherever the browser gets holds when it comes to rest, and it does. -/
theorem inevitably_at_rest {invariant : Browse → Prop}
    (reachable : Reachable setting calls.anything rtt heeds lens server url state)
    (runs : state.app.quit = false)
    (quiet : ∀ state event, event.isQuiet → heeds state event)
    (invariants : ∀ state, Reachable setting calls.anything rtt heeds lens server url state →
      invariant state) :
    Inevitable (Drains setting calls.anything rtt)
      (fun rest => Rests (Drains setting calls.anything rtt) rest ∧ rest.tasks.Settled ∧
        rest.tasks.accepted = state.tasks.accepted ∧ invariant rest) state := by
  have stays (before after : Browse)
      (known : Reachable setting calls.anything rtt heeds lens server url before ∧
        before.app.quit = false ∧ before.tasks.accepted = state.tasks.accepted)
      (drains : Drains setting calls.anything rtt before after) :
      Reachable setting calls.anything rtt heeds lens server url after ∧
        after.app.quit = false ∧ after.tasks.accepted = state.tasks.accepted := by
    refine ⟨?_, (quit_drains drains).trans known.2.1,
      (Tasks.accepted_of_drains (tasks_drains drains)).trans known.2.2⟩
    rcases drains with ⟨event, isQuiet, step⟩
    exact known.1.next (quiet before event isQuiet) step
  have rests := inevitable_rests (@wellFounded_drains setting calls.anything rtt) state
  apply (rests.and_invariant stays ⟨reachable, runs, rfl⟩).mono
  rintro rest ⟨still, there, goesOn, same⟩
  have settled := Tasks.settled_of_rests answerable_anything there.known.delivers
    (tasks_rests goesOn still)
  exact ⟨still, settled, same, invariants rest there⟩

/-! ## What it shows then -/

variable {setting : Setting} {rtt : Nat} {state : Browse}
variable {lens : BullMqLens} {server : ServerInfo} {url : Str}

/-- Until the next key, deadline, tick or word of the reader, the browser comes to rest
whatever the worker does: nothing more can happen then, everything that was asked for and
still matters is answered, and no scan is said to be going on. -/
theorem comes_to_rest
    (reachable : Reachable setting calls.anything rtt (fun _ _ => True) lens server url state)
    (runs : state.app.quit = false) :
    Inevitable (Drains setting calls.anything rtt)
      (fun rest => Rests (Drains setting calls.anything rtt) rest ∧ rest.tasks.Settled ∧
        rest.tasks.accepted = state.tasks.accepted ∧ rest.app.loading = false) state := by
  have asked (state : Browse)
      (reachable : Reachable setting calls.anything rtt (fun _ _ => True) lens server url state) :
      state.served.ScanAsked := by
    induction reachable with
    | start => exact fun _ => ⟨.rescan none none, by simp [served_start], rfl⟩
    | next before _ step ih => exact ih.step (served_step (Reachable.known before) step)
  apply (inevitably_at_rest reachable runs (fun _ _ _ => trivial) asked).mono
  rintro rest ⟨still, settled, same, scanAsked⟩
  refine ⟨still, settled, same, ?_⟩
  by_contra loading
  rcases scanAsked (Bool.eq_true_of_not_eq_false loading) with ⟨request, member, _⟩
  have nothing : rest.served.requests = [] := settled.outstandingRequests_eq
  rw [nothing] at member
  cases member

/-- The keyspace is being listed. -/
theorem comes_to_rest_start :
    Inevitable (Drains plainSetting calls.anything 0)
      (fun rest => Rests (Drains plainSetting calls.anything 0) rest ∧ rest.tasks.Settled ∧
        rest.tasks.accepted = [.detect, .rescan none none] ∧ rest.app.loading = false)
      plainStart :=
  comes_to_rest .start rfl

/-- No pane loads for ever: unless a key press cycles to a state of the jobs that nobody
asks for, no pane is loading when the browser comes to rest. -/
theorem panes_come_to_rest
    (reachable : Reachable setting calls.anything rtt
      (fun state event => state.served.CyclesAsked event) lens server url state)
    (runs : state.app.quit = false) :
    Inevitable (Drains setting calls.anything rtt)
      (fun rest => Rests (Drains setting calls.anything rtt) rest ∧
        ∀ pane, rest.app.core.isLoading pane = false) state := by
  have asked (state : Browse)
      (reachable : Reachable setting calls.anything rtt
        (fun state event => state.served.CyclesAsked event) lens server url state) :
      state.served.PanesAsked := by
    induction reachable with
    | start =>
        intro pane loading
        cases pane <;> cases loading
    | next before heeded step ih => exact ih.step heeded (served_step (Reachable.known before) step)
  have quiet (state : Browse) (event : BrowseEvent) (isQuiet : event.isQuiet) :
      state.served.CyclesAsked event := by
    cases event <;> trivial
  apply (inevitably_at_rest reachable runs quiet asked).mono
  rintro rest ⟨still, settled, _, panesAsked⟩
  refine ⟨still, ?_⟩
  intro pane
  by_contra loading
  rcases panesAsked pane (Bool.eq_true_of_not_eq_false loading) with ⟨request, member, _⟩
  have nothing : rest.served.requests = [] := settled.outstandingRequests_eq
  rw [nothing] at member
  cases member

/-- The slow log is asked for. -/
theorem panes_come_to_rest_slowlog :
    Inevitable (Drains plainSetting calls.anything 0)
      (fun rest => Rests (Drains plainSetting calls.anything 0) rest ∧
        ∀ pane, rest.app.core.isLoading pane = false)
      (plainStart.press 0 { code := .char '3' }) := by
  have heeded : plainStart.served.CyclesAsked (.key { code := .char '3' }) := by
    intro jobState cycles
    cases cycles
  exact panes_come_to_rest (.next .start heeded (.key rfl _)) (by decide)

end Browse

end Keylens.Tui
