import Keylens.Tui.Queueing

/-!
# Whether the job list belongs to the selected queue

A `Jobs` update names the state of its jobs but not their queue, and a `Queues`
update can put another queue under the cursor.  The list belongs to the queue in
its title exactly as long as neither happens while it is shown.
-/

namespace Keylens.Tui

open Keylens.Library Keylens.Connection Keylens.BullMq Keylens.Ui Keylens.Backend

/-- Below the table of queues, a list of jobs that is shown was loaded for the
selected queue and the selected state. -/
def QueuePane.ListBelongs (jobsOf : Option (Str × State)) (pane : QueuePane) : Prop :=
  pane.level ≠ .queues → ∀ list, pane.jobs = .ready list →
    ∃ queue, pane.selectedQueue = some queue ∧ jobsOf = some (queue.name, pane.jobState)

namespace Queueing

def ListBelongs (state : Queueing) : Prop :=
  state.app.queuePane.ListBelongs state.jobsOf

/-- Below the table of queues, a list of jobs that arrives for the selected state
is for the selected queue, and a table of queues that arrives while a list of
jobs is shown leaves the cursor on the same queue. -/
def KeepsList (state : Queueing) (input : QueueingInput) : Prop :=
  match input, state.requests with
  | .arrive answer, .loadJobs queue jobState :: _ =>
      state.app.level ≠ .queues → jobState = state.app.jobState →
        ∀ list, answer.jobs = .ready list →
          state.app.selectedQueue.map QueueSummary.name = some queue
  | .arrive answer, .loadQueues :: _ =>
      state.app.level ≠ .queues → ∀ list, state.app.jobs = .ready list →
        (state.app.queueAtCursor answer.queues).map QueueSummary.name =
          state.app.selectedQueue.map QueueSummary.name
  | _, _ => True

end Queueing

/-- No key press puts a list under the title of another queue. -/
theorem QueuePane.ListBelongs.step {opens : Prop} {jobsOf : Option (Str × State)}
    {before after : QueuePane} (belongs : before.ListBelongs jobsOf)
    (step : before.Step opens after) : after.ListBelongs jobsOf := by
  intro below list ready
  cases step with
  | keep => exact belongs below list ready
  | moveQueue _ level => exact absurd level below
  | moveJob _ level => exact belongs below list ready
  | listJobs jobState jobs jobSelected asked =>
      have jobsReady : jobs = .ready list := ready
      rw [jobsReady] at asked
      cases asked
  | cycleBlindly jobState level noQueue =>
      rcases belongs level list ready with ⟨queue, selected, _⟩
      rw [noQueue] at selected
      cases selected
  | showJob job level asked => exact belongs level list ready
  | openBlindly _ level hasJob noQueue =>
      apply belongs _ list ready
      rw [level]
      exact nofun
  | leaveJob level =>
      apply belongs _ list ready
      rw [level]
      exact nofun
  | leaveJobs level => exact absurd rfl below
  | listQueues queues level => exact absurd level below

namespace Queueing

variable {state : Queueing}

/-- A table of queues keeps the list in its place exactly when it leaves the
cursor on the same queue. -/
theorem listBelongs_loadQueues (belongs : state.ListBelongs)
    (queues : PaneState (List QueueSummary)) :
    (state.app.applyQueues queues).queuePane.ListBelongs state.jobsOf ↔
      (state.app.level ≠ .queues → ∀ list, state.app.jobs = .ready list →
        (state.app.queueAtCursor queues).map QueueSummary.name =
          state.app.selectedQueue.map QueueSummary.name) := by
  have atCursor : (state.app.applyQueues queues).queuePane.selectedQueue =
      state.app.queueAtCursor queues := selectedQueue_applyQueues state.app queues
  constructor
  · intro after below list ready
    rcases belongs below list ready with ⟨queue, selected, loadedFor⟩
    rcases after below list ready with ⟨other, arrived, loadedForOther⟩
    rw [loadedForOther] at loadedFor
    have sameName : other.name = queue.name := congrArg Prod.fst (Option.some.inj loadedFor)
    rw [← atCursor, arrived, show state.app.selectedQueue = some queue from selected]
    exact congrArg some sameName
  · intro keeps below list ready
    rcases belongs below list ready with ⟨queue, selected, loadedFor⟩
    have named := keeps below list ready
    rw [show state.app.selectedQueue = some queue from selected] at named
    rcases Option.map_eq_some_iff.mp named with ⟨other, arrived, sameName⟩
    exact ⟨other, atCursor.trans arrived, by rw [sameName]; exact loadedFor⟩

/-- A list of jobs for the selected state belongs exactly to its own queue. -/
theorem listBelongs_loadJobs (queue : Str) (jobs : PaneState (List JobRef)) :
    (state.app.applyJobs state.app.jobState jobs).queuePane.ListBelongs
        (some (queue, state.app.jobState)) ↔
      (state.app.level ≠ .queues → ∀ list, jobs = .ready list →
        state.app.selectedQueue.map QueueSummary.name = some queue) := by
  rw [App.applyJobs, if_pos rfl]
  constructor
  · intro after below list ready
    rcases after below list ready with ⟨selected, isSelected, loadedFor⟩
    have sameName : selected.name = queue :=
      (congrArg Prod.fst (Option.some.inj loadedFor)).symm
    rw [show state.app.selectedQueue = some selected from isSelected, ← sameName]
    rfl
  · intro keeps below list ready
    rcases Option.map_eq_some_iff.mp (keeps below list ready) with ⟨selected, isSelected, sameName⟩
    exact ⟨selected, isSelected, by rw [sameName]; rfl⟩

/-- What the arrival of an answer comes to, exactly. -/
theorem listBelongs_receive (belongs : state.ListBelongs) {request : Request}
    {requests : List Request} (queued : state.requests = request :: requests) (answer : Answer) :
    ({ state with requests }.receive request answer).ListBelongs ↔
      state.KeepsList (.arrive answer) := by
  cases request with
  | loadQueues =>
      simp only [KeepsList, queued]
      exact listBelongs_loadQueues belongs answer.queues
  | loadJobs queue jobState =>
      simp only [KeepsList, queued]
      by_cases current : jobState = state.app.jobState
      · subst current
        have received :
            { state with requests }.receive (.loadJobs queue state.app.jobState) answer =
              { state with
                requests
                app := state.app.applyJobs state.app.jobState answer.jobs
                jobsOf := some (queue, state.app.jobState) } := by
          simp only [receive, App.apply, if_true]
        rw [received]
        apply (listBelongs_loadJobs queue answer.jobs).trans
        simp only [forall_const]
      · have received : { state with requests }.receive (.loadJobs queue jobState) answer =
            { state with requests } := by
          simp only [receive, App.apply, App.applyJobs, if_neg current]
        rw [received]
        exact iff_of_true belongs fun _ same => absurd same current
  | loadJob queue id =>
      simp only [KeepsList, queued]
      exact iff_of_true belongs trivial
  | _ =>
      simp only [KeepsList, queued]
      exact iff_of_true belongs trivial

/-- A step keeps the list in its place exactly when it meets the condition. -/
theorem listBelongs_step (state : Queueing) (input : QueueingInput) (belongs : state.ListBelongs) :
    (state.step input).ListBelongs ↔ state.KeepsList input := by
  apply step_iff_of_pane
  case ofPane =>
      intro before after pane loaded _ belongs
      rwa [ListBelongs, pane, loaded]
  case key =>
      intro event channel
      apply iff_of_true _ trivial
      let before : App := { state.app with tx := { channel } }
      exact QueuePane.ListBelongs.step belongs (before.keyPress_handleKey event).queuePane
  case receive => exact fun _ _ queued answer => listBelongs_receive belongs queued answer
  case silent =>
      intro queued answer
      simp only [KeepsList, queued]
  case flush => exact fun _ => trivial
  case other => exact fun _ => trivial
  case holds => exact belongs

/-- Throughout a run, the list of jobs belongs to the queue and state in its
title, exactly when every step of the run meets the condition. -/
theorem listBelongs_iff_keepsList (server : ServerInfo) (url : Str) (tx : Sender)
    (inputs : List QueueingInput) :
    (∀ front, front <+: inputs →
        (run step { app := App.new server url tx } front).ListBelongs) ↔
      Along step KeepsList { app := App.new server url tx } inputs := by
  apply forall_prefix_iff_along_of_step_iff listBelongs_step
  exact fun below => absurd rfl below

/-- The list of queue A arrives after the user has gone back and opened queue
B. -/
theorem listBelongs_fails_for_late_list :
    let state := run step startedQueueing (browseQueues ++
      [.key { code := .enter } .room, .key { code := .esc } .room,
        .key { code := .char 'j' } .room, .key { code := .enter } .room,
        .arrive { jobs := .ready [{ id := "1".toList, score := none }] }])
    state.app.level = .jobs ∧ state.app.selectedQueue.map QueueSummary.name = some "b".toList ∧
      state.jobsOf = some ("a".toList, .failed) ∧ ¬state.ListBelongs := by
  intro state
  have selected : state.app.selectedQueue = some (emptyQueue "b".toList) := by decide
  have loadedFor : state.jobsOf = some ("a".toList, .failed) := by decide
  refine ⟨rfl, by decide, loadedFor, fun belongs => ?_⟩
  rcases belongs nofun _ rfl with ⟨queue, isSelected, loaded⟩
  rw [show state.app.queuePane.selectedQueue = _ from selected] at isSelected
  cases isSelected
  rw [loadedFor] at loaded
  revert loaded
  decide

end Queueing

end Keylens.Tui
