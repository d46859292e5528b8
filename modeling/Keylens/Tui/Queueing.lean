import Keylens.Tui.Apply
import Keylens.Tui.KeyPress
import Keylens.Library.Runs

/-!
# The queue view and its worker

The worker answers the requests one by one, in the order in which they were
accepted, and the answers arrive at any time between key presses.  `jobsOf` and
`jobOf` are not part of the program: they say for which queue and state the last
list of jobs was loaded, and from which queue the last job was read.
-/

namespace Keylens.Tui

open Keylens.Library Keylens.Connection Keylens.BullMq Keylens.Ui Keylens.Backend

/-- What the worker finds when it handles a request. -/
structure Answer where
  queues : PaneState (List QueueSummary) := .ready []
  jobs : PaneState (List JobRef) := .ready []
  job : PaneState (Option JobDetail) := .ready none

/-- The reply to `LoadJob`: a job carries the id that it was asked for. -/
def jobReply (id : Str) : PaneState (Option JobDetail) → PaneState (Option JobDetail)
  | .ready (some detail) => .ready (some { detail with job := { detail.job with id } })
  | other => other

structure Queueing where
  app : App
  /-- Accepted requests that are not yet answered, oldest first. -/
  requests : List Request := []
  jobsOf : Option (Str × State) := none
  jobOf : Option Str := none

inductive QueueingInput where
  | key (event : KeyEvent) (channel : Channel)
  | flush (channel : Channel)
  /-- The answer to the oldest request arrives. -/
  | arrive (answer : Answer)
  /-- Any other update arrives. -/
  | other (update : Update)

/-- An update that answers a request of the queue view. -/
def isQueueUpdate : Update → Bool
  | .queues _ | .jobs _ _ | .job _ => true
  | _ => false

namespace Queueing

def act (state : Queueing) (channel : Channel) (action : App → App) : Queueing :=
  let (app, accepted) := state.app.act channel action
  { state with app, requests := state.requests ++ accepted }

/-- The answer to a request arrives. -/
def receive (state : Queueing) (request : Request) (answer : Answer) : Queueing :=
  match request with
  | .loadQueues => { state with app := state.app.apply (.queues answer.queues) }
  | .loadJobs queue jobState =>
      { state with
        app := state.app.apply (.jobs jobState answer.jobs)
        jobsOf := if jobState = state.app.jobState then some (queue, jobState) else state.jobsOf }
  | .loadJob queue id =>
      { state with app := state.app.apply (.job (jobReply id answer.job)), jobOf := some queue }
  | _ => state

def step (state : Queueing) : QueueingInput → Queueing
  | .key event channel => state.act channel fun app => app.handleKey event
  | .flush channel => state.act channel App.flushSelection
  | .arrive answer =>
      match state.requests with
      | [] => state
      | request :: requests => { state with requests }.receive request answer
  | .other update =>
      if isQueueUpdate update then state else { state with app := state.app.apply update }

end Queueing

/-- The queue that the cursor comes to stand on when a list of queues arrives. -/
def App.queueAtCursor (app : App) (queues : PaneState (List QueueSummary)) : Option QueueSummary :=
  queues.ready?.bind fun list => list[min app.queueSelected (list.length - 1)]?

/-- The job that the cursor comes to stand on when a list of jobs arrives. -/
def App.jobAtCursor (app : App) (jobs : PaneState (List JobRef)) : Option JobRef :=
  jobs.ready?.bind fun list => list[min app.jobSelected (list.length - 1)]?

theorem selectedQueue_applyQueues (app : App) (queues : PaneState (List QueueSummary)) :
    (app.applyQueues queues).selectedQueue = app.queueAtCursor queues := by
  cases queues <;> rfl

theorem selectedJob_applyJobs {app : App} {jobState : State} (current : jobState = app.jobState)
    (jobs : PaneState (List JobRef)) :
    (app.applyJobs jobState jobs).selectedJob = app.jobAtCursor jobs := by
  rw [App.applyJobs, if_pos current]
  cases jobs <;> rfl

/-- Updates for other panes leave the queue view alone. -/
theorem queuePane_apply {update : Update} (other : isQueueUpdate update = false) (app : App) :
    (app.apply update).queuePane = app.queuePane := by
  cases update with
  | batch keys reset complete scannedPages => cases reset <;> rfl
  | detail keyMeta value stream =>
      change (app.applyDetail keyMeta value stream).queuePane = app.queuePane
      rw [App.applyDetail]
      split <;> rfl
  | queues | jobs | job => cases other
  | _ => rfl

namespace Queueing

/-- A property of the queue view can only change with a key press or with an
answer. -/
theorem step_iff_of_pane {property : Queueing → Prop} {keeps : Queueing → QueueingInput → Prop}
    {state : Queueing}
    (ofPane : ∀ before after : Queueing, after.app.queuePane = before.app.queuePane →
      after.jobsOf = before.jobsOf → after.jobOf = before.jobOf → property before →
        property after)
    (key : ∀ event channel, property (state.act channel fun app => app.handleKey event) ↔
      keeps state (.key event channel))
    (receive : ∀ request requests, state.requests = request :: requests → ∀ answer,
      property ({ state with requests }.receive request answer) ↔ keeps state (.arrive answer))
    (silent : state.requests = [] → ∀ answer, keeps state (.arrive answer))
    (flush : ∀ channel, keeps state (.flush channel))
    (other : ∀ update, keeps state (.other update)) (holds : property state)
    (input : QueueingInput) : property (state.step input) ↔ keeps state input := by
  cases input with
  | key event channel => exact key event channel
  | flush channel =>
      have same : property (state.act channel App.flushSelection) :=
        ofPane state _ (App.queuePane_flushSelection _) rfl rfl holds
      exact iff_of_true same (flush channel)
  | arrive answer =>
      cases queued : state.requests with
      | nil =>
          simp only [step, queued]
          exact iff_of_true holds (silent queued answer)
      | cons request requests =>
          simp only [step, queued]
          exact receive request requests queued answer
  | other update =>
      apply iff_of_true _ (other update)
      cases isQueue : isQueueUpdate update with
      | true => simpa only [step, isQueue, if_true] using holds
      | false =>
          simp only [step, isQueue, Bool.false_eq_true, if_false]
          exact ofPane state _ (queuePane_apply isQueue state.app) rfl rfl holds

/-! ## Two queues -/

def emptyQueue (name : Str) : QueueSummary :=
  { name, paused := false, counts := [] }

/-- An app that has just been started. -/
def startedQueueing : Queueing :=
  { app := App.new { vendor := .redis, version := [], mode := [], fields := [] }
      "redis://localhost".toList { channel := .room } }

/-- The queue view is opened, with the queues `a` and `b`. -/
def browseQueues : List QueueingInput :=
  [.other (.detected [{ lensId := "bullmq".toList, confidence := .certain, version := none
                        prefix' := "bull".toList, summary := [], targets := [] }]),
    .key { code := .char '2' } .room,
    .arrive { queues := .ready [emptyQueue "a".toList, emptyQueue "b".toList] }]

end Queueing

end Keylens.Tui
