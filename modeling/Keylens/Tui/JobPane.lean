import Keylens.Tui.Queueing

/-!
# Whether the job detail belongs to the selected job

A `Job` update names neither the queue nor the job it was asked for, so whatever
arrives is shown.  Later answers can also move another job or another queue
under the cursor, and opening a job asks for nothing when no queue is selected.
The detail belongs to the job in its title exactly as long as none of this
happens.
-/

namespace Keylens.Tui

open Keylens.Library Keylens.Connection Keylens.BullMq Keylens.Ui Keylens.Backend

/-- A job that is shown is the selected one, and was read from the selected
queue. -/
def QueuePane.DetailBelongs (jobOf : Option Str) (pane : QueuePane) : Prop :=
  pane.level = .job → ∀ detail, pane.job = .ready (some detail) →
    (∃ job, pane.selectedJob = some job ∧ detail.job.id = job.id) ∧
      ∃ queue, pane.selectedQueue = some queue ∧ jobOf = some queue.name

namespace Queueing

def DetailBelongs (state : Queueing) : Prop :=
  state.app.queuePane.DetailBelongs state.jobOf

/-- While a job is open, an answer that arrives is for the selected job of the
selected queue, or leaves the cursors on the same job and the same queue; and a
job is not opened over an earlier one while no queue is selected. -/
def KeepsDetail (state : Queueing) (input : QueueingInput) : Prop :=
  match input, state.requests with
  | .key event _, _ =>
      state.app.opensLevel event → state.app.level = .jobs → state.app.selectedJob.isSome →
        state.app.selectedQueue = none → ∀ detail, state.app.job ≠ .ready (some detail)
  | .arrive answer, .loadJob queue id :: _ =>
      state.app.level = .job → ∀ detail, answer.job = .ready (some detail) →
        state.app.selectedJob.map JobRef.id = some id ∧
          state.app.selectedQueue.map QueueSummary.name = some queue
  | .arrive answer, .loadJobs _ jobState :: _ =>
      state.app.level = .job → jobState = state.app.jobState →
        ∀ detail, state.app.job = .ready (some detail) →
          (state.app.jobAtCursor answer.jobs).map JobRef.id =
            state.app.selectedJob.map JobRef.id
  | .arrive answer, .loadQueues :: _ =>
      state.app.level = .job → ∀ detail, state.app.job = .ready (some detail) →
        (state.app.queueAtCursor answer.queues).map QueueSummary.name =
          state.app.selectedQueue.map QueueSummary.name
  | _, _ => True

end Queueing

/-- No key press shows a job under the title of another one, unless it opens a
job without asking for it. -/
theorem QueuePane.DetailBelongs.step {opens : Prop} {jobOf : Option Str}
    {before after : QueuePane} (belongs : before.DetailBelongs jobOf)
    (step : before.Step opens after)
    (asks : opens → before.level = .jobs → before.selectedJob.isSome →
      before.selectedQueue = none → ∀ detail, before.job ≠ .ready (some detail)) :
    after.DetailBelongs jobOf := by
  intro open' detail ready
  cases step with
  | keep => exact belongs open' detail ready
  | moveQueue _ level => exact absurd (level.symm.trans open') nofun
  | moveJob _ level => exact absurd (level.symm.trans open') nofun
  | listJobs => cases open'
  | cycleBlindly => cases open'
  | showJob job level asked =>
      have jobReady : job = .ready (some detail) := ready
      rw [jobReady] at asked
      cases asked
  | openBlindly isOpen level hasJob noQueue =>
      exact absurd ready (asks isOpen level hasJob noQueue detail)
  | leaveJob => cases open'
  | leaveJobs => cases open'
  | listQueues queues level => exact absurd (level.symm.trans open') nofun

namespace Queueing

variable {state : Queueing}

/-! ## The answers -/

/-- A table of queues keeps the detail in its place exactly when it leaves the
cursor on the same queue. -/
theorem detailBelongs_loadQueues (belongs : state.DetailBelongs)
    (queues : PaneState (List QueueSummary)) :
    (state.app.applyQueues queues).queuePane.DetailBelongs state.jobOf ↔
      (state.app.level = .job → ∀ detail, state.app.job = .ready (some detail) →
        (state.app.queueAtCursor queues).map QueueSummary.name =
          state.app.selectedQueue.map QueueSummary.name) := by
  have atCursor : (state.app.applyQueues queues).queuePane.selectedQueue =
      state.app.queueAtCursor queues := selectedQueue_applyQueues state.app queues
  constructor
  · intro after level detail ready
    rcases (belongs level detail ready).2 with ⟨queue, selected, readFrom⟩
    rcases (after level detail ready).2 with ⟨other, arrived, readFromOther⟩
    rw [readFromOther] at readFrom
    rw [← atCursor, arrived, show state.app.selectedQueue = some queue from selected]
    exact readFrom
  · intro keeps level detail ready
    rcases belongs level detail ready with ⟨jobSelected, queue, selected, readFrom⟩
    have named := keeps level detail ready
    rw [show state.app.selectedQueue = some queue from selected] at named
    rcases Option.map_eq_some_iff.mp named with ⟨other, arrived, sameName⟩
    exact ⟨jobSelected, other, atCursor.trans arrived, by rw [sameName]; exact readFrom⟩

/-- A list of jobs keeps the detail in its place exactly when it leaves the
cursor on the same job. -/
theorem detailBelongs_loadJobs (belongs : state.DetailBelongs)
    (jobs : PaneState (List JobRef)) :
    (state.app.applyJobs state.app.jobState jobs).queuePane.DetailBelongs state.jobOf ↔
      (state.app.level = .job → ∀ detail, state.app.job = .ready (some detail) →
        (state.app.jobAtCursor jobs).map JobRef.id = state.app.selectedJob.map JobRef.id) := by
  have atCursor : (state.app.applyJobs state.app.jobState jobs).queuePane.selectedJob =
      state.app.jobAtCursor jobs := selectedJob_applyJobs rfl jobs
  have pane : (state.app.applyJobs state.app.jobState jobs).queuePane =
      { state.app.queuePane with
        jobs
        jobSelected := (state.app.applyJobs state.app.jobState jobs).jobSelected } := by
    simp only [App.applyJobs, if_true, App.queuePane]
  constructor
  · intro after level detail ready
    rcases (belongs level detail ready).1 with ⟨job, selected, sameId⟩
    rw [pane] at after
    rcases (after level detail ready).1 with ⟨other, arrived, sameOther⟩
    rw [← pane, atCursor] at arrived
    rw [arrived, show state.app.selectedJob = some job from selected]
    exact congrArg some (sameOther.symm.trans sameId)
  · intro keeps
    rw [pane]
    intro level detail ready
    rcases belongs level detail ready with ⟨⟨job, selected, sameId⟩, queueSelected⟩
    have named := keeps level detail ready
    rw [show state.app.selectedJob = some job from selected] at named
    rcases Option.map_eq_some_iff.mp named with ⟨other, arrived, sameOther⟩
    refine ⟨⟨other, ?_, sameId.trans sameOther.symm⟩, queueSelected⟩
    rw [← pane, atCursor]
    exact arrived

/-- A job that arrives belongs exactly to the queue and the id it was asked
for. -/
theorem detailBelongs_loadJob (app : App) (queue id : Str)
    (answer : PaneState (Option JobDetail)) :
    ({ app with job := jobReply id answer } : App).queuePane.DetailBelongs (some queue) ↔
      (app.level = .job → ∀ detail, answer = .ready (some detail) →
        app.selectedJob.map JobRef.id = some id ∧
          app.selectedQueue.map QueueSummary.name = some queue) := by
  constructor
  · rintro after level detail rfl
    rcases after level _ rfl with ⟨⟨job, jobSelected, sameId⟩, selected, isSelected, readFrom⟩
    rw [show app.selectedJob = some job from jobSelected,
      show app.selectedQueue = some selected from isSelected]
    exact ⟨congrArg some sameId.symm, readFrom.symm⟩
  · intro keeps level detail ready
    rcases answer with _ | _ | ⟨_ | found⟩ | _ | _ <;> cases ready
    rcases keeps level found rfl with ⟨jobNamed, queueNamed⟩
    rcases Option.map_eq_some_iff.mp jobNamed with ⟨job, jobSelected, sameId⟩
    rcases Option.map_eq_some_iff.mp queueNamed with ⟨selected, isSelected, sameName⟩
    exact ⟨⟨job, jobSelected, sameId.symm⟩, selected, isSelected, by rw [sameName]⟩

/-- What the arrival of an answer comes to, exactly. -/
theorem detailBelongs_receive (belongs : state.DetailBelongs) {request : Request}
    {requests : List Request} (queued : state.requests = request :: requests) (answer : Answer) :
    ({ state with requests }.receive request answer).DetailBelongs ↔
      state.KeepsDetail (.arrive answer) := by
  cases request with
  | loadQueues =>
      simp only [KeepsDetail, queued]
      exact detailBelongs_loadQueues belongs answer.queues
  | loadJobs queue jobState =>
      simp only [KeepsDetail, queued]
      by_cases current : jobState = state.app.jobState
      · subst current
        apply (detailBelongs_loadJobs belongs answer.jobs).trans
        simp only [forall_const]
      · have received : state.app.applyJobs jobState answer.jobs = state.app := by
          rw [App.applyJobs, if_neg current]
        change (state.app.applyJobs jobState answer.jobs).queuePane.DetailBelongs state.jobOf ↔ _
        rw [received]
        exact iff_of_true belongs fun _ same => absurd same current
  | loadJob queue id =>
      simp only [KeepsDetail, queued]
      exact detailBelongs_loadJob state.app queue id answer.job
  | _ =>
      simp only [KeepsDetail, queued]
      exact iff_of_true belongs trivial

/-! ## One step -/

/-- Opening a job while no queue is selected leaves everything else as it is. -/
theorem queuePane_enterLevel_blindly {app : App} (level : app.level = .jobs)
    (hasJob : app.selectedJob.isSome) (noQueue : app.selectedQueue = none) :
    app.enterLevel.queuePane = { app.queuePane with level := .job } := by
  have opened : app.enterLevel = ({ app with level := .job, paneScroll := 0 } : App).loadJob := by
    simp only [App.enterLevel, level, hasJob, if_true]
  have kept : ({ app with level := .job, paneScroll := 0 } : App).loadJob =
      { app with level := .job, paneScroll := 0 } := by
    have noQueueBelow : ({ app with level := .job, paneScroll := 0 } : App).selectedQueue = none :=
      noQueue
    rw [App.loadJob, noQueueBelow]
  rw [opened, kept]
  rfl

/-- What a key press comes to, exactly. -/
theorem detailBelongs_key (belongs : state.DetailBelongs) (event : KeyEvent) (channel : Channel) :
    (state.act channel fun app => app.handleKey event).DetailBelongs ↔
      state.KeepsDetail (.key event channel) := by
  let before : App := { state.app with tx := { channel } }
  constructor
  · intro after isOpen level hasJob noQueue detail ready
    have opened : before.handleKey event = ({ before with splash := false } : App).enterLevel :=
      before.handleKey_of_opensLevel event isOpen
    have pane :
        (before.handleKey event).queuePane = { state.app.queuePane with level := .job } := by
      rw [opened]
      exact queuePane_enterLevel_blindly level hasJob noQueue
    have shown : (before.handleKey event).queuePane.DetailBelongs state.jobOf := after
    rw [pane] at shown
    rcases (shown rfl detail ready).2 with ⟨queue, selected, _⟩
    rw [show state.app.selectedQueue = some queue from selected] at noQueue
    cases noQueue
  · intro asks
    exact QueuePane.DetailBelongs.step belongs (before.keyPress_handleKey event).queuePane asks

/-- A step keeps the detail in its place exactly when it meets the condition. -/
theorem detailBelongs_step (state : Queueing) (input : QueueingInput)
    (belongs : state.DetailBelongs) :
    (state.step input).DetailBelongs ↔ state.KeepsDetail input := by
  apply step_iff_of_pane
  case ofPane =>
      intro before after pane _ readFrom belongs
      rwa [DetailBelongs, pane, readFrom]
  case key => exact detailBelongs_key belongs
  case receive => exact fun _ _ queued answer => detailBelongs_receive belongs queued answer
  case silent =>
      intro queued answer
      simp only [KeepsDetail, queued]
  case flush => exact fun _ => trivial
  case other => exact fun _ => trivial
  case holds => exact belongs

/-- Throughout a run, the job that is shown belongs to the job and the queue in
its title, exactly when every step of the run meets the condition. -/
theorem detailBelongs_iff_keepsDetail (server : ServerInfo) (url : Str) (tx : Sender)
    (inputs : List QueueingInput) :
    (∀ front, front <+: inputs →
        (run step { app := App.new server url tx } front).DetailBelongs) ↔
      Along step KeepsDetail { app := App.new server url tx } inputs := by
  apply forall_prefix_iff_along_of_step_iff detailBelongs_step
  intro level
  cases level

/-- The user opens job 1, goes back and opens job 2, but the channel is full.
Then job 1 arrives, and nothing is on the way that would correct it. -/
theorem detailBelongs_fails_for_late_job :
    let job (id : Str) : Job :=
      { id, name := [], data := [], opts := [], attemptsMade := 0, attemptsAllowed := none
        stacktrace := [], failedReason := [], returnValue := [], progress := [], timestamp := none
        processedOn := none, finishedOn := none, delay := none, priority := none, parentKey := [] }
    let state := run step startedQueueing (browseQueues ++
      [.key { code := .enter } .room,
        .arrive
          { jobs := .ready
              [{ id := "1".toList, score := none }, { id := "2".toList, score := none }] },
        .key { code := .enter } .room, .key { code := .esc } .room,
        .key { code := .char 'j' } .room, .key { code := .enter } .full,
        .arrive { job := .ready (some { job := job "1".toList, logs := [] }) }])
    state.app.level = .job ∧ state.app.selectedJob.map JobRef.id = some "2".toList ∧
      state.requests = [] ∧ ¬state.DetailBelongs := by
  intro job state
  have selected : state.app.selectedJob = some { id := "2".toList, score := none } := by decide
  refine ⟨rfl, by decide, by decide, fun belongs => ?_⟩
  rcases (belongs rfl _ rfl).1 with ⟨other, isSelected, sameId⟩
  rw [show state.app.queuePane.selectedJob = _ from selected] at isSelected
  cases isSelected
  revert sameId
  decide

end Queueing

end Keylens.Tui
