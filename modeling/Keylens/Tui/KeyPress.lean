import Keylens.Tui.Intent

/-!
# What a key press can do

A key press leaves the selection alone or fetches the key under the cursor, and
it takes one of the listed steps in the queue view.  Which of this it does follows
from its intent and from the level of the queue view that the intent is for.
-/

namespace Keylens.Tui

open Keylens.Library Keylens.Connection Keylens.BullMq Keylens.Ui Keylens.Backend

/-- What a handler can do; `opens` says that it goes one level deeper in the
queue view. -/
structure KeyPress (opens : Prop) (before after : App) : Prop where
  selection : before.SelectsOrKeeps after
  queuePane : QueuePane.Step opens before.queuePane after.queuePane

namespace App

/-- The keys that go one level deeper. -/
def openKeys : List KeyCode :=
  [.enter, .char ' ', .right, .char 'l']

/-- Whether a key press goes one level deeper in the queue view. -/
def opensLevel (app : App) (key : KeyEvent) : Bool :=
  app.mode = .normal && app.view = .queues && key.code ∈ openKeys

end App

/-- Where in the queue view a key press can mean the intent; `opens` says that the
key goes one level deeper. -/
def Intent.Allowed (opens : Prop) (core : Core) : Intent → Prop
  | .loadQueues | .moveQueue _ => core.level = .queues
  | .listJobs | .moveJob _ => core.level = .jobs
  | .showJob => core.level = .job
  | .openQueue => core.selectedQueue.isSome
  | .openJob => opens ∧ core.level = .jobs ∧ core.selectedJob.isSome
  | .cycle _ => core.level ≠ .queues
  | .leave .jobs => core.level = .job
  | .leave level => level = .queues ∧ core.level = .jobs
  | _ => True

/-! ## What an intent does in the queue view -/

theorem QueuePane.Step.of_eq {opens : Prop} {before after : QueuePane} (same : after = before) :
    QueuePane.Step opens before after := by
  rw [same]
  exact .keep

namespace Core

variable (core : Core)

def queuePane (core : Core) : QueuePane where
  level := core.level
  queues := core.queues
  queueSelected := core.queueSelected
  jobState := core.jobState
  jobs := core.jobs
  jobSelected := core.jobSelected
  job := core.job

theorem queuePane_send (request : Request) : (core.send request).queuePane = core.queuePane := by
  rcases core.send_eq request with ⟨error, tx, sent, _⟩
  rw [sent]
  rfl

theorem queuePane_flush : core.flush.queuePane = core.queuePane := by
  rcases core.flush_eq with ⟨detail, pendingKey, selectionDirty, error, tx, flushed, _⟩
  rw [flushed]
  rfl

theorem queuePane_walk (delta : Int) : (core.walk delta).queuePane = core.queuePane := by
  rcases core.walk_eq delta with ⟨selected, selectionDirty, error, walked⟩
  rw [walked]
  rfl

theorem ready_awaited {α : Type} : (core.awaited : PaneState α).ready? = none := by
  rw [awaited]
  split <;> rfl

/-- Loading a list of jobs does nothing without a queue, and shows nothing yet
otherwise. -/
theorem loadJobs_cases :
    core.selectedQueue = none ∧ core.loadJobs = core ∨
      core.loadJobs.queuePane = { core.queuePane with jobs := core.awaited } := by
  rw [loadJobs]
  cases core.selectedQueue with
  | none => exact .inl ⟨rfl, rfl⟩
  | some queue =>
      right
      rw [← core.queuePane_send (.loadJobs queue.name core.jobState)]
      rfl

theorem loadJob_cases :
    (core.selectedQueue = none ∨ core.selectedJob = none) ∧ core.loadJob = core ∨
      core.loadJob.queuePane = { core.queuePane with job := core.awaited } := by
  rw [loadJob]
  cases core.selectedQueue with
  | none => exact .inl ⟨.inl rfl, rfl⟩
  | some queue =>
      cases core.selectedJob with
      | none => exact .inl ⟨.inr rfl, rfl⟩
      | some job =>
          right
          rw [← core.queuePane_send (.loadJob queue.name job.id)]
          rfl

end Core

namespace Intent

variable {opens : Prop} {core : Core}

theorem step_loadQueues (level : core.level = .queues) :
    QueuePane.Step opens core.queuePane (loadQueues.run core).queuePane := by
  have sent : (loadQueues.run core).queuePane = { core.queuePane with queues := core.awaited } := by
    rw [← core.queuePane_send .loadQueues]
    rfl
  rw [sent]
  exact .listQueues core.awaited level

/-- Loading the jobs again while they are listed. -/
theorem step_listJobs (level : core.level = .jobs) :
    QueuePane.Step opens core.queuePane (listJobs.run core).queuePane := by
  rcases core.loadJobs_cases with ⟨_, same⟩ | panes
  · rw [run, same]
    exact .keep
  · have listed : QueuePane.Step opens core.queuePane
        { core.queuePane with level := .jobs, jobs := core.awaited } :=
      .listJobs core.jobState core.awaited core.jobSelected core.ready_awaited
    rw [run, panes]
    rwa [← level] at listed

/-- Loading the job again while it is shown. -/
theorem step_showJob (level : core.level = .job) :
    QueuePane.Step opens core.queuePane (showJob.run core).queuePane := by
  rcases core.loadJob_cases with ⟨_, same⟩ | panes
  · rw [run, same]
    exact .keep
  · have below : core.queuePane.level ≠ .queues := by
      intro queues
      cases level.symm.trans queues
    have shown : QueuePane.Step opens core.queuePane
        { core.queuePane with level := .job, job := core.awaited } :=
      .showJob core.awaited below core.ready_awaited
    rw [run, panes]
    rwa [← level] at shown

theorem step_openQueue (hasQueue : core.selectedQueue.isSome) :
    QueuePane.Step opens core.queuePane (openQueue.run core).queuePane := by
  let opened : Core := { core with level := .jobs, jobSelected := 0 }
  rcases opened.loadJobs_cases with ⟨noQueue, _⟩ | panes
  · rw [show core.selectedQueue = none from noQueue] at hasQueue
    cases hasQueue
  · rw [run, panes]
    exact .listJobs core.jobState opened.awaited 0 opened.ready_awaited

theorem step_openJob (isOpen : opens) (level : core.level = .jobs)
    (hasJob : core.selectedJob.isSome) :
    QueuePane.Step opens core.queuePane (openJob.run core).queuePane := by
  let opened : Core := { core with level := .job }
  rcases opened.loadJob_cases with ⟨missing, same⟩ | panes
  · rw [run, same]
    rcases missing with noQueue | noJob
    · exact .openBlindly isOpen level hasJob noQueue
    · rw [show core.selectedJob = none from noJob] at hasJob
      cases hasJob
  · have below : core.queuePane.level ≠ .queues := by
      intro queues
      cases level.symm.trans queues
    rw [run, panes]
    exact .showJob opened.awaited below opened.ready_awaited

theorem step_cycle (jobState : State) (level : core.level ≠ .queues) :
    QueuePane.Step opens core.queuePane ((cycle jobState).run core).queuePane := by
  let cycled : Core := { core with jobState, jobSelected := 0, level := .jobs }
  rcases cycled.loadJobs_cases with ⟨noQueue, same⟩ | panes
  · rw [run, same]
    exact .cycleBlindly jobState level noQueue
  · rw [run, panes]
    exact .listJobs jobState cycled.awaited 0 cycled.ready_awaited

/-- Acting on an intent is a step of the queue view. -/
theorem step_run {intent : Intent} (allowed : intent.Allowed opens core) :
    QueuePane.Step opens core.queuePane (intent.run core).queuePane := by
  cases intent with
  | stay | retree => exact .keep
  | rescan | more | refreshInfo | loadSlowlog | loadClients | loadCluster | loadPubSub =>
      exact .of_eq (core.queuePane_send _)
  | loadQueues => exact step_loadQueues allowed
  | listJobs => exact step_listJobs allowed
  | showJob => exact step_showJob allowed
  | openQueue => exact step_openQueue allowed
  | openJob => exact step_openJob allowed.1 allowed.2.1 allowed.2.2
  | cycle jobState => exact step_cycle jobState allowed
  | leave level =>
      cases level with
      | queues => exact .leaveJobs allowed.2
      | jobs => exact .leaveJob allowed
      | job => cases allowed.1
  | moveQueue delta =>
      rcases core.moveQueue_eq delta with ⟨queueSelected, moved⟩
      rw [run, moved]
      exact .moveQueue queueSelected allowed
  | moveJob delta =>
      rcases core.moveJob_eq delta with ⟨jobSelected, moved⟩
      rw [run, moved]
      exact .moveJob jobSelected allowed
  | jumpToParent =>
      rw [run]
      split <;> exact .keep
  | walk delta => exact .of_eq (core.queuePane_walk delta)
  | fetchFirst | fetchLast | fetchHere => exact .of_eq (Core.queuePane_flush _)

end Intent

/-! ## What an intent does to the selection -/

namespace Intent

variable {before after : App} {intent : Intent}

/-- The intents that fetch a key put the cursor somewhere and flush. -/
theorem fetched_run (fetching : intent.fetches) (app : App) :
    ∃ moved : App, moved.selection = app.selection ∧
      intent.run app.core = moved.flushSelection.core := by
  have flushed (selected : Nat) :
      ({ app.core with selected } : Core).touch.flush =
        ({ app with selected } : App).touchSelection.flushSelection.core :=
    (App.core_flushSelection (App.touchSelection { app with selected })).symm
  cases intent with
  | fetchFirst => exact ⟨({ app with selected := 0 } : App).touchSelection, rfl, flushed 0⟩
  | fetchLast =>
      exact ⟨({ app with selected := app.rows.length - 1 } : App).touchSelection, rfl, flushed _⟩
  | fetchHere => exact ⟨app.touchSelection, rfl, flushed app.selected⟩
  | _ => cases fetching

theorem selectsOrKeeps (acts : after.core = intent.run before.core) :
    before.SelectsOrKeeps after := by
  cases fetching : intent.fetches with
  | true =>
      right
      rcases intent.fetched_run fetching before with ⟨moved, same, flushed⟩
      exact ⟨moved, same, congrArg Core.selection (acts.trans flushed)⟩
  | false =>
      left
      have kept := selection_run fetching before.core
      rw [← acts] at kept
      exact kept

theorem keyPress {opens : Prop} (acts : after.core = intent.run before.core)
    (allowed : intent.Allowed opens before.core) : KeyPress opens before after where
  selection := selectsOrKeeps acts
  queuePane := by
    have step := step_run allowed
    rw [← acts] at step
    exact step

end Intent

/-! ## Where an intent is for -/

namespace App

variable (app : App) (key : KeyEvent) {opens : Prop}

theorem allowed_treeIntent : (app.treeIntent key).Allowed opens app.core := by
  rw [treeIntent]
  split
  case h_11 | h_12 | h_13 | h_14 =>
      rw [openIntent]
      split
      · exact trivial
      · split <;> exact trivial
  case h_15 | h_16 =>
      rw [collapseIntent]
      split
      · exact trivial
      · split <;> exact trivial
  all_goals exact trivial

theorem allowed_keysViewIntent : (app.keysViewIntent key).Allowed opens app.core := by
  rw [keysViewIntent]
  split
  case h_3 | h_5 | h_6 => split <;> exact trivial
  case h_8 =>
      rw [focusIntent]
      split
      · exact trivial
      · exact app.allowed_treeIntent key
  all_goals exact trivial

theorem allowed_moveIntent (delta : Int) : (app.moveIntent delta).Allowed opens app.core := by
  rw [moveIntent]
  split
  next level => exact level
  next level => exact level
  next => exact trivial

theorem allowed_cycleIntent (delta : Int) : (app.cycleIntent delta).Allowed opens app.core := by
  rw [cycleIntent]
  split
  · exact trivial
  next level => exact level

theorem allowed_enterIntent (isOpen : opens) : app.enterIntent.Allowed opens app.core := by
  rw [enterIntent]
  split
  next =>
      split
      next hasQueue => exact hasQueue
      next => exact trivial
  next level =>
      split
      next hasJob => exact ⟨isOpen, level, hasJob⟩
      next => exact trivial
  next => exact trivial

theorem allowed_leaveIntent : app.leaveIntent.Allowed opens app.core := by
  rw [leaveIntent]
  split
  next level => exact level
  next level => exact ⟨rfl, level⟩
  next => exact trivial

theorem allowed_queuesIntent (isOpen : key.code ∈ openKeys → opens) :
    (app.queuesIntent key).Allowed opens app.core := by
  rw [queuesIntent]
  split
  case h_11 | h_12 => exact app.allowed_cycleIntent _
  case h_13 code | h_14 code | h_15 code | h_16 code =>
      apply app.allowed_enterIntent
      apply isOpen
      rw [code]
      decide
  case h_17 | h_18 | h_19 => exact app.allowed_leaveIntent
  case h_20 => exact trivial
  all_goals exact app.allowed_moveIntent _

theorem allowed_viewIntent (isOpen : app.view = .queues → key.code ∈ openKeys → opens) :
    (app.viewIntent key).Allowed opens app.core := by
  rw [viewIntent]
  split
  next => exact app.allowed_keysViewIntent key
  next view => exact app.allowed_queuesIntent key (isOpen view)
  next => exact trivial

theorem allowed_loadIntent (force : Bool) : (app.loadIntent force).Allowed opens app.core := by
  rw [loadIntent]
  split
  case h_2 => exact trivial
  case h_7 =>
      split
      next level =>
          split
          next => exact level
          next => exact trivial
      next level => exact level
      next level => exact level
  all_goals split <;> exact trivial

theorem allowed_normalIntent (isOpen : app.view = .queues → key.code ∈ openKeys → opens) :
    (app.normalIntent key).Allowed opens app.core := by
  rw [normalIntent]
  split
  next => exact trivial
  next => exact trivial
  next => exact app.allowed_loadIntent true
  next =>
      rw [charIntent]
      split
      next =>
          split
          next view _ =>
              rw [gotoIntent]
              split
              next => exact trivial
              next => exact allowed_loadIntent { app with view } false
          next => exact trivial
      next => exact app.allowed_viewIntent key isOpen
  next => exact app.allowed_viewIntent key isOpen

theorem allowed_intent : (app.intent key).Allowed (app.opensLevel key) app.core := by
  rw [intent]
  split
  next => exact trivial
  next =>
      split
      next => exact trivial
      next =>
          rw [searchIntent]
          split <;> exact trivial
      next normal =>
          apply app.allowed_normalIntent
          intro view code
          simp only [opensLevel, normal, view, code, decide_true, Bool.and_self]

/-- What a key press can do. -/
theorem keyPress_handleKey : KeyPress (app.opensLevel key) app (app.handleKey key) :=
  Intent.keyPress (app.core_handleKey key) (app.allowed_intent key)

theorem queuePane_flushSelection : app.flushSelection.queuePane = app.queuePane := by
  have kept := app.core.queuePane_flush
  rw [← core_flushSelection] at kept
  exact kept

/-- What a key that goes one level deeper does. -/
theorem handleKey_of_opensLevel (isOpen : app.opensLevel key) :
    app.handleKey key = ({ app with splash := false } : App).enterLevel := by
  have opens : (app.mode = .normal ∧ app.view = .queues) ∧ key.code ∈ openKeys := by
    simpa [opensLevel] using isOpen
  rcases opens with ⟨⟨normal, view⟩, code⟩
  have inView : ∀ shown : App, shown.view = .queues →
      shown.handleNormalKey key = shown.enterLevel := by
    intro shown queues
    have viewKey : shown.handleViewKey key = shown.handleQueuesKey key := by
      rw [handleViewKey, queues]
    rcases key with ⟨keyCode, control⟩
    simp only [openKeys, List.mem_cons, List.not_mem_nil, or_false] at code
    rcases code with rfl | rfl | rfl | rfl <;> exact viewKey
  rw [handleKey, if_neg]
  · dsimp only
    split
    next help => cases normal.symm.trans help
    next search => cases normal.symm.trans search
    next => exact inView { app with splash := false } view
  · rintro ⟨_, quits⟩
    rw [quits] at code
    revert code
    decide

end App

end Keylens.Tui
