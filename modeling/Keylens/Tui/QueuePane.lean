import Keylens.Tui.Input

/-!
# The queue view

`QueuePane` is the part of the state that the queue view shows.
`QueuePane.Step` lists everything that a key press can do to it.
-/

namespace Keylens.Tui

open Keylens.Library Keylens.Connection Keylens.BullMq Keylens.Ui Keylens.Backend

/-- What the queue view shows. -/
structure QueuePane where
  level : QueueLevel
  queues : PaneState (List QueueSummary)
  queueSelected : Nat
  jobState : State
  jobs : PaneState (List JobRef)
  jobSelected : Nat
  job : PaneState (Option JobDetail)

namespace App

def queuePane (app : App) : QueuePane where
  level := app.level
  queues := app.queues
  queueSelected := app.queueSelected
  jobState := app.jobState
  jobs := app.jobs
  jobSelected := app.jobSelected
  job := app.job

end App

namespace QueuePane

def selectedQueue (pane : QueuePane) : Option QueueSummary :=
  pane.queues.ready?.bind fun queues => queues[pane.queueSelected]?

def selectedJob (pane : QueuePane) : Option JobRef :=
  pane.jobs.ready?.bind fun jobs => jobs[pane.jobSelected]?

/-- What a key press can do to the queue view; `opens` says that the key goes one
level deeper.  What has just been asked for is not ready. -/
inductive Step (opens : Prop) (pane : QueuePane) : QueuePane → Prop where
  | keep : Step opens pane pane
  | moveQueue (cursor : Nat) (level : pane.level = .queues) :
      Step opens pane { pane with queueSelected := cursor }
  | moveJob (cursor : Nat) (level : pane.level = .jobs) :
      Step opens pane { pane with jobSelected := cursor }
  | listJobs (jobState : State) (jobs : PaneState (List JobRef)) (jobSelected : Nat)
      (asked : jobs.ready? = none) :
      Step opens pane { pane with level := .jobs, jobState, jobs, jobSelected }
  /-- Cycling through the states while no queue is selected asks for nothing. -/
  | cycleBlindly (jobState : State) (level : pane.level ≠ .queues)
      (noQueue : pane.selectedQueue = none) :
      Step opens pane { pane with level := .jobs, jobState, jobSelected := 0 }
  | showJob (job : PaneState (Option JobDetail)) (level : pane.level ≠ .queues)
      (asked : job.ready? = none) :
      Step opens pane { pane with level := .job, job }
  /-- Opening a job while no queue is selected asks for nothing. -/
  | openBlindly (isOpen : opens) (level : pane.level = .jobs) (hasJob : pane.selectedJob.isSome)
      (noQueue : pane.selectedQueue = none) : Step opens pane { pane with level := .job }
  | leaveJob (level : pane.level = .job) : Step opens pane { pane with level := .jobs }
  | leaveJobs (level : pane.level = .jobs) : Step opens pane { pane with level := .queues }
  | listQueues (queues : PaneState (List QueueSummary)) (level : pane.level = .queues) :
      Step opens pane { pane with queues }

end QueuePane

end Keylens.Tui
