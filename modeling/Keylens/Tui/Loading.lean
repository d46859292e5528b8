import Keylens.Tui.Apply
import Keylens.Tui.Intent
import Keylens.Library.Runs

/-!
# Whether a pane that loads has something to wait for

The worker answers the requests one by one, in the order in which they were
accepted, and the answers arrive at any time between key presses.  A pane that
shows `loading` is attended when one of the requests that are still to be
answered will put something else in it.
-/

namespace Keylens.Tui

open Keylens.Library Keylens.Connection Keylens.BullMq Keylens.Ui Keylens.Backend

inductive Pane where
  | slowlog | clients | cluster | pubSub | queues | jobs | job
  deriving DecidableEq, Repr

/-- What the worker finds for a pane. -/
inductive Found (α : Type) where
  | ready (value : α)
  | unavailable (why : Str)
  | failed (why : Str)

def Found.pane {α : Type} : Found α → PaneState α
  | .ready value => .ready value
  | .unavailable why => .unavailable why
  | .failed why => .failed why

/-- What the worker finds when it handles a request. -/
structure Findings where
  slowlog : Found (List SlowEntry) := .ready []
  clients : Found (List ClientInfo) := .ready []
  cluster : Found ClusterTopology := .failed []
  pubSub : Found (List PubSubChannel) := .ready []
  queues : Found (List QueueSummary) := .ready []
  jobs : Found (List JobRef) := .ready []
  job : Found (Option JobDetail) := .ready none

/-- The update that answers a request of a pane. -/
def Findings.reply (findings : Findings) : Request → Option Update
  | .loadSlowlog => some (.slowlog findings.slowlog.pane)
  | .loadClients => some (.clients findings.clients.pane)
  | .loadCluster => some (.cluster findings.cluster.pane)
  | .loadPubSub => some (.pubSub findings.pubSub.pane)
  | .loadQueues => some (.queues findings.queues.pane)
  | .loadJobs _ state => some (.jobs state findings.jobs.pane)
  | .loadJob _ _ => some (.job findings.job.pane)
  | _ => none

/-- An update that answers a request of a pane. -/
def isPaneUpdate : Update → Bool
  | .slowlog _ | .clients _ | .cluster _ | .pubSub _ | .queues _ | .jobs _ _ | .job _ => true
  | _ => false

structure Loading where
  app : App
  /-- Accepted requests that are not yet answered, oldest first. -/
  requests : List Request := []

inductive LoadingInput where
  | key (event : KeyEvent) (channel : Channel)
  | flush (channel : Channel)
  /-- The answer to the oldest request arrives. -/
  | arrive (findings : Findings)
  /-- Any other update arrives. -/
  | other (update : Update)

namespace LoadingInput

/-- The user does nothing. -/
def isQuiet : LoadingInput → Bool
  | .key _ _ => false
  | .flush _ | .arrive _ | .other _ => true

def isArrival : LoadingInput → Bool
  | .arrive _ => true
  | _ => false

end LoadingInput

namespace Core

def isLoading (core : Core) : Pane → Bool
  | .slowlog => core.slowlog.isLoading
  | .clients => core.clients.isLoading
  | .cluster => core.cluster.isLoading
  | .pubSub => core.pubSub.isLoading
  | .queues => core.queues.isLoading
  | .jobs => core.jobs.isLoading
  | .job => core.job.isLoading

/-- A pane shows what the worker found for it. -/
def Shows (core : Core) (findings : Findings) : Pane → Prop
  | .slowlog => core.slowlog = findings.slowlog.pane
  | .clients => core.clients = findings.clients.pane
  | .cluster => core.cluster = findings.cluster.pane
  | .pubSub => core.pubSub = findings.pubSub.pane
  | .queues => core.queues = findings.queues.pane
  | .jobs => core.jobs = findings.jobs.pane
  | .job => core.job = findings.job.pane

end Core

namespace Loading

def act (state : Loading) (channel : Channel) (action : App → App) : Loading :=
  let (app, accepted) := state.app.act channel action
  { app, requests := state.requests ++ accepted }

def step (state : Loading) : LoadingInput → Loading
  | .key event channel => state.act channel fun app => app.handleKey event
  | .flush channel => state.act channel App.flushSelection
  | .arrive findings =>
      match state.requests with
      | [] => state
      | request :: requests =>
          match findings.reply request with
          | some update => { app := state.app.apply update, requests }
          | none => { state with requests }
  | .other update =>
      if isPaneUpdate update then state else { state with app := state.app.apply update }

/-- The answer to the request at a place in the queue replaces what a pane shows,
whatever arrives before it, if the user does nothing. -/
def Replaces (state : Loading) (pane : Pane) (place : Nat) : Prop :=
  place < state.requests.length ∧
    ∀ inputs : List LoadingInput, inputs.all LoadingInput.isQuiet →
      inputs.countP LoadingInput.isArrival = place → ∀ findings,
        ((run step state inputs).step (.arrive findings)).app.core.Shows findings pane

/-- Every pane that loads has something to wait for. -/
def Attended (state : Loading) : Prop :=
  ∀ pane, state.app.core.isLoading pane → ∃ place, state.Replaces pane place

/-- No key press cycles to another state of the jobs while no queue is selected and
the list of jobs still loads, unless the jobs of that state have been asked for. -/
def KeepsAttended (state : Loading) : LoadingInput → Prop
  | .key event _ => ∀ jobState, state.app.intent event = .cycle jobState →
      state.app.selectedQueue = none → state.app.jobs.isLoading →
        ∃ queue, .loadJobs queue jobState ∈ state.requests
  | _ => True

end Loading

/-! ## Which requests a pane waits for -/

/-- The answer to a request is for a pane, while the jobs of a state are listed. -/
def Answers (jobState : State) (pane : Pane) (request : Request) : Prop :=
  match pane with
  | .slowlog => request = .loadSlowlog
  | .clients => request = .loadClients
  | .cluster => request = .loadCluster
  | .pubSub => request = .loadPubSub
  | .queues => request = .loadQueues
  | .jobs => ∃ queue, request = .loadJobs queue jobState
  | .job => ∃ queue id, request = .loadJob queue id

/-- Only the list of jobs depends on the state. -/
theorem Answers.of_ne_jobs {before after : State} {pane : Pane} {request : Request}
    (other : pane ≠ .jobs) (answers : Answers before pane request) :
    Answers after pane request := by
  cases pane <;> first | contradiction | exact answers

theorem Found.isLoading_pane {α : Type} (found : Found α) : found.pane.isLoading = false := by
  cases found <;> rfl

/-- A pane that shows what the worker found does not load. -/
theorem Core.Shows.isLoading {core : Core} {findings : Findings} {pane : Pane}
    (shows : core.Shows findings pane) : core.isLoading pane = false := by
  cases pane <;>
    exact (congrArg PaneState.isLoading shows).trans (Found.isLoading_pane _)

namespace App

variable (app : App)

/-- Updates that are not for a pane leave all panes alone. -/
theorem isLoading_apply {update : Update} (other : isPaneUpdate update = false) (pane : Pane) :
    (app.apply update).core.isLoading pane = app.core.isLoading pane := by
  cases update with
  | batch keys reset complete scannedPages => cases reset <;> cases pane <;> rfl
  | detail keyMeta value stream =>
      rw [apply, applyDetail]
      split <;> cases pane <;> rfl
  | slowlog | clients | cluster | pubSub | queues | jobs | job => cases other
  | _ => cases pane <;> rfl

/-- The answer to a request for a pane replaces what the pane shows. -/
theorem shows_reply {pane : Pane} {request : Request} (findings : Findings)
    (answers : Answers app.jobState pane request) :
    ∃ update, findings.reply request = some update ∧
      (app.apply update).core.Shows findings pane := by
  cases pane with
  | jobs =>
      rcases answers with ⟨queue, rfl⟩
      refine ⟨_, rfl, ?_⟩
      rw [apply, applyJobs, if_pos rfl]
      rfl
  | job =>
      rcases answers with ⟨queue, id, rfl⟩
      exact ⟨_, rfl, rfl⟩
  | _ =>
      cases answers
      exact ⟨_, rfl, rfl⟩

/-- Other answers leave the pane alone. -/
theorem isLoading_reply {pane : Pane} {request : Request} {findings : Findings}
    {update : Update} (other : ¬Answers app.jobState pane request)
    (reply : findings.reply request = some update) :
    (app.apply update).core.isLoading pane = app.core.isLoading pane := by
  cases request <;> cases reply
  case loadJobs queue jobState =>
      rw [apply, applyJobs]
      split
      next current => cases pane <;> first | rfl | exact (other ⟨queue, by rw [current]⟩).elim
      next => rfl
  case loadJob queue id => cases pane <;> first | rfl | exact (other ⟨queue, id, rfl⟩).elim
  all_goals cases pane <;> first | rfl | exact (other rfl).elim

end App

namespace Loading

variable {state : Loading} {input : LoadingInput} {inputs : List LoadingInput} {pane : Pane}

/-! ## While the user does nothing -/

/-- An answer takes the oldest request, and the same jobs stay listed. -/
theorem step_arrive (findings : Findings) :
    (state.step (.arrive findings)).requests = state.requests.drop 1 ∧
      (state.step (.arrive findings)).app.jobState = state.app.jobState := by
  rw [step]
  cases queued : state.requests with
  | nil => exact ⟨queued, rfl⟩
  | cons request requests =>
      dsimp only
      split
      next update _ => exact ⟨rfl, (state.app.keepsChoices_apply update).jobState⟩
      next => exact ⟨rfl, rfl⟩

/-- Without the user requests are answered, at most the key under the cursor is asked for,
and the same jobs stay listed. -/
theorem step_of_isQuiet (quiet : input.isQuiet) :
    (∃ asked, (state.step input).requests =
        state.requests.drop (if input.isArrival then 1 else 0) ++ asked) ∧
      (state.step input).app.jobState = state.app.jobState := by
  cases input with
  | key => cases quiet
  | flush channel =>
      refine ⟨⟨_, rfl⟩, ?_⟩
      let before : App := { state.app with tx := { channel } }
      have flushed : before.flushSelection.core = before.core.flush := before.core_flushSelection
      rcases before.core.flush_eq with ⟨_, _, _, _, _, same, _⟩
      exact congrArg Core.jobState (flushed.trans same)
  | other update =>
      refine ⟨⟨[], ?_⟩, ?_⟩
      · rw [step, List.append_nil]
        split <;> rfl
      · rw [step]
        split
        · rfl
        · exact (state.app.keepsChoices_apply update).jobState
  | arrive findings =>
      rcases state.step_arrive findings with ⟨requests, jobState⟩
      exact ⟨⟨[], requests.trans (List.append_nil _).symm⟩, jobState⟩

theorem run_of_isQuiet (quiet : inputs.all LoadingInput.isQuiet)
    (inside : inputs.countP LoadingInput.isArrival ≤ state.requests.length) :
    (∃ asked, (run step state inputs).requests =
        state.requests.drop (inputs.countP LoadingInput.isArrival) ++ asked) ∧
      (run step state inputs).app.jobState = state.app.jobState := by
  induction inputs generalizing state with
  | nil => exact ⟨⟨[], (List.append_nil _).symm⟩, rfl⟩
  | cons input inputs ih =>
      rw [List.all_cons, Bool.and_eq_true] at quiet
      rw [List.countP_cons] at inside
      rcases step_of_isQuiet quiet.1 with ⟨⟨asked, requests⟩, jobState⟩
      have remain : inputs.countP LoadingInput.isArrival ≤
          (state.requests.drop (if input.isArrival then 1 else 0)).length := by
        rw [List.length_drop]
        omega
      have goesOn : inputs.countP LoadingInput.isArrival ≤ (state.step input).requests.length := by
        rw [requests, List.length_append]
        omega
      rcases ih quiet.2 goesOn with ⟨⟨later, answered⟩, sameState⟩
      rw [run_cons]
      refine ⟨⟨asked ++ later, ?_⟩, sameState.trans jobState⟩
      rw [answered, requests, List.drop_append_of_le_length remain, List.drop_drop,
        List.countP_cons, Nat.add_comm, List.append_assoc]

/-- The answer to a request replaces what its pane shows. -/
theorem replaces_of_answers {place : Nat} {request : Request}
    (queued : state.requests[place]? = some request)
    (answers : Answers state.app.jobState pane request) : state.Replaces pane place := by
  rcases List.getElem?_eq_some_iff.mp queued with ⟨inside, atPlace⟩
  refine ⟨inside, ?_⟩
  intro inputs quiet count findings
  rcases run_of_isQuiet quiet (count ▸ inside.le) with ⟨⟨asked, requests⟩, jobState⟩
  rw [count, List.drop_eq_getElem_cons inside, atPlace, List.cons_append] at requests
  rw [← jobState] at answers
  rcases App.shows_reply _ findings answers with ⟨update, reply, shows⟩
  rw [step, requests]
  simp only [reply]
  exact shows

/-- A pane that no request is for keeps loading while answers arrive. -/
theorem isLoading_arrivals (loading : state.app.core.isLoading pane)
    (unasked : ∀ request ∈ state.requests, ¬Answers state.app.jobState pane request)
    (count : Nat) :
    (run step state (List.replicate count (.arrive {}))).app.core.isLoading pane := by
  induction count generalizing state with
  | zero => exact loading
  | succ count ih =>
      rcases state.step_arrive {} with ⟨requests, jobState⟩
      rw [List.replicate_succ, run_cons]
      apply ih
      · rw [step]
        cases queued : state.requests with
        | nil => exact loading
        | cons request requests =>
            dsimp only
            split
            next update reply =>
                have other := unasked request (by simp [queued])
                exact (state.app.isLoading_reply other reply).trans loading
            next => exact loading
      · intro request member
        rw [jobState]
        rw [requests] at member
        exact unasked request (List.mem_of_mem_drop member)

theorem not_replaces (loading : state.app.core.isLoading pane)
    (unasked : ∀ request ∈ state.requests, ¬Answers state.app.jobState pane request)
    (place : Nat) : ¬state.Replaces pane place := by
  rintro ⟨inside, replaces⟩
  let arrivals : List LoadingInput := List.replicate place (.arrive {})
  have quiet : arrivals.all LoadingInput.isQuiet := by simp [arrivals, LoadingInput.isQuiet]
  have count : arrivals.countP LoadingInput.isArrival = place := by
    simp [arrivals, List.countP_replicate, LoadingInput.isArrival]
  have shown := replaces arrivals quiet count {}
  have still := isLoading_arrivals loading unasked (place + 1)
  rw [List.replicate_succ', run_append, run_cons, run_nil, shown.isLoading] at still
  cases still

end Loading

/-- For every pane that loads there is a request. -/
def Core.Waits (requests : List Request) (core : Core) : Prop :=
  ∀ pane, core.isLoading pane → ∃ request ∈ requests, Answers core.jobState pane request

theorem Loading.attended_iff {state : Loading} :
    state.Attended ↔ state.app.core.Waits state.requests := by
  constructor
  · intro attended pane loading
    by_contra unasked
    rcases attended pane loading with ⟨place, replaces⟩
    exact not_replaces loading (fun request member answers => unasked ⟨request, member, answers⟩)
      place replaces
  · intro waits pane loading
    rcases waits pane loading with ⟨request, member, answers⟩
    rcases List.getElem?_of_mem member with ⟨place, queued⟩
    exact ⟨place, replaces_of_answers queued answers⟩

/-! ## Key presses -/

namespace Core

variable {core after : Core} {requests later : List Request}

theorem isLoading_awaited {α : Type} (loading : (core.awaited : PaneState α).isLoading) :
    core.tx.channel = .room := by
  rw [awaited] at loading
  split at loading
  · assumption
  · cases loading

/-- What the panes show. -/
def shown (core : Core) :=
  (core.slowlog, core.clients, core.cluster, core.pubSub, core.queues, core.jobs, core.job,
    core.jobState)

theorem isLoading_of_shown (same : after.shown = core.shown) {pane : Pane} :
    after.isLoading pane = core.isLoading pane := by
  simp only [shown, Prod.mk.injEq] at same
  cases pane <;> simp only [isLoading, same]

theorem jobState_of_shown (same : after.shown = core.shown) : after.jobState = core.jobState := by
  simp only [shown, Prod.mk.injEq] at same
  exact same.2.2.2.2.2.2.2

theorem Waits.of_shown (waits : core.Waits requests) (same : after.shown = core.shown)
    (more : requests ⊆ later) : after.Waits later := by
  intro pane loading
  rw [isLoading_of_shown same] at loading
  rcases waits pane loading with ⟨request, member, answers⟩
  rw [jobState_of_shown same]
  exact ⟨request, more member, answers⟩

theorem shown_send (core : Core) (request : Request) : (core.send request).shown = core.shown := by
  rcases core.send_eq request with ⟨error, tx, sent, _⟩
  rw [sent]
  rfl

theorem shown_flush (core : Core) : core.flush.shown = core.shown := by
  rcases core.flush_eq with ⟨detail, pendingKey, selectionDirty, error, tx, flushed, _⟩
  rw [flushed]
  rfl

theorem shown_walk (core : Core) (delta : Int) : (core.walk delta).shown = core.shown := by
  rcases core.walk_eq delta with ⟨selected, selectionDirty, error, walked⟩
  rw [walked]
  rfl

theorem shown_moveQueue (core : Core) (delta : Int) :
    (core.moveQueue delta).shown = core.shown := by
  rcases core.moveQueue_eq delta with ⟨queueSelected, moved⟩
  rw [moved]
  rfl

theorem shown_moveJob (core : Core) (delta : Int) : (core.moveJob delta).shown = core.shown := by
  rcases core.moveJob_eq delta with ⟨jobSelected, moved⟩
  rw [moved]
  rfl

/-- One pane starts to load what is asked for. -/
theorem Waits.load (waits : core.Waits requests) {listed : Core} (pane : Pane)
    (request : Request) (empty : listed.tx.accepted = [])
    (before : ∀ other, other ≠ pane → listed.isLoading other → core.isLoading other)
    (others : ∀ other, other ≠ pane → after.isLoading other →
      (listed.send request).isLoading other)
    (awaited : after.isLoading pane → listed.tx.channel = .room)
    (tx : after.tx = (listed.send request).tx) (answers : Answers after.jobState pane request)
    (jobState : after.jobState = core.jobState ∨ pane = .jobs) :
    after.Waits (requests ++ after.tx.accepted) := by
  intro loaded isLoading
  by_cases same : loaded = pane
  · subst same
    exact ⟨request, by simp [tx, accepted_send, empty, awaited isLoading], answers⟩
  · have earlier : listed.isLoading loaded := by
      rw [← isLoading_of_shown (listed.shown_send request)]
      exact others loaded same isLoading
    rcases waits loaded (before loaded same earlier) with ⟨asked, member, answered⟩
    refine ⟨asked, List.mem_append_left _ member, ?_⟩
    rcases jobState with kept | rfl
    · rwa [kept]
    · exact answered.of_ne_jobs same

theorem Waits.loadJobs (waits : core.Waits requests) {queue : QueueSummary} {listed : Core}
    (selected : listed.selectedQueue = some queue) (empty : listed.tx.accepted = [])
    (before : ∀ other, other ≠ .jobs → listed.isLoading other → core.isLoading other) :
    listed.loadJobs.Waits (requests ++ listed.loadJobs.tx.accepted) := by
  rw [Core.loadJobs, selected]
  dsimp only
  rcases listed.send_eq (.loadJobs queue.name listed.jobState) with ⟨error, tx, sent, _⟩
  apply waits.load .jobs (.loadJobs queue.name listed.jobState) empty before
  case others => exact fun other _ => by cases other <;> first | contradiction | exact id
  case awaited => exact isLoading_awaited
  case tx => rfl
  case answers => exact ⟨queue.name, by rw [sent]⟩
  case jobState => exact .inr rfl

/-- Asking again for the jobs of the same state, if a queue is selected. -/
theorem Waits.listJobs (waits : core.Waits requests) {listed : Core}
    (empty : listed.tx.accepted = []) (same : listed.shown = core.shown) :
    listed.loadJobs.Waits (requests ++ listed.loadJobs.tx.accepted) := by
  cases selected : listed.selectedQueue with
  | some queue =>
      apply waits.loadJobs selected empty
      intro other _ loading
      rwa [isLoading_of_shown same] at loading
  | none =>
      rw [Core.loadJobs, selected]
      exact waits.of_shown same (List.subset_append_left ..)

theorem Waits.showJob (waits : core.Waits requests) {listed : Core}
    (empty : listed.tx.accepted = []) (same : listed.shown = core.shown) :
    listed.loadJob.Waits (requests ++ listed.loadJob.tx.accepted) := by
  rw [Core.loadJob]
  split
  next queue job _ _ =>
      rcases listed.send_eq (.loadJob queue.name job.id) with ⟨error, tx, sent, _⟩
      apply waits.load .job (.loadJob queue.name job.id) empty
      case before =>
          intro other _ loading
          rwa [isLoading_of_shown same] at loading
      case others => exact fun other _ => by cases other <;> first | contradiction | exact id
      case awaited => exact isLoading_awaited
      case tx => rfl
      case answers => exact ⟨queue.name, job.id, rfl⟩
      case jobState =>
          left
          rw [sent, ← jobState_of_shown same]
  next => exact waits.of_shown same (List.subset_append_left ..)

end Core

/-- Acting on an intent leaves no pane loading for nothing, unless it lists the
jobs of another state without asking for them. -/
theorem Intent.waits_run {core : Core} {requests : List Request} (waits : core.Waits requests)
    (empty : core.tx.accepted = []) (intent : Intent)
    (listed : ∀ jobState, intent = .cycle jobState → core.selectedQueue = none →
      core.jobs.isLoading → ∃ queue, .loadJobs queue jobState ∈ requests) :
    (intent.run core).Waits (requests ++ (intent.run core).tx.accepted) := by
  have more (after : Core) : requests ⊆ requests ++ after.tx.accepted :=
    List.subset_append_left ..
  have jobState (request : Request) : (core.send request).jobState = core.jobState :=
    Core.jobState_of_shown (core.shown_send request)
  cases intent with
  | stay | leave | retree => exact waits.of_shown rfl (more _)
  | rescan | more | refreshInfo => exact waits.of_shown (core.shown_send _) (more _)
  | moveQueue delta => exact waits.of_shown (core.shown_moveQueue delta) (more _)
  | moveJob delta => exact waits.of_shown (core.shown_moveJob delta) (more _)
  | walk delta => exact waits.of_shown (core.shown_walk delta) (more _)
  | jumpToParent =>
      apply waits.of_shown _ (more _)
      rw [run]
      split <;> rfl
  | fetchFirst | fetchLast | fetchHere =>
      exact waits.of_shown (Core.shown_flush _) (more _)
  | loadSlowlog =>
      refine waits.load .slowlog .loadSlowlog empty (fun _ _ => id) ?_ Core.isLoading_awaited rfl
        rfl (.inl (jobState _))
      exact fun other _ => by cases other <;> first | contradiction | exact id
  | loadClients =>
      refine waits.load .clients .loadClients empty (fun _ _ => id) ?_ Core.isLoading_awaited rfl
        rfl (.inl (jobState _))
      exact fun other _ => by cases other <;> first | contradiction | exact id
  | loadCluster =>
      refine waits.load .cluster .loadCluster empty (fun _ _ => id) ?_ Core.isLoading_awaited rfl
        rfl (.inl (jobState _))
      exact fun other _ => by cases other <;> first | contradiction | exact id
  | loadPubSub =>
      refine waits.load .pubSub .loadPubSub empty (fun _ _ => id) ?_ Core.isLoading_awaited rfl rfl
        (.inl (jobState _))
      exact fun other _ => by cases other <;> first | contradiction | exact id
  | loadQueues =>
      refine waits.load .queues .loadQueues empty (fun _ _ => id) ?_ Core.isLoading_awaited rfl rfl
        (.inl (jobState _))
      exact fun other _ => by cases other <;> first | contradiction | exact id
  | listJobs => exact waits.listJobs empty rfl
  | openQueue => exact waits.listJobs empty rfl
  | showJob => exact waits.showJob empty rfl
  | openJob => exact waits.showJob empty rfl
  | cycle jobState =>
      -- Whatever the jobs pane did, it is asked for anew if a queue is selected.
      let cycled : Core := { core with jobState, jobSelected := 0, level := .jobs }
      have others : ∀ pane, pane ≠ .jobs → cycled.isLoading pane → core.isLoading pane :=
        fun pane _ => by cases pane <;> exact id
      cases selected : cycled.selectedQueue with
      | some queue => exact waits.loadJobs selected empty others
      | none =>
          have same : cycled.loadJobs = cycled := by rw [Core.loadJobs, selected]
          rw [run, same]
          intro pane loading
          by_cases jobs : pane = .jobs
          · subst jobs
            rcases listed jobState rfl selected loading with ⟨queue, asked⟩
            exact ⟨_, more _ asked, queue, rfl⟩
          · rcases waits pane (others pane jobs loading) with ⟨request, member, answers⟩
            exact ⟨request, more _ member, answers.of_ne_jobs jobs⟩

/-- Conversely, listing the jobs of another state without asking for them is
only harmless when they have been asked for before. -/
theorem Intent.asked_of_waits_cycle {core : Core} {requests : List Request} {jobState : State}
    (empty : core.tx.accepted = [])
    (waits : ((Intent.cycle jobState).run core).Waits
      (requests ++ ((Intent.cycle jobState).run core).tx.accepted))
    (noQueue : core.selectedQueue = none) (loading : core.jobs.isLoading) :
    ∃ queue, .loadJobs queue jobState ∈ requests := by
  let cycled : Core := { core with jobState, jobSelected := 0, level := .jobs }
  have selected : cycled.selectedQueue = none := noQueue
  have same : (Intent.cycle jobState).run core = cycled := by
    rw [run, Core.loadJobs, selected]
  rw [same] at waits
  rcases waits .jobs loading with ⟨request, member, queue, rfl⟩
  refine ⟨queue, ?_⟩
  rwa [show cycled.tx.accepted = [] from empty, List.append_nil] at member

/-! ## Every run -/

namespace Loading

variable {state : Loading}

theorem attended_key (attended : state.Attended) (event : KeyEvent) (channel : Channel) :
    (state.step (.key event channel)).Attended ↔ state.KeepsAttended (.key event channel) := by
  let before : App := { state.app with tx := { channel } }
  have waits : before.core.Waits state.requests := attended_iff.mp attended
  have pressed : (before.handleKey event).core = (state.app.intent event).run before.core :=
    before.core_handleKey event
  rw [attended_iff]
  change (before.handleKey event).core.Waits
    (state.requests ++ (before.handleKey event).core.tx.accepted) ↔ _
  rw [pressed]
  constructor
  · intro after jobState cycles
    rw [cycles] at after
    exact Intent.asked_of_waits_cycle rfl after
  · exact Intent.waits_run waits rfl (state.app.intent event)

theorem attended_flush (attended : state.Attended) (channel : Channel) :
    (state.step (.flush channel)).Attended := by
  let before : App := { state.app with tx := { channel } }
  have waits : before.core.Waits state.requests := attended_iff.mp attended
  rw [attended_iff]
  change before.flushSelection.core.Waits
    (state.requests ++ before.flushSelection.core.tx.accepted)
  rw [App.core_flushSelection]
  exact waits.of_shown (Core.shown_flush _) (List.subset_append_left ..)

/-- A request that is for no pane that loads is not missed. -/
theorem waits_tail {core : Core} {request : Request} {requests : List Request} {pane : Pane}
    (waits : core.Waits (request :: requests)) (loading : core.isLoading pane)
    (other : ¬Answers core.jobState pane request) :
    ∃ asked ∈ requests, Answers core.jobState pane asked := by
  rcases waits pane loading with ⟨asked, member, answers⟩
  rcases List.mem_cons.mp member with rfl | later
  · exact absurd answers other
  · exact ⟨asked, later, answers⟩

theorem attended_arrive (attended : state.Attended) (findings : Findings) :
    (state.step (.arrive findings)).Attended := by
  have waits := attended_iff.mp attended
  rw [attended_iff, step]
  cases queued : state.requests with
  | nil => simpa [queued] using waits
  | cons request requests =>
      rw [queued] at waits
      dsimp only
      split
      next update reply =>
          intro pane loading
          rw [show (state.app.apply update).core.jobState = state.app.core.jobState from
            (state.app.keepsChoices_apply update).jobState]
          by_cases answers : Answers state.app.jobState pane request
          · rcases state.app.shows_reply findings answers with ⟨other, replied, shows⟩
            cases reply.symm.trans replied
            exact absurd loading (by simp [shows.isLoading])
          · apply waits_tail waits _ answers
            rwa [state.app.isLoading_reply answers reply] at loading
      next noReply =>
          intro pane loading
          apply waits_tail waits loading
          intro answers
          rcases state.app.shows_reply findings answers with ⟨update, replied, _⟩
          cases noReply.symm.trans replied

theorem attended_other (attended : state.Attended) (update : Update) :
    (state.step (.other update)).Attended := by
  rw [step]
  split
  · exact attended
  next other =>
      have waits := attended_iff.mp attended
      rw [attended_iff]
      intro pane loading
      rw [show (state.app.apply update).core.jobState = state.app.core.jobState from
        (state.app.keepsChoices_apply update).jobState]
      apply waits pane
      rwa [state.app.isLoading_apply (by simpa using other)] at loading

theorem attended_step (attended : state.Attended) (input : LoadingInput) :
    (state.step input).Attended ↔ state.KeepsAttended input := by
  cases input with
  | key event channel => exact attended_key attended event channel
  | flush channel => exact iff_of_true (attended_flush attended channel) trivial
  | arrive findings => exact iff_of_true (attended_arrive attended findings) trivial
  | other update => exact iff_of_true (attended_other attended update) trivial

/-- Throughout a run every pane that loads has something to wait for, exactly when
every step of the run meets the condition. -/
theorem attended_iff_keepsAttended (server : ServerInfo) (url : Str) (tx : Sender)
    (inputs : List LoadingInput) :
    (∀ front, front <+: inputs → (run step { app := App.new server url tx } front).Attended) ↔
      Along step KeepsAttended { app := App.new server url tx } inputs := by
  have exactly (state : Loading) (input : LoadingInput) (attended : state.Attended) :
      (step state input).Attended ↔ state.KeepsAttended input := attended_step attended input
  apply forall_prefix_iff_along_of_step_iff exactly
  intro pane loading
  cases pane <;> cases loading

/-- An app that has just been started. -/
def startedLoading : Loading :=
  { app := App.new { vendor := .redis, version := [], mode := [], fields := [] }
      "redis://localhost".toList { channel := .room } }

/-- The table of queues is asked for twice.  The first answer has a queue, which
is opened; the second answer has none, and then the user cycles to another
state. -/
def cycleWithoutQueue : List LoadingInput :=
  [.other (.detected [{ lensId := "bullmq".toList, confidence := .certain, version := none
                        prefix' := "bull".toList, summary := [], targets := [] }]),
    .key { code := .char '2' } .room, .key { code := .char 'r' } .room,
    .arrive { queues := .ready [{ name := "a".toList, paused := false, counts := [] }] },
    .key { code := .enter } .room, .arrive {}, .key { code := .char ']' } .room]

/-- The list of jobs loads, and the only answer on its way is for the jobs of the
state before. -/
theorem not_attended_after_cycling :
    let state := run step startedLoading cycleWithoutQueue
    state.app.jobs.isLoading = true ∧ state.app.jobState ≠ .failed ∧
      state.requests = [.loadJobs "a".toList .failed] ∧ ¬state.Attended := by
  intro state
  have loading : state.app.jobs.isLoading = true := by decide
  have cycled : state.app.jobState ≠ .failed := by decide
  have requests : state.requests = [.loadJobs "a".toList .failed] := by decide
  refine ⟨loading, cycled, requests, fun attended => ?_⟩
  rcases attended_iff.mp attended .jobs loading with ⟨request, member, queue, rfl⟩
  rw [requests, List.mem_singleton] at member
  injection member with _ sameState
  exact cycled sameState

end Loading

end Keylens.Tui
