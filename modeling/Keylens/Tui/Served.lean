import Keylens.Tui.OneRequest
import Keylens.Tui.Starting
import Keylens.Backend.Queue

/-!
# The UI and a worker that answers in order

Seen from the app, the worker with all its tasks is a queue: each request that the main
loop answers gets one update that fits it, in the order of the requests, and other updates
come at any time.  Everything that the browser does is done by an app with such a worker.
-/

namespace Keylens.Tui

open Keylens.Library Keylens.Connection Keylens.BullMq Keylens.Ui Keylens.Backend

/-- An app with the requests that are still to be answered, oldest first. -/
structure Served where
  app : App
  requests : List Request

/-- The updates that answer no request of the main loop: those of the reader of the
events, and of the tasks for keys and stats. -/
def isAside : Update → Bool
  | .detail _ _ _ | .info _ | .error _ | .eventsStatus _ | .events _ => true
  | _ => false

namespace Served

def act (state : Served) (channel : Channel) (action : App → App) : Served :=
  let (app, accepted) := state.app.act channel action
  { app, requests := state.requests ++ accepted.filter Request.inLoop }

/-- What can happen. -/
inductive Step : Served → BrowseEvent → Served → Prop where
  | key {state : Served} (event : KeyEvent) (channel : Channel) :
      Step state (.key event) (state.act channel fun app => app.handleKey event)
  | fetch {state : Served} (channel : Channel) :
      Step state .fetch (state.act channel App.flushSelection)
  | answer {state : Served} {request : Request} {requests : List Request} {update : Update}
      (oldest : state.requests = request :: requests) (fits : request.Expects update) :
      Step state .receive { app := state.app.apply update, requests }
  | aside {state : Served} {update : Update} (other : isAside update) :
      Step state .receive { state with app := state.app.apply update }
  | tick {state : Served} : Step state .tick state
  | wait {state : Served} : Step state .wait state
  | work {state : Served} : Step state .work state
  | read {state : Served} : Step state .read state

end Served

namespace Browse

/-- The app and what it still waits for. -/
def served (state : Browse) : Served where
  app := state.app
  requests := state.tasks.outstandingRequests

/-- What is known of the tasks at any time, and that only the reader of the events sends
what answers nothing. -/
structure Known (setting : Setting) (state : Browse) : Prop where
  serves : state.tasks.Serves calls.anything (Call.ReadsOnly setting.conn.client.api)
    Request.Expects
  delivers : state.tasks.Delivers
  inside : state.tasks.received ≤ state.tasks.sent.length
  events : ∀ update, (none, update) ∈ state.tasks.sent → isEventsUpdate update

variable {setting : Setting} {rtt : Nat} {state next : Browse} {event : BrowseEvent}

/-! ## What only the reader sends -/

/-- The updates that answer no request stay those of the reader. -/
theorem events_of_step (step : Step setting calls.anything rtt state event next)
    (events : ∀ update, (none, update) ∈ state.tasks.sent → isEventsUpdate update) :
    ∀ update, (none, update) ∈ next.tasks.sent → isEventsUpdate update := by
  cases step with
  | key runs event =>
      rw [tasks_press]
      exact events
  | fetch runs armed due =>
      rw [tasks_fetch]
      exact events
  | receive runs waiting =>
      rw [tasks_receive]
      exact events
  | tick runs due => exact events
  | wait time => exact events
  | read attached room isEvents =>
      intro update member
      rcases List.mem_append.mp member with before | new
      · exact events update before
      · cases List.mem_singleton.mp new
        exact isEvents
  | work move =>
      cases move with
      | take idle accepted =>
          dsimp only
          rw [Tasks.sent_take]
          exact events
      | mainSends main room =>
          intro update member
          exact events update ((List.mem_append.mp member).resolve_right (by simp))
      | taskSends spawned room =>
          intro update member
          exact events update ((List.mem_append.mp member).resolve_right (by simp))
      | mainAsks | taskAsks | taskVanishes => exact events

section Reachable

variable {may more : calls.Answers} {heeds : Browse → BrowseEvent → Prop} {lens : BullMqLens}
variable {server : ServerInfo} {url : Str}

theorem Step.mono (le : ∀ call answer, may call answer → more call answer)
    (step : Step setting may rtt state event next) : Step setting more rtt state event next := by
  cases step with
  | key runs event => exact .key runs event
  | fetch runs armed due => exact .fetch runs armed due
  | receive runs waiting => exact .receive runs waiting
  | tick runs due => exact .tick runs due
  | wait time => exact .wait time
  | work move => exact .work (move.mono le)
  | read attached room events => exact .read attached room events

theorem Reachable.mono (le : ∀ call answer, may call answer → more call answer)
    (reachable : Reachable setting may rtt heeds lens server url state) :
    Reachable setting more rtt heeds lens server url state := by
  induction reachable with
  | start => exact .start
  | next _ heeded step ih => exact ih.next heeded (step.mono le)

theorem Reachable.known (reachable : Reachable setting may rtt heeds lens server url state) :
    state.Known setting := by
  have reachable := Reachable.mono (fun _ _ _ => trivial : ∀ call answer, _ →
    calls.anything call answer) reachable
  constructor
  · exact Tasks.serves_of_reachable (guarantees_reads setting) reachable.tasks
  · exact Tasks.delivers_of_reachable (guarantees_reads setting) reachable.tasks
  · exact Tasks.received_le_of_reachable reachable.tasks
  · apply Reaches.invariant reachable
    · intro update member
      cases member
    · exact fun before event after events _ step => events_of_step step events

end Reachable

/-! ## One step -/

theorem served_act (known : state.Known setting) {action : App → App}
    (once : ∀ app : App, app.core.AsksOnce (action app).core) :
    (state.act action).served = state.served.act state.channel action := by
  let before : App := { state.app with tx := { channel := state.channel } }
  have requests : (state.act action).tasks.outstandingRequests =
      state.tasks.outstandingRequests ++
        (action before).core.tx.accepted.filter Request.inLoop := by
    change Tasks.outstandingRequests { state.tasks with
      accepted := state.tasks.accepted ++ (action before).core.tx.accepted } = _
    rcases once before with nothing | ⟨_, request, one⟩
    · rw [show (action before).core.tx.accepted = [] from nothing, List.append_nil]
      exact (List.append_nil _).symm
    · rw [show (action before).core.tx.accepted = [request] from one,
        Tasks.outstandingRequests_accept known.delivers known.serves, List.filter_singleton]
      cases request.inLoop <;> rfl
  rw [served, requests]
  rfl

/-- An update that fits a request of a task answers none of the main loop's. -/
theorem isAside_of_expects {request : Request} {update : Update} (apart : request.inLoop = false)
    (fits : request.Expects update) : isAside update := by
  cases request with
  | select key => cases update <;> first | rfl | cases fits
  | refreshInfo => cases update <;> first | rfl | cases fits
  | _ => cases apart

theorem isAside_of_events {update : Update} (events : isEventsUpdate update) : isAside update := by
  cases update <;> first | rfl | cases events

/-- Each step of the browser is one of an app with a worker that answers in order. -/
theorem served_step (known : state.Known setting)
    (step : Step setting calls.anything rtt state event next) :
    Served.Step state.served event next.served := by
  cases step with
  | key runs event =>
      have pressed : (state.press rtt event).served =
          (state.act fun app => app.handleKey event).served := by
        rw [served, tasks_press, press, app_rearm]
        rfl
      rw [pressed, served_act known fun app => app.asksOnce_handleKey event]
      exact .key event _
  | fetch runs armed due =>
      have disarmed : Known setting { state with fetchAt := none } :=
        ⟨known.serves, known.delivers, known.inside, known.events⟩
      have fetched : (state.fetch rtt).served =
          ({ state with fetchAt := none }.act App.flushSelection).served := by
        rw [served, tasks_fetch, Browse.fetch, app_rearm]
        rfl
      rw [fetched, served_act disarmed App.asksOnce_flushSelection]
      exact .fetch _
  | @receive runs source update rest waiting =>
      have received : (state.receive update).served =
          { app := state.app.apply update
            requests := Tasks.outstandingRequests
              { state.tasks with received := state.tasks.received + 1 } } := by
        rw [served, tasks_receive, app_receive]
      rw [received]
      rcases Tasks.outstandingRequests_receive known.delivers known.serves waiting with
        ⟨request, oldest, fits⟩ | ⟨same, apart⟩
      · exact .answer oldest fits
      · rw [same]
        refine @Served.Step.aside state.served update ?_
        cases source with
        | none =>
            apply isAside_of_events
            exact known.events update (Tasks.mem_sent_of_waiting waiting)
        | some number =>
            rcases apart number rfl with ⟨request, _, notLoop, fits⟩
            exact isAside_of_expects notLoop fits
  | tick runs due =>
      have same : Tasks.outstandingRequests { state.tasks with
          accepted := state.tasks.accepted ++
            if state.channel = .room then [.refreshInfo] else [] } =
          state.tasks.outstandingRequests := by
        split
        next =>
            rw [Tasks.outstandingRequests_accept known.delivers known.serves]
            exact List.append_nil _
        next => rw [List.append_nil]
      have served : (state.tick rtt).served = state.served :=
        congrArg (Served.mk state.app) same
      rw [served]
      exact .tick
  | wait time => exact .wait
  | work move =>
      have same := Tasks.outstandingRequests_move known.inside move
      rw [served, served]
      dsimp only
      rw [same]
      exact .work
  | read attached room events =>
      have same := Tasks.outstandingRequests_put known.inside none
      rw [served, served]
      dsimp only
      rw [same]
      exact .read

/-! ## Every run -/

theorem served_start (lens : BullMqLens) (server : ServerInfo) (url : Str) :
    (start lens server url).served =
      { app := App.new server url { channel := .room }
        requests := [.detect, .rescan none none] } :=
  rfl

/-- Everything that the browser does, whatever the server answers and however the tasks
interleave, an app does whose requests are answered one by one and in order, each with an
update that fits it. -/
theorem served_of_reachable {obeys : Served → BrowseEvent → Prop} {lens : BullMqLens}
    {server : ServerInfo} {url : Str}
    (reachable : Reachable setting calls.anything rtt (fun state => obeys state.served) lens
      server url state) :
    Reaches Served.Step obeys
      { app := App.new server url { channel := .room }, requests := [.detect, .rescan none none] }
      state.served := by
  have seen := Reaches.seen reachable served (fun _ before => Reachable.known before)
    (fun _ _ _ known step => served_step known step) (fun _ _ _ heeded => heeded)
  exact seen

/-- Two requests have been answered, and the next two wait: the keys are to be listed again
and the slow log is to be loaded. -/
theorem served_of_reachable_pressed :
    ∃ state : Browse, state.tasks.answers = [0, 1] ∧
      state.served.requests = [.rescan none none, .loadSlowlog] ∧
      Reaches Served.Step (fun _ _ => True)
        { app := App.new plainServer "redis://localhost".toList { channel := .room }
          requests := [.detect, .rescan none none] }
        state.served := by
  rcases exists_listed with ⟨⟨app, tasks, now, fetchAt, tickAt, attached⟩, reachable, listed, loop,
    asked, answered⟩
  cases listed
  cases answered
  have pressed := reachable.next trivial (.key rfl { code := .char 'r' })
  have loading := pressed.next trivial (.key rfl { code := .char '3' })
  exact ⟨_, rfl, rfl, @served_of_reachable plainSetting 0 _ (fun _ _ => True) _ _ _ loading⟩

end Browse

end Keylens.Tui
