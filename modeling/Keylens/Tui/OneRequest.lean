import Keylens.Tui.Browse

/-!
# One request at a time

Whatever the app does at once, it asks for at most one thing, and for nothing when the
channel has no room.  So it makes no difference that the channel is looked at only once.
-/

namespace Keylens.Tui

open Keylens.Library Keylens.Connection Keylens.BullMq Keylens.Ui Keylens.Backend

/-- At most one more request is accepted, and only if there is room. -/
def Core.AsksOnce (before after : Core) : Prop :=
  after.tx.accepted = before.tx.accepted ∨
    before.tx.channel = .room ∧ ∃ request, after.tx.accepted = before.tx.accepted ++ [request]

namespace Core

theorem asksOnce_send (core : Core) (request : Request) : core.AsksOnce (core.send request) := by
  have accepted := core.accepted_send request
  by_cases room : core.tx.channel = .room
  · rw [if_pos room] at accepted
    exact .inr ⟨room, request, accepted⟩
  · rw [if_neg room, List.append_nil] at accepted
    exact .inl accepted

theorem asksOnce_flush (core : Core) : core.AsksOnce core.flush := by
  cases wanted : core.wanted with
  | none => rcases core.flush_of_unwanted wanted with kept | cleared <;> exact .inl (by simp [*])
  | some path =>
      have once := core.asksOnce_send (.select path)
      rw [core.flush_of_wanted wanted]
      split
      next => exact once
      next => exact once

theorem asksOnce_loadJobs (core : Core) : core.AsksOnce core.loadJobs := by
  rw [loadJobs]
  split
  next => exact .inl rfl
  next => exact core.asksOnce_send _

theorem asksOnce_loadJob (core : Core) : core.AsksOnce core.loadJob := by
  rw [loadJob]
  split
  next => exact core.asksOnce_send _
  next => exact .inl rfl

end Core

theorem Intent.asksOnce_run (intent : Intent) (core : Core) : core.AsksOnce (intent.run core) := by
  cases intent with
  | stay | leave | retree => exact .inl rfl
  | rescan | more | refreshInfo => exact core.asksOnce_send _
  | loadSlowlog | loadClients | loadCluster | loadPubSub | loadQueues =>
      exact core.asksOnce_send _
  | listJobs => exact core.asksOnce_loadJobs
  | showJob => exact core.asksOnce_loadJob
  | openQueue => exact Core.asksOnce_loadJobs { core with level := .jobs, jobSelected := 0 }
  | openJob => exact Core.asksOnce_loadJob { core with level := .job }
  | cycle jobState =>
      exact Core.asksOnce_loadJobs { core with jobState, jobSelected := 0, level := .jobs }
  | moveQueue delta =>
      rcases core.moveQueue_eq delta with ⟨queueSelected, moved⟩
      exact .inl (by rw [run, moved])
  | moveJob delta =>
      rcases core.moveJob_eq delta with ⟨jobSelected, moved⟩
      exact .inl (by rw [run, moved])
  | walk delta =>
      rcases core.walk_eq delta with ⟨selected, selectionDirty, error, walked⟩
      exact .inl (by rw [run, walked])
  | jumpToParent =>
      left
      rw [run]
      split <;> rfl
  | fetchFirst => exact Core.asksOnce_flush { core with selected := 0 }.touch
  | fetchLast => exact Core.asksOnce_flush { core with selected := core.rows.length - 1 }.touch
  | fetchHere => exact Core.asksOnce_flush core.touch

/-! ## What a key press asks for -/

/-- The requests that are made for an intent. -/
def Intent.asks : Intent → Request → Bool
  | .rescan _ _, .rescan _ _ | .more, .more | .refreshInfo, .refreshInfo => true
  | .loadSlowlog, .loadSlowlog | .loadClients, .loadClients | .loadCluster, .loadCluster => true
  | .loadPubSub, .loadPubSub | .loadQueues, .loadQueues => true
  | .listJobs, .loadJobs _ _ | .openQueue, .loadJobs _ _ | .cycle _, .loadJobs _ _ => true
  | .showJob, .loadJob _ _ | .openJob, .loadJob _ _ => true
  | .fetchFirst, .select _ | .fetchLast, .select _ | .fetchHere, .select _ => true
  | _, _ => false

namespace Core

variable {core : Core} {request : Request}

theorem mem_accepted_send {other : Request} (member : request ∈ (core.send other).tx.accepted) :
    request ∈ core.tx.accepted ∨ request = other := by
  rw [accepted_send, List.mem_append] at member
  apply member.imp_right
  intro new
  split at new
  next => exact List.mem_singleton.mp new
  next => cases new

theorem mem_accepted_flush (member : request ∈ core.flush.tx.accepted) :
    request ∈ core.tx.accepted ∨ ∃ key, request = .select key := by
  cases wanted : core.wanted with
  | none =>
      rcases core.flush_of_unwanted wanted with kept | cleared
      · exact .inl (by simpa [kept] using member)
      · exact .inl (by simpa [cleared] using member)
  | some path =>
      rw [core.flush_of_wanted wanted] at member
      have sent : request ∈ (core.send (.select path)).tx.accepted := by
        split at member <;> exact member
      exact (mem_accepted_send sent).imp_right fun same => ⟨path, same⟩

theorem mem_accepted_loadJobs (member : request ∈ core.loadJobs.tx.accepted) :
    request ∈ core.tx.accepted ∨ ∃ queue jobState, request = .loadJobs queue jobState := by
  rw [loadJobs] at member
  split at member
  next => exact .inl member
  next => exact (mem_accepted_send member).imp_right fun same => ⟨_, _, same⟩

theorem mem_accepted_loadJob (member : request ∈ core.loadJob.tx.accepted) :
    request ∈ core.tx.accepted ∨ ∃ queue id, request = .loadJob queue id := by
  rw [loadJob] at member
  split at member
  next => exact (mem_accepted_send member).imp_right fun same => ⟨_, _, same⟩
  next => exact .inl member

end Core

/-- Nothing else is asked for. -/
theorem Intent.mem_accepted_run {intent : Intent} {core : Core} {request : Request}
    (member : request ∈ (intent.run core).tx.accepted) :
    request ∈ core.tx.accepted ∨ intent.asks request := by
  have select {key : Str} (same : request = .select key) (fetches : intent.fetches) :
      intent.asks request := by
    cases same
    cases intent <;> first | rfl | cases fetches
  cases intent with
  | stay | leave | retree => exact .inl member
  | rescan | more | refreshInfo | loadSlowlog | loadClients | loadCluster | loadPubSub
  | loadQueues =>
      apply (Core.mem_accepted_send member).imp_right
      rintro rfl
      rfl
  | listJobs | openQueue | cycle =>
      rw [run] at member
      apply (Core.mem_accepted_loadJobs member).imp_right
      rintro ⟨queue, jobState, rfl⟩
      rfl
  | showJob | openJob =>
      rw [run] at member
      apply (Core.mem_accepted_loadJob member).imp_right
      rintro ⟨queue, id, rfl⟩
      rfl
  | moveQueue delta =>
      rcases core.moveQueue_eq delta with ⟨queueSelected, moved⟩
      exact .inl (by rwa [run, moved] at member)
  | moveJob delta =>
      rcases core.moveJob_eq delta with ⟨jobSelected, moved⟩
      exact .inl (by rwa [run, moved] at member)
  | walk delta =>
      rcases core.walk_eq delta with ⟨selected, selectionDirty, error, walked⟩
      exact .inl (by rwa [run, walked] at member)
  | jumpToParent =>
      left
      rw [run] at member
      split at member <;> exact member
  | fetchFirst | fetchLast | fetchHere =>
      rw [run] at member
      apply (Core.mem_accepted_flush member).imp_right
      rintro ⟨key, same⟩
      exact select same rfl

namespace App

theorem asksOnce_handleKey (app : App) (event : KeyEvent) :
    app.core.AsksOnce (app.handleKey event).core := by
  rw [core_handleKey]
  exact Intent.asksOnce_run _ _

theorem asksOnce_flushSelection (app : App) : app.core.AsksOnce app.flushSelection.core := by
  rw [core_flushSelection]
  exact Core.asksOnce_flush _

end App

namespace Browse

variable {state : Browse}

/-- What the worker sees of something that the app does. -/
theorem tasks_act {action : App → App} (once : ∀ app : App, app.core.AsksOnce (action app).core) :
    (state.act action).tasks = state.tasks ∨
      state.tasks.requests.length < channelSize ∧ ∃ request, (state.act action).tasks =
        { state.tasks with accepted := state.tasks.accepted ++ [request] } := by
  let before : App := { state.app with tx := { channel := state.channel } }
  have tasks : (state.act action).tasks =
      { state.tasks with accepted := state.tasks.accepted ++ (action before).core.tx.accepted } :=
    rfl
  rcases once before with same | ⟨room, request, more⟩
  · left
    have nothing : (action before).core.tx.accepted = [] := same
    rw [tasks, nothing, List.append_nil]
  · right
    have one : (action before).core.tx.accepted = [request] := more
    refine ⟨?_, request, by rw [tasks, one]⟩
    by_contra full
    have closed : state.channel = .full := if_neg full
    have isRoom : state.channel = .room := room
    rw [closed] at isRoom
    cases isRoom

theorem tasks_rearm (rtt : Nat) : (state.rearm rtt).tasks = state.tasks := by
  rw [rearm]
  split <;> rfl

theorem app_rearm (rtt : Nat) : (state.rearm rtt).app = state.app := by
  rw [rearm]
  split <;> rfl

theorem tasks_attach (update : Update) : (state.attach update).tasks = state.tasks := by
  unfold attach
  split
  next => split <;> rfl
  next => rfl

theorem app_attach (update : Update) : (state.attach update).app = state.app := by
  unfold attach
  split
  next => split <;> rfl
  next => rfl

theorem tasks_receive (update : Update) : (state.receive update).tasks =
    { state.tasks with received := state.tasks.received + 1 } := by
  change { (state.attach update).tasks with
    received := (state.attach update).tasks.received + 1 } = _
  rw [tasks_attach]

theorem app_receive (update : Update) :
    (state.receive update).app = state.app.apply update := by
  change (state.attach update).app.apply update = _
  rw [app_attach]

theorem tasks_press (rtt : Nat) (event : KeyEvent) :
    (state.press rtt event).tasks = (state.act fun app => app.handleKey event).tasks :=
  tasks_rearm rtt

theorem tasks_fetch (rtt : Nat) :
    (state.fetch rtt).tasks = ({ state with fetchAt := none }.act App.flushSelection).tasks :=
  tasks_rearm rtt

variable {setting : Setting} {may : calls.Answers} {rtt : Nat} {next : Browse}
variable {event : BrowseEvent}

/-- Whatever happens, the worker moves, or one request is accepted, or an update is taken
or put in. -/
theorem Step.tasks (step : Step setting may rtt state event next) :
    Relation.ReflGen (Tasks.Step setting may) state.tasks next.tasks := by
  have acting {action : App → App} (once : ∀ app : App, app.core.AsksOnce (action app).core)
      {other : Browse} (same : other.tasks = state.tasks) :
      Relation.ReflGen (Tasks.Step setting may) state.tasks (other.act action).tasks := by
    rw [← same]
    rcases other.tasks_act once with kept | ⟨room, request, accepted⟩
    · rw [kept]
    · rw [accepted]
      exact .single (.accept request room)
  cases step with
  | key runs event =>
      rw [tasks_press]
      exact acting (fun app => app.asksOnce_handleKey event) rfl
  | fetch runs armed due =>
      rw [tasks_fetch]
      exact acting App.asksOnce_flushSelection rfl
  | @receive runs source update rest waiting =>
      have inside : state.tasks.received < state.tasks.sent.length := by
        have short := congrArg List.length waiting
        rw [Tasks.updates, List.length_drop, List.length_cons] at short
        omega
      rw [tasks_receive]
      exact .single (.drains (.receive inside))
  | tick runs due =>
      have tasks : (state.tick rtt).tasks = { state.tasks with
          accepted := state.tasks.accepted ++
            if state.channel = .room then [.refreshInfo] else [] } := rfl
      rw [tasks]
      split
      next room =>
          apply Relation.ReflGen.single
          apply Tasks.Step.accept
          by_contra full
          have closed : state.channel = .full := if_neg full
          cases closed.symm.trans room
      next => rw [List.append_nil]
  | wait time => exact .refl
  | work move => exact .single (.drains (.move move))
  | read attached room events => exact .single (.read _ room)

/-- What holds of the tasks in every run holds in the browser. -/
theorem Reachable.tasks {heeds : Browse → BrowseEvent → Prop} {lens : BullMqLens}
    {server : ServerInfo} {url : Str}
    (reachable : Reachable setting may rtt heeds lens server url state) :
    Tasks.Reachable setting may lens state.tasks := by
  induction reachable with
  | start =>
      have room : 1 < channelSize := by decide
      have detecting : Tasks.Reachable setting may lens
          { loop := { bullmq := lens }, accepted := [.detect] } :=
        Tasks.reachable_accepted setting may lens .detect
      exact detecting.tail (.accept (.rescan none none) room)
  | next before heeded step ih => exact ih.trans step.tasks.to_reflTransGen

end Browse

end Keylens.Tui
