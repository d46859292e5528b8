import Keylens.Tui.Following
import Keylens.Tui.ValuePane

/-!
# How often the browser asks

A cursor that has moved is fetched once it sits still for long enough, and a deadline is
always set for it.  The stats are refreshed on a tick that is slower the farther away the
server is.
-/

namespace Keylens.Tui

open Keylens.Library Keylens.Connection Keylens.BullMq Keylens.Ui Keylens.Backend

theorem selectDebounce_le (rtt : Nat) : selectDebounce rtt ≤ selectDebounceMax := by
  rw [selectDebounce]
  split
  next => decide
  next => exact clamp_le _ (by decide)

/-- Unless the server is very far away, the refreshes take a twentieth of the connection
at most. -/
theorem le_infoTick {rtt : Nat} (near : rtt ≤ millis 3000) : rtt * infoTickRtts ≤ infoTick rtt := by
  rw [infoTick]
  split
  next zero =>
      rw [zero, Nat.zero_mul]
      exact Nat.zero_le _
  next =>
      rw [clamp]
      split
      next small => exact Nat.le_of_lt small
      next =>
          split
          next large =>
              have bound : rtt * infoTickRtts ≤ infoTickMax := by
                rw [millis] at near
                rw [infoTickRtts, infoTickMax, millis]
                omega
              exact absurd bound (Nat.not_le_of_lt large)
          next => exact Nat.le_refl _

/-- With room in the channel nothing is left to be fetched. -/
theorem Core.selectionDirty_flush {core : Core} (room : core.tx.channel = .room) :
    core.flush.selectionDirty = false := by
  cases wanted : core.wanted with
  | none => rcases core.flush_of_unwanted wanted with kept | cleared <;> simp [*]
  | some path => rw [core.flush_of_wanted wanted, if_pos room]

namespace Browse

variable {setting : Setting} {may : calls.Answers} {rtt : Nat} {state next : Browse}
variable {event : BrowseEvent}

/-! ## The deadline for the cursor -/

/-- While something is to be fetched there is a deadline for it. -/
def Armed (rtt : Nat) (state : Browse) : Prop :=
  state.app.selectionDirty →
    ∃ deadline, state.fetchAt = some deadline ∧ deadline ≤ state.now + selectDebounce rtt

theorem armed_rearm (state : Browse) : (state.rearm rtt).Armed rtt := by
  rw [rearm]
  split
  next => exact fun _ => ⟨_, rfl, Nat.le_refl _⟩
  next clean => exact fun dirty => absurd dirty clean

/-- No update moves the cursor by itself. -/
theorem selectionDirty_apply (app : App) (update : Update) :
    (app.apply update).selectionDirty = app.selectionDirty := by
  cases update with
  | batch keys reset complete scannedPages => cases reset <;> rfl
  | detail keyMeta value stream =>
      rw [App.apply, App.applyDetail]
      split <;> rfl
  | jobs jobState data =>
      rw [App.apply, App.applyJobs]
      split <;> rfl
  | _ => rfl

theorem pacing_attach (update : Update) :
    (state.attach update).now = state.now ∧ (state.attach update).fetchAt = state.fetchAt ∧
      (state.attach update).tickAt = state.tickAt := by
  unfold attach
  split
  next => split <;> exact ⟨rfl, rfl, rfl⟩
  next => exact ⟨rfl, rfl, rfl⟩

theorem Armed.step (armed : state.Armed rtt) (step : Step setting may rtt state event next) :
    next.Armed rtt := by
  cases step with
  | key runs event => exact armed_rearm _
  | fetch runs deadline due => exact armed_rearm _
  | @receive runs source update rest waiting =>
      intro dirty
      rw [app_receive, selectionDirty_apply] at dirty
      rcases armed dirty with ⟨deadline, fetchAt, soon⟩
      have same := state.pacing_attach update
      refine ⟨deadline, same.2.1.trans fetchAt, ?_⟩
      change deadline ≤ (state.attach update).now + selectDebounce rtt
      rwa [same.1]
  | tick runs due => exact armed
  | wait time =>
      intro dirty
      rcases armed dirty with ⟨deadline, fetchAt, soon⟩
      refine ⟨deadline, fetchAt, ?_⟩
      dsimp only
      omega
  | work move => exact armed
  | read attached room events => exact armed

variable {heeds : Browse → BrowseEvent → Prop} {lens : BullMqLens} {server : ServerInfo} {url : Str}

/-- The value pane is for the row under the cursor, and a key under it is the one that was
asked for last. -/
def FetchesCursor (state : Browse) : Prop :=
  state.app.core.Fetched ∧ ∀ row, state.app.selectedRow = some row → row.isKey →
    ∃ number, LastAsked state.tasks number row.path

theorem CatchesUp.fetchesCursor (catchesUp : state.CatchesUp) (fetched : state.app.core.Fetched) :
    state.FetchesCursor := by
  refine ⟨fetched, ?_⟩
  intro row selected isKey
  have pending : state.app.core.ShowsRow row := fetched row selected
  rw [Core.ShowsRow, if_pos isKey] at pending
  rcases catchesUp row.path pending with ⟨number, asked, _⟩
  exact ⟨number, asked⟩

/-- A cursor that is marked as moved is fetched soon: if nothing else happens, the deadline
comes within 400 ms.  Then the value pane is for the row under the cursor and its key has
been asked for, unless the channel was full, in which case there is another deadline. -/
theorem cursor_fetched_soon (reachable : Reachable setting may rtt heeds lens server url state)
    (runs : state.app.quit = false) (dirty : state.app.selectionDirty) :
    ∃ time ≤ selectDebounceMax, ∃ next,
      Step setting may rtt { state with now := state.now + time } .fetch next ∧
        (next.FetchesCursor ∨ state.channel = .full ∧
          next.fetchAt = some (state.now + time + selectDebounce rtt)) := by
  have armed : state.Armed rtt := by
    apply Reaches.invariant reachable
    · exact nofun
    · exact fun before event after armed _ step => armed.step step
  rcases armed dirty with ⟨deadline, fetchAt, soon⟩
  have short := selectDebounce_le rtt
  let due : Browse := { state with now := state.now + (deadline - state.now) }
  have fetched : Step setting may rtt due .fetch (due.fetch rtt) := by
    apply @Step.fetch setting may rtt due runs deadline fetchAt
    change deadline ≤ state.now + (deadline - state.now)
    omega
  have catchesUp : (due.fetch rtt).CatchesUp := by
    have known := Reachable.known reachable
    have before : due.CatchesUp := (catchesUp_of_reachable reachable).of_same rfl rfl rfl
    exact before.step ⟨known.serves, known.delivers, known.inside, known.events⟩
      (fetched.mono fun _ _ _ => trivial)
  refine ⟨deadline - state.now, by omega, due.fetch rtt, fetched, ?_⟩
  let asking : App := { state.app with tx := { channel := state.channel } }
  let flushed : Browse := { due with fetchAt := none }.act App.flushSelection
  have core : flushed.app.core = asking.core.flush := App.core_flushSelection _
  rcases asking.core.fetched_flush with still | fetched
  · right
    have full : state.channel = .full := by
      cases channel : state.channel with
      | full => rfl
      | room =>
          rw [Core.selectionDirty_flush channel] at still
          cases still
      | closed =>
          rw [Browse.channel] at channel
          split at channel <;> cases channel
    have stillDirty : flushed.app.selectionDirty := by
      rw [← core] at still
      exact still
    refine ⟨full, ?_⟩
    rw [show due.fetch rtt = flushed.rearm rtt from rfl, rearm, if_pos stillDirty]
    rfl
  · left
    apply catchesUp.fetchesCursor
    rw [show due.fetch rtt = flushed.rearm rtt from rfl, app_rearm, core]
    exact fetched

/-- From the first of two keys the cursor moves down. -/
theorem cursor_fetched_soon_down :
    ∃ state : Browse, state.app.selectionDirty ∧ ∃ time ≤ selectDebounceMax, ∃ next,
      Step plainSetting calls.anything 0 { state with now := state.now + time } .fetch next ∧
        (next.FetchesCursor ∨ state.channel = .full ∧
          next.fetchAt = some (state.now + time + selectDebounce 0)) := by
  rcases exists_listed with ⟨⟨app, tasks, now, fetchAt, tickAt, attached⟩, reachable, listed, loop,
    asked, answered⟩
  cases listed
  cases answered
  have pressed := reachable.next trivial (.key rfl { code := .char 'j' })
  exact ⟨_, rfl, cursor_fetched_soon pressed rfl rfl⟩

/-! ## The tick for the stats -/

/-- No key press refreshes the stats. -/
def LeavesStats (state : Browse) : BrowseEvent → Prop
  | .key event => (state.app.intent event).asks .refreshInfo = false
  | _ => True

/-- Each refresh so far has moved the next one by a tick, and that is at most a tick
away. -/
structure Paced (rtt : Nat) (state : Browse) : Prop where
  spaced : state.tasks.accepted.count .refreshInfo * infoTick rtt ≤ state.tickAt
  soon : state.tickAt ≤ state.now + infoTick rtt

theorem Paced.of_same (paced : state.Paced rtt) (time : state.now ≤ next.now)
    (tickAt : next.tickAt = state.tickAt) {accepted : List Request}
    (asked : next.tasks.accepted = state.tasks.accepted ++ accepted)
    (others : .refreshInfo ∉ accepted) : next.Paced rtt := by
  have count : next.tasks.accepted.count .refreshInfo =
      state.tasks.accepted.count .refreshInfo := by
    rw [asked, List.count_append, List.count_eq_zero.mpr others, Nat.add_zero]
  refine ⟨?_, ?_⟩
  · rw [count, tickAt]
    exact paced.spaced
  · rw [tickAt]
    exact paced.soon.trans (Nat.add_le_add_right time _)

theorem Paced.rearm (paced : state.Paced rtt) : (state.rearm rtt).Paced rtt := by
  rw [Browse.rearm]
  split
  next => exact ⟨paced.spaced, paced.soon⟩
  next => exact paced

theorem Paced.act (paced : state.Paced rtt) {action : App → App}
    (others : .refreshInfo ∉
      (action { state.app with tx := { channel := state.channel } }).core.tx.accepted) :
    (state.act action).Paced rtt :=
  @of_same rtt state (state.act action) paced (Nat.le_refl _) rfl _ rfl others

theorem Paced.tick (paced : state.Paced rtt) (due : state.tickAt ≤ state.now) :
    (state.tick rtt).Paced rtt := by
  let late := (state.now - state.tickAt) / infoTick rtt
  have tickAt : (state.tick rtt).tickAt = state.tickAt + infoTick rtt * (late + 1) := rfl
  have one : (state.tick rtt).tasks.accepted.count .refreshInfo ≤
      state.tasks.accepted.count .refreshInfo + 1 := by
    have accepted : (state.tick rtt).tasks.accepted = state.tasks.accepted ++
        if state.channel = .room then [.refreshInfo] else [] := rfl
    rw [accepted, List.count_append]
    apply Nat.add_le_add_left
    split <;> decide
  have spaced := paced.spaced
  have past : infoTick rtt * late ≤ state.now - state.tickAt := Nat.mul_div_le _ _
  refine ⟨?_, ?_⟩
  · calc (state.tick rtt).tasks.accepted.count .refreshInfo * infoTick rtt
        ≤ (state.tasks.accepted.count .refreshInfo + 1) * infoTick rtt :=
          Nat.mul_le_mul_right _ one
      _ = state.tasks.accepted.count .refreshInfo * infoTick rtt + infoTick rtt :=
          Nat.succ_mul _ _
      _ ≤ state.tickAt + infoTick rtt * (late + 1) :=
          Nat.add_le_add spaced (Nat.le_mul_of_pos_right _ (Nat.succ_pos late))
  · rw [tickAt, Nat.mul_succ]
    change _ ≤ state.now + infoTick rtt
    omega

theorem Paced.step (paced : state.Paced rtt) (heeded : state.LeavesStats event)
    (step : Step setting may rtt state event next) : next.Paced rtt := by
  cases step with
  | key runs event =>
      apply Paced.rearm
      apply paced.act
      intro member
      rw [App.core_handleKey] at member
      rcases Intent.mem_accepted_run member with old | asks
      · cases old
      · have other : (state.app.intent event).asks .refreshInfo = false := heeded
        cases other.symm.trans asks
  | fetch runs armed due =>
      have disarmed : Paced rtt { state with fetchAt := none } := ⟨paced.spaced, paced.soon⟩
      apply Paced.rearm
      apply disarmed.act
      intro member
      rw [App.core_flushSelection] at member
      rcases Core.mem_accepted_flush member with old | ⟨key, same⟩
      · cases old
      · cases same
  | @receive runs source update rest waiting =>
      have same := state.pacing_attach update
      have tasks := state.tasks_receive update
      refine @of_same rtt state (state.receive update) paced (Nat.le_of_eq same.1.symm) same.2.2 []
        ?_ List.not_mem_nil
      rw [tasks, List.append_nil]
  | tick runs due => exact paced.tick due
  | wait time => exact ⟨paced.spaced, paced.soon.trans (by dsimp only; omega)⟩
  | work move =>
      have accepted := Tasks.accepted_of_drains (.move move)
      refine ⟨?_, paced.soon⟩
      dsimp only
      rw [accepted]
      exact paced.spaced
  | read attached room events => exact ⟨paced.spaced, paced.soon⟩

/-- Over a whole run the stats are refreshed at most once a tick, so that near servers
spend at most a twentieth of the time on it. -/
theorem refreshes_paced
    (reachable : Reachable setting may rtt (fun state event => state.LeavesStats event) lens server
      url state) :
    state.tasks.accepted.count .refreshInfo * infoTick rtt ≤ state.now + infoTick rtt ∧
      (rtt ≤ millis 3000 → state.tasks.accepted.count .refreshInfo * (rtt * infoTickRtts) ≤
        state.now + infoTick rtt) := by
  have paced : state.Paced rtt := by
    apply Reaches.invariant reachable
    · exact ⟨Nat.le_of_eq (Nat.zero_mul _), Nat.zero_le _⟩
    · exact fun before event after paced heeded step => paced.step heeded step
  have few := paced.spaced.trans paced.soon
  exact ⟨few, fun near => (Nat.mul_le_mul_left _ (le_infoTick near)).trans few⟩

/-- On a server that is half a second away three ticks are ten seconds apart. -/
theorem refreshes_paced_ticks :
    ∃ state : Browse, state.tasks.accepted.count .refreshInfo = 3 ∧ state.now = millis 20000 ∧
      state.tasks.accepted.count .refreshInfo * (millis 500 * infoTickRtts) ≤
        state.now + infoTick (millis 500) := by
  have begun : Reachable plainSetting calls.anything (millis 500)
      (fun state event => state.LeavesStats event) plainLens plainServer
      "redis://localhost".toList plainStart := .start
  have ticked := begun.next (show LeavesStats _ .tick from trivial) (.tick rfl (by decide))
  have waited := ticked.next (show LeavesStats _ .wait from trivial) (.wait (millis 10000))
  have again := waited.next (show LeavesStats _ .tick from trivial) (.tick rfl (by decide))
  have later := again.next (show LeavesStats _ .wait from trivial) (.wait (millis 10000))
  have last := later.next (show LeavesStats _ .tick from trivial) (.tick rfl (by decide))
  exact ⟨_, rfl, rfl, (refreshes_paced last).2 (by decide)⟩

end Browse

end Keylens.Tui
