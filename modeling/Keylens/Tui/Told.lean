import Keylens.Tui.ValuePane

/-!
# What the app was told

The lenses that matched, the live graph and the stats are what the updates said that the
app has taken, in their order.  No key press changes them, and no update is counted twice
or left out.
-/

namespace Keylens.Tui

open Keylens.Library Keylens.Connection Keylens.BullMq Keylens.Ui Keylens.Backend

/-- What the app knows only from updates. -/
structure Told where
  detections : List Detection := []
  throughput : Throughput := {}
  server : ServerInfo

/-- Take in an update. -/
def Told.hear (told : Told) : Update → Told
  | .detected detections => { told with detections }
  | .info server => { told with server }
  | .eventsStatus status => { told with throughput := { told.throughput with status } }
  | .events events =>
      { told with
        throughput := events.foldl (fun throughput event =>
          throughput.record event.queue event.kind event.atMs) told.throughput }
  | _ => told

namespace App

def told (app : App) : Told where
  detections := app.detections
  throughput := app.throughput
  server := app.server

variable (app : App) (key : KeyEvent)

theorem told_apply (update : Update) : (app.apply update).told = app.told.hear update := by
  cases update with
  | batch keys reset complete scannedPages => cases reset <;> rfl
  | detail keyMeta value stream =>
      rw [apply, applyDetail]
      split <;> rfl
  | jobs jobState data =>
      rw [apply, applyJobs]
      split <;> rfl
  | _ => rfl

/-! ## Handlers -/

/-- Nothing new is known or shown, and a scan is not said to be complete that was not. -/
def Untold (before after : App) : Prop :=
  after.told = before.told ∧ (after.scanComplete → before.scanComplete) ∧
    (after.detail = none ∨ after.detail = before.detail ∧ after.stream = before.stream) ∧
    ∀ topology, after.cluster = .ready topology → before.cluster = .ready topology

theorem Untold.same (app : App) : app.Untold app :=
  ⟨rfl, id, .inr ⟨rfl, rfl⟩, fun _ => id⟩

theorem untold_send (request : Request) : app.Untold (app.send request).2 := by
  rw [send]
  cases app.tx.channel <;> exact Untold.same app

theorem untold_loadJobs : app.Untold app.loadJobs := by
  rw [loadJobs]
  split
  · exact Untold.same app
  · exact app.untold_send _

theorem untold_loadJob : app.Untold app.loadJob := by
  rw [loadJob]
  split
  · exact app.untold_send _
  · exact Untold.same app

theorem untold_rescan : app.Untold app.rescan := by
  rw [rescan]
  dsimp only
  split
  · refine ⟨(app.untold_send _).1, ?_, (app.untold_send _).2.2⟩
    intro isComplete
    cases isComplete
  · exact app.untold_send _

theorem untold_more : app.Untold app.more := by
  rw [more]
  split
  · exact Untold.same app
  · dsimp only
    split <;> exact app.untold_send _

theorem untold_flushSelection : app.Untold app.flushSelection := by
  rw [flushSelection]
  dsimp only
  split
  · exact Untold.same app
  · split
    · exact ⟨rfl, id, .inl rfl, fun _ => id⟩
    · rw [fetch]
      split
      · exact Untold.same app
      · dsimp only
        split <;> exact untold_send _ _

theorem untold_handleTreeKey : app.Untold (app.handleTreeKey key) := by
  have walks (delta : Int) : app.Untold (app.moveCursor delta) := by
    rw [moveCursor]
    split
    · exact Untold.same app
    · dsimp only
      split <;> exact Untold.same app
  have opens : app.Untold app.openSelected := by
    rw [openSelected]
    split
    · exact Untold.same app
    · split
      · exact Untold.same app
      · exact app.touchSelection.untold_flushSelection
  have collapses : app.Untold app.collapseOrParent := by
    rw [collapseOrParent]
    split
    · exact Untold.same app
    · split
      · exact Untold.same app
      · dsimp only
        split <;> exact Untold.same app
  rw [handleTreeKey]
  split
  case h_7 | h_8 | h_9 | h_10 => exact untold_flushSelection _
  case h_11 | h_12 | h_13 | h_14 => exact opens
  case h_15 | h_16 => exact collapses
  case h_17 => exact Untold.same app
  all_goals exact walks _

theorem untold_handleKeysViewKey : app.Untold (app.handleKeysViewKey key) := by
  rw [handleKeysViewKey]
  split
  case h_1 | h_2 | h_7 => exact Untold.same app
  case h_3 =>
      split
      · exact untold_rescan _
      · exact Untold.same app
  case h_4 => exact untold_rescan _
  case h_5 => exact app.untold_more
  case h_6 =>
      rw [expandAll]
      split <;> exact Untold.same app
  case h_8 =>
      split
      · rw [handleValueKey]
        split <;> exact Untold.same app
      · exact app.untold_handleTreeKey key

theorem untold_handleQueuesKey : app.Untold (app.handleQueuesKey key) := by
  have moves (delta : Int) : app.Untold (app.moveQueueCursor delta) := by
    rw [moveQueueCursor]
    split
    · dsimp only
      split <;> exact Untold.same app
    · dsimp only
      split <;> exact Untold.same app
    · split <;> exact Untold.same app
  have cycles (delta : Int) : app.Untold (app.cycleState delta) := by
    rw [cycleState]
    split
    · exact Untold.same app
    · exact untold_loadJobs _
  have enters : app.Untold app.enterLevel := by
    rw [enterLevel]
    split
    · split
      · exact untold_loadJobs _
      · exact Untold.same app
    · split
      · exact untold_loadJob _
      · exact Untold.same app
    · exact Untold.same app
  have leaves : app.Untold app.leaveLevel := by
    rw [leaveLevel]
    split <;> exact Untold.same app
  rw [handleQueuesKey]
  split
  case h_11 | h_12 => exact cycles _
  case h_13 | h_14 | h_15 | h_16 => exact enters
  case h_17 | h_18 | h_19 => exact leaves
  case h_20 => exact Untold.same app
  all_goals exact moves _

theorem untold_loadView (force : Bool) : app.Untold (app.loadView force) := by
  rw [loadView]
  split
  case h_1 =>
      split
      · exact app.untold_rescan
      · exact Untold.same app
  case h_2 => exact app.untold_send _
  case h_5 =>
      split
      · have sent := app.untold_send .loadCluster
        refine ⟨sent.1, sent.2.1, sent.2.2.1, ?_⟩
        intro topology ready
        -- While it is asked for there is no topology.
        have awaited : (if (app.send .loadCluster).1 then .loading else workerBusy) =
            PaneState.ready topology := ready
        split at awaited <;> cases awaited
      · exact Untold.same app
  case h_7 =>
      split
      · split
        · exact app.untold_send _
        · exact Untold.same app
      · exact app.untold_loadJobs
      · exact app.untold_loadJob
  all_goals
    split
    · exact app.untold_send _
    · exact Untold.same app

theorem untold_handleViewKey : app.Untold (app.handleViewKey key) := by
  rw [handleViewKey]
  split
  · exact app.untold_handleKeysViewKey key
  · exact app.untold_handleQueuesKey key
  · rw [handlePaneKey]
    split <;> exact Untold.same app

theorem untold_handleNormalKey : app.Untold (app.handleNormalKey key) := by
  rw [handleNormalKey]
  split
  case h_1 | h_2 => exact Untold.same app
  case h_3 => exact app.untold_loadView true
  case h_4 =>
      split
      · split
        · rw [goto]
          split
          · exact Untold.same app
          · exact untold_loadView _ false
        · exact Untold.same app
      · exact app.untold_handleViewKey key
  case h_5 => exact app.untold_handleViewKey key

/-- No key press changes what the app was told. -/
theorem untold_handleKey : app.Untold (app.handleKey key) := by
  rw [handleKey]
  split
  · exact Untold.same app
  · dsimp only
    split
    · exact Untold.same app
    · rw [handleSearchKey]
      split
      case h_2 => exact untold_rescan _
      all_goals exact Untold.same app
    · exact untold_handleNormalKey _ key

end App

/-! ## Every run -/

namespace Browse

variable {setting : Setting} {rtt : Nat} {state next : Browse} {event : BrowseEvent}
variable {heeds : Browse → BrowseEvent → Prop} {lens : BullMqLens} {server : ServerInfo} {url : Str}

/-- What the app was told is what it has heard. -/
def WasTold (server : ServerInfo) (state : Browse) : Prop :=
  state.app.told = (state.heard.map Prod.snd).foldl Told.hear { server }

theorem WasTold.of_same (told : state.WasTold server) (app : next.app.told = state.app.told)
    (heard : next.heard = state.heard) : next.WasTold server := by
  rw [WasTold, app, heard]
  exact told

theorem WasTold.step (told : state.WasTold server) (known : state.Known setting)
    (step : Step setting calls.anything rtt state event next) : next.WasTold server := by
  cases step with
  | key runs event =>
      apply told.of_same
      · rw [press, app_rearm]
        exact (App.untold_handleKey { state.app with tx := { channel := state.channel } } event).1
      · exact heard_press rtt event
  | fetch runs armed due =>
      apply told.of_same
      · rw [fetch, app_rearm]
        exact (App.untold_flushSelection { state.app with tx := { channel := state.channel } }).1
      · exact heard_fetch rtt
  | receive runs waiting =>
      rw [WasTold, app_receive, App.told_apply, heard_receive waiting, List.map_append,
        List.foldl_append, ← show _ = _ from told]
      rfl
  | tick runs due => exact told
  | wait time => exact told
  | work move => exact told.of_same rfl (heard_move known.inside move)
  | read attached room events => exact told.of_same rfl (heard_put known.inside _ rfl rfl)

/-- Whatever the user does meanwhile, the lenses, the live graph and the stats are what
the updates said that the app has taken, in their order. -/
theorem told_of_reachable
    (reachable : Reachable setting calls.anything rtt heeds lens server url state) :
    state.app.told = (state.heard.map Prod.snd).foldl Told.hear { server } := by
  have told : state.WasTold server := by
    induction reachable with
    | start => rfl
    | next before _ step ih => exact ih.step (Reachable.known before) step
  exact told

end Browse

end Keylens.Tui
