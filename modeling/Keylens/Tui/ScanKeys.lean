import Keylens.Tui.TreeKeys

/-!
# What a key press does to the scan

A key press asks for a new scan, asks for more of the present one, or leaves alone
what is shown of it.  The first two are told by the intent of the key press.
-/

namespace Keylens.Tui

open Keylens.Library Keylens.Connection Keylens.BullMq Keylens.Ui Keylens.Backend

/-- The filter that is displayed and whether a scan is said to be going on. -/
def App.scanView (app : App) : Option Str × Option Kind × Bool :=
  (app.pattern, app.kindFilter, app.loading)

/-- The intents that ask for a scan. -/
def Intent.isScan : Intent → Bool
  | .rescan _ _ | .more => true
  | _ => false

theorem Intent.not_isScan_of_inQueues {intent : Intent} (inQueues : intent.inQueues) :
    intent.isScan = false := by
  cases intent <;> first | rfl | cases inQueues

/-- What a handler with some intent does to the scan. -/
inductive Scans (app : App) : Intent → App → Prop where
  | rescan (scanned : App) (sameChannel : scanned.tx.channel = app.tx.channel) :
      Scans app (.rescan scanned.pattern scanned.kindFilter) scanned.rescan
  | more (scanned : App) (sameView : scanned.scanView = app.scanView)
      (sameChannel : scanned.tx.channel = app.tx.channel)
      (incomplete : scanned.scanComplete = false) : Scans app .more scanned.more
  | keep {intent : Intent} {after : App} (other : intent.isScan = false)
      (sameView : after.scanView = app.scanView) : Scans app intent after

/-- Only the view and the channel of the app before matter. -/
theorem Scans.of_same {app other after : App} {intent : Intent} (scans : Scans other intent after)
    (sameView : other.scanView = app.scanView) (sameChannel : other.tx.channel = app.tx.channel) :
    Scans app intent after := by
  cases scans with
  | rescan scanned channel => exact .rescan scanned (channel.trans sameChannel)
  | more scanned view channel incomplete =>
      exact .more scanned (view.trans sameView) (channel.trans sameChannel) incomplete
  | keep other view => exact .keep other (view.trans sameView)

namespace App

variable (app : App) (key : KeyEvent)

/-! ## Handlers that leave the scan alone -/

theorem scanView_send (request : Request) : (app.send request).2.scanView = app.scanView := by
  rw [send]
  cases app.tx.channel <;> rfl

theorem scanView_loadJobs : app.loadJobs.scanView = app.scanView := by
  rw [loadJobs]
  split
  · rfl
  · exact app.scanView_send _

theorem scanView_loadJob : app.loadJob.scanView = app.scanView := by
  rw [loadJob]
  split
  · exact app.scanView_send _
  · rfl

theorem scanView_flushSelection : app.flushSelection.scanView = app.scanView := by
  rw [flushSelection]
  dsimp only
  split
  · rfl
  · split
    · rfl
    · rw [fetch]
      split
      · rfl
      · dsimp only
        split <;> exact scanView_send _ _

theorem scanView_handleTreeKey : (app.handleTreeKey key).scanView = app.scanView := by
  have walks (delta : Int) : (app.moveCursor delta).scanView = app.scanView := by
    rw [moveCursor]
    split
    · rfl
    · dsimp only
      split <;> rfl
  have opens : app.openSelected.scanView = app.scanView := by
    rw [openSelected]
    split
    · rfl
    · split
      · rfl
      · exact app.touchSelection.scanView_flushSelection
  have collapses : app.collapseOrParent.scanView = app.scanView := by
    rw [collapseOrParent]
    split
    · rfl
    · split
      · rfl
      · dsimp only
        split <;> rfl
  rw [handleTreeKey]
  split
  case h_7 | h_8 | h_9 | h_10 => exact scanView_flushSelection _
  case h_11 | h_12 | h_13 | h_14 => exact opens
  case h_15 | h_16 => exact collapses
  case h_17 => rfl
  all_goals exact walks _

theorem scanView_handleValueKey : (app.handleValueKey key).scanView = app.scanView := by
  rw [handleValueKey]
  split <;> rfl

theorem scanView_handlePaneKey : (app.handlePaneKey key).scanView = app.scanView := by
  rw [handlePaneKey]
  split <;> rfl

theorem scanView_handleQueuesKey : (app.handleQueuesKey key).scanView = app.scanView := by
  have moves (delta : Int) : (app.moveQueueCursor delta).scanView = app.scanView := by
    rw [moveQueueCursor]
    split
    · dsimp only
      split <;> rfl
    · dsimp only
      split <;> rfl
    · split <;> rfl
  have cycles (delta : Int) : (app.cycleState delta).scanView = app.scanView := by
    rw [cycleState]
    split
    · rfl
    · exact scanView_loadJobs _
  have enters : app.enterLevel.scanView = app.scanView := by
    rw [enterLevel]
    split
    · split
      · exact scanView_loadJobs _
      · rfl
    · split
      · exact scanView_loadJob _
      · rfl
    · rfl
  have leaves : app.leaveLevel.scanView = app.scanView := by
    rw [leaveLevel]
    split <;> rfl
  rw [handleQueuesKey]
  split
  case h_11 | h_12 => exact cycles _
  case h_13 | h_14 | h_15 | h_16 => exact enters
  case h_17 | h_18 | h_19 => exact leaves
  case h_20 => rfl
  all_goals exact moves _

/-! ## Intents of other kinds -/

theorem isScan_treeIntent : (app.treeIntent key).isScan = false := by
  have opens : app.openIntent.isScan = false := by
    rw [openIntent]
    split
    · rfl
    · split <;> rfl
  have collapses : app.collapseIntent.isScan = false := by
    rw [collapseIntent]
    split
    · rfl
    · split <;> rfl
  rw [treeIntent]
  split
  case h_11 | h_12 | h_13 | h_14 => exact opens
  case h_15 | h_16 => exact collapses
  all_goals rfl

/-! ## All key presses -/

theorem scans_more : Scans app (if app.scanComplete then .stay else .more) app.more := by
  cases complete : app.scanComplete with
  | true =>
      have stays : app.more = app := by rw [more, if_pos complete]
      rw [stays]
      exact .keep rfl rfl
  | false => exact .more app rfl rfl complete

theorem scans_handleKeysViewKey :
    Scans app (app.keysViewIntent key) (app.handleKeysViewKey key) := by
  rw [handleKeysViewKey]
  split
  case h_1 code | h_2 code =>
      rw [keysViewIntent, code]
      exact .keep rfl rfl
  case h_3 code =>
      rw [keysViewIntent, code]
      dsimp only
      split
      · exact .rescan { app with pattern := none, searchInput := [] } rfl
      · exact .keep rfl rfl
  case h_4 code =>
      rw [keysViewIntent, code]
      exact .rescan { app with kindFilter := nextKind app.kindFilter } rfl
  case h_5 code =>
      rw [keysViewIntent, code]
      exact app.scans_more
  case h_6 code =>
      have expands : app.expandAll.scanView = app.scanView := by
        rw [expandAll]
        split <;> rfl
      have meant : app.keysViewIntent key =
          if app.tree.total ≤ 5000 then .retree app.tree.expandAll else .stay := by
        rw [keysViewIntent, code]
        rfl
      rw [meant]
      split <;> exact .keep rfl expands
  case h_7 code =>
      rw [keysViewIntent, code]
      exact .keep rfl rfl
  case h_8 =>
      rw [keysViewIntent]
      split
      case h_8 =>
          rw [focusIntent]
          split
          · exact .keep rfl (app.scanView_handleValueKey key)
          · exact .keep (app.isScan_treeIntent key) (app.scanView_handleTreeKey key)
      all_goals contradiction

theorem scans_loadView (force : Bool) : Scans app (app.loadIntent force) (app.loadView force) := by
  rw [loadView, loadIntent]
  cases app.view with
  | keys =>
      dsimp only
      split
      · exact .rescan app rfl
      · exact .keep rfl rfl
  | stats => exact .keep rfl (app.scanView_send _)
  | slowlog | clients | cluster | pubSub =>
      dsimp only
      split
      · exact .keep rfl (app.scanView_send _)
      · exact .keep rfl rfl
  | queues =>
      cases app.level with
      | queues =>
          dsimp only
          split
          · exact .keep rfl (app.scanView_send _)
          · exact .keep rfl rfl
      | jobs => exact .keep rfl app.scanView_loadJobs
      | job => exact .keep rfl app.scanView_loadJob

theorem scans_goto (view : View) : Scans app (app.gotoIntent view) (app.goto view) := by
  rw [goto, gotoIntent]
  split
  · exact .keep rfl rfl
  · have loaded := scans_loadView { app with view, paneScroll := 0 } false
    exact loaded.of_same rfl rfl

theorem scans_handleViewKey : Scans app (app.viewIntent key) (app.handleViewKey key) := by
  rw [handleViewKey, viewIntent]
  cases app.view with
  | keys => exact app.scans_handleKeysViewKey key
  | queues =>
      have other := Intent.not_isScan_of_inQueues (app.inQueues_queuesIntent key)
      exact .keep other (app.scanView_handleQueuesKey key)
  | stats | slowlog | clients | cluster | pubSub =>
      exact .keep rfl (app.scanView_handlePaneKey key)

theorem scans_handleNormalKey : Scans app (app.normalIntent key) (app.handleNormalKey key) := by
  rw [handleNormalKey]
  split
  case h_1 code | h_2 code =>
      rw [normalIntent, code]
      exact .keep rfl rfl
  case h_3 code =>
      rw [normalIntent, code]
      exact app.scans_loadView true
  case h_4 c notQuit notHelp notReload code =>
      rw [app.normalIntent_of_char key code notQuit notHelp notReload, charIntent]
      split
      · cases app.viewFromDigit c with
        | none => exact .keep rfl rfl
        | some view => exact app.scans_goto view
      · exact app.scans_handleViewKey key
  case h_5 untyped =>
      rw [app.normalIntent_of_untyped key untyped]
      exact app.scans_handleViewKey key

theorem scans_handleSearchKey : Scans app (app.searchIntent key) (app.handleSearchKey key) := by
  rw [handleSearchKey]
  split
  case h_2 code =>
      rw [searchIntent, code]
      exact .rescan { app with mode := .normal, pattern := searchPattern app.searchInput } rfl
  case h_1 code | h_3 code | h_4 code =>
      rw [searchIntent, code]
      exact .keep rfl rfl
  case h_5 =>
      rw [searchIntent]
      split
      · contradiction
      · exact .keep rfl rfl

/-- What a key press does to the scan follows from its intent. -/
theorem scans_handleKey : Scans app (app.intent key) (app.handleKey key) := by
  rw [handleKey]
  split
  next quits =>
      rw [show app.intent key = .stay by rw [intent, if_pos quits]]
      exact .keep rfl rfl
  next quits =>
      dsimp only
      split
      next mode =>
          rw [show app.intent key = .stay by rw [intent, if_neg quits, show app.mode = _ from mode]]
          exact .keep rfl rfl
      next mode =>
          rw [show app.intent key = app.searchIntent key by
            rw [intent, if_neg quits, show app.mode = _ from mode]]
          have searched := scans_handleSearchKey { app with splash := false } key
          exact searched.of_same rfl rfl
      next mode =>
          rw [show app.intent key = app.normalIntent key by
            rw [intent, if_neg quits, show app.mode = _ from mode]]
          have handled := scans_handleNormalKey { app with splash := false } key
          exact handled.of_same rfl rfl

end App

/-! ## The scans that are asked for -/

def isScanRequest : Request → Bool
  | .rescan _ _ | .more => true
  | _ => false

namespace Core

/-- The scanning requests that the channel has taken. -/
def scanRequests (core : Core) : List Request :=
  core.tx.accepted.filter isScanRequest

variable (core : Core)

theorem scanRequests_send {request : Request} (scanning : isScanRequest request) :
    (core.send request).scanRequests =
      core.scanRequests ++ if core.tx.channel = .room then [request] else [] := by
  rw [scanRequests, core.accepted_send, List.filter_append, ← scanRequests]
  split <;> simp [scanning]

theorem scanRequests_send_other {request : Request} (other : isScanRequest request = false) :
    (core.send request).scanRequests = core.scanRequests := by
  rw [scanRequests, core.accepted_send, List.filter_append, ← scanRequests]
  split <;> simp [other]

theorem scanRequests_loadJobs : core.loadJobs.scanRequests = core.scanRequests := by
  rw [loadJobs]
  split
  · rfl
  · exact core.scanRequests_send_other rfl

theorem scanRequests_loadJob : core.loadJob.scanRequests = core.scanRequests := by
  rw [loadJob]
  split
  · exact core.scanRequests_send_other rfl
  · rfl

theorem scanRequests_flush : core.flush.scanRequests = core.scanRequests := by
  cases wanted : core.wanted with
  | none => rcases core.flush_of_unwanted wanted with kept | cleared <;> simp [*, scanRequests]
  | some path =>
      have sent : (core.send (.select path)).scanRequests = core.scanRequests :=
        core.scanRequests_send_other rfl
      rw [core.flush_of_wanted wanted]
      split <;> exact sent

end Core

namespace Intent

/-- What the intents that ask for a scan send. -/
def scanRequest : Intent → List Request
  | .rescan pattern kind => [.rescan pattern kind]
  | .more => [.more]
  | _ => []

/-- Of the scanning requests, a key press sends the one of its intent. -/
theorem scanRequests_run (intent : Intent) (core : Core) :
    (intent.run core).scanRequests =
      core.scanRequests ++ if core.tx.channel = .room then intent.scanRequest else [] := by
  have none (kept : (intent.run core).scanRequests = core.scanRequests)
      (empty : intent.scanRequest = []) :
      (intent.run core).scanRequests =
        core.scanRequests ++ if core.tx.channel = .room then intent.scanRequest else [] := by
    rw [kept, empty, ite_self, List.append_nil]
  cases intent with
  | rescan | more => exact core.scanRequests_send rfl
  | stay | leave | retree => exact none rfl rfl
  | refreshInfo => exact none (core.scanRequests_send_other rfl) rfl
  | loadSlowlog | loadClients | loadCluster | loadPubSub | loadQueues =>
      exact none (core.scanRequests_send_other rfl) rfl
  | listJobs | openQueue | cycle => exact none (Core.scanRequests_loadJobs _) rfl
  | showJob | openJob => exact none (Core.scanRequests_loadJob _) rfl
  | moveQueue delta =>
      rcases core.moveQueue_eq delta with ⟨queueSelected, moved⟩
      apply none _ rfl
      rw [run, moved]
      rfl
  | moveJob delta =>
      rcases core.moveJob_eq delta with ⟨jobSelected, moved⟩
      apply none _ rfl
      rw [run, moved]
      rfl
  | jumpToParent =>
      apply none _ rfl
      rw [run]
      split <;> rfl
  | walk delta =>
      rcases core.walk_eq delta with ⟨selected, selectionDirty, error, walked⟩
      apply none _ rfl
      rw [run, walked]
      rfl
  | fetchFirst | fetchLast | fetchHere => exact none (Core.scanRequests_flush _) rfl

end Intent

namespace App

/-- The scanning requests that are accepted when a key is pressed. -/
theorem scanRequests_handleKey (app : App) (key : KeyEvent) (channel : Channel) :
    (app.act channel fun app => app.handleKey key).2.filter isScanRequest =
      if channel = .room then (app.intent key).scanRequest else [] := by
  let before : App := { app with tx := { channel } }
  change (before.handleKey key).core.scanRequests = _
  rw [before.core_handleKey key, Intent.scanRequests_run]
  rfl

theorem scanRequests_flushSelection (app : App) (channel : Channel) :
    (app.act channel flushSelection).2.filter isScanRequest = [] := by
  let before : App := { app with tx := { channel } }
  change before.flushSelection.core.scanRequests = []
  rw [before.core_flushSelection, Core.scanRequests_flush]
  rfl

end App

end Keylens.Tui
