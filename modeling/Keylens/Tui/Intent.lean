import Keylens.Tui.QueuePane
import Keylens.Tui.Selection

/-!
# What a key press is for

`Core` is the part of the state that requests, cursors and lists live in.  A key
press means one `Intent`, which depends on the mode, the view and what is under
the cursor, but neither on the channel nor on the error that is shown.  Running
the intent on the core is all that the key press does to it.
-/

namespace Keylens.Tui

open Keylens.Library Keylens.Connection Keylens.BullMq Keylens.Ui Keylens.Backend

structure Core where
  tree : KeyTree
  rows : List Row
  selected : Nat
  detail : Option (KeyMeta × KeyValue)
  pendingKey : Option Str
  selectionDirty : Bool
  slowlog : PaneState (List SlowEntry)
  clients : PaneState (List ClientInfo)
  cluster : PaneState ClusterTopology
  pubSub : PaneState (List PubSubChannel)
  level : QueueLevel
  queues : PaneState (List QueueSummary)
  queueSelected : Nat
  jobState : State
  jobs : PaneState (List JobRef)
  jobSelected : Nat
  job : PaneState (Option JobDetail)
  error : Option Str
  tx : Sender

/-- What a key press is for. -/
inductive Intent where
  | stay
  | rescan (pattern : Option Str) (kind : Option Kind)
  | more
  | refreshInfo
  | loadSlowlog | loadClients | loadCluster | loadPubSub | loadQueues
  | listJobs | showJob | openQueue | openJob
  /-- List the jobs of another state. -/
  | cycle (jobState : State)
  | leave (level : QueueLevel)
  | moveQueue (delta : Int)
  | moveJob (delta : Int)
  /-- Open and close branches. -/
  | retree (tree : KeyTree)
  | jumpToParent
  | walk (delta : Int)
  | fetchFirst | fetchLast | fetchHere

namespace Core

/-- The row under the cursor. -/
def selectedRow (core : Core) : Option Row :=
  core.rows[core.selected]?

def selectedQueue (core : Core) : Option QueueSummary :=
  core.queues.ready?.bind fun queues => queues[core.queueSelected]?

def selectedJob (core : Core) : Option JobRef :=
  core.jobs.ready?.bind fun jobs => jobs[core.jobSelected]?

def send (core : Core) (request : Request) : Core :=
  match core.tx.channel with
  | .room => { core with tx := { core.tx with accepted := core.tx.accepted ++ [request] } }
  | .full => core
  | .closed => { core with error := some "worker stopped".toList }

/-- What a pane shows once its data has been asked for. -/
def awaited {α : Type} (core : Core) : PaneState α :=
  if core.tx.channel = .room then .loading else workerBusy

/-- Show another tree, with the cursor on the same path where possible. -/
def rebuild (core : Core) (tree : KeyTree) : Core :=
  let anchor := core.selectedRow.bind fun row =>
    tree.rows.findIdx? fun other => other.path = row.path
  { core with
    tree
    rows := tree.rows
    selected := min (anchor.getD core.selected) (tree.rows.length - 1) }

def touch (core : Core) : Core :=
  { core with selectionDirty := true, error := none }

/-- Fetch the key under the cursor, unless it is the one asked for most
recently. -/
def flush (core : Core) : Core :=
  match core.selectedRow with
  | none => { core with selectionDirty := false }
  | some row =>
      if !row.isKey then
        { core with selectionDirty := false, detail := none, pendingKey := none }
      else if core.pendingKey = some row.path then { core with selectionDirty := false }
      else if core.tx.channel = .room then
        { core.send (.select row.path) with
          pendingKey := some row.path, selectionDirty := false }
      else
        { core.send (.select row.path) with pendingKey := none, selectionDirty := true }

def walk (core : Core) (delta : Int) : Core :=
  if core.rows.isEmpty then core
  else
    let next := App.stepCursor core.selected delta core.rows.length
    if next ≠ core.selected then { core with selected := next }.touch else core

/-- The row of the parent of the key under the cursor. -/
def parentRow (core : Core) : Option Nat :=
  core.selectedRow.bind fun row =>
    (rsplitOnce separator row.path).bind fun (parent, _) =>
      core.rows.findIdx? fun other => other.path = parent

def loadJobs (core : Core) : Core :=
  match core.selectedQueue with
  | none => core
  | some queue =>
      { core.send (.loadJobs queue.name core.jobState) with jobs := core.awaited }

def loadJob (core : Core) : Core :=
  match core.selectedQueue, core.selectedJob with
  | some queue, some job => { core.send (.loadJob queue.name job.id) with job := core.awaited }
  | _, _ => core

def moveQueue (core : Core) (delta : Int) : Core :=
  let len := ((core.queues.ready?).map List.length).getD 0
  if len = 0 then core
  else { core with queueSelected := App.stepCursor core.queueSelected delta len }

def moveJob (core : Core) (delta : Int) : Core :=
  let len := ((core.jobs.ready?).map List.length).getD 0
  if len = 0 then core
  else { core with jobSelected := App.stepCursor core.jobSelected delta len }

end Core

/-- Act on an intent. -/
def Intent.run (intent : Intent) (core : Core) : Core :=
  match intent with
  | .stay => core
  | .rescan pattern kind => core.send (.rescan pattern kind)
  | .more => core.send .more
  | .refreshInfo => core.send .refreshInfo
  | .loadSlowlog => { core.send .loadSlowlog with slowlog := core.awaited }
  | .loadClients => { core.send .loadClients with clients := core.awaited }
  | .loadCluster => { core.send .loadCluster with cluster := core.awaited }
  | .loadPubSub => { core.send .loadPubSub with pubSub := core.awaited }
  | .loadQueues => { core.send .loadQueues with queues := core.awaited }
  | .listJobs => core.loadJobs
  | .showJob => core.loadJob
  | .openQueue => { core with level := .jobs, jobSelected := 0 }.loadJobs
  | .openJob => { core with level := .job }.loadJob
  | .cycle jobState => { core with jobState, jobSelected := 0, level := .jobs }.loadJobs
  | .leave level => { core with level }
  | .moveQueue delta => core.moveQueue delta
  | .moveJob delta => core.moveJob delta
  | .retree tree => core.rebuild tree
  | .jumpToParent =>
      match core.parentRow with
      | some i => { core with selected := i }
      | none => core
  | .walk delta => core.walk delta
  | .fetchFirst => { core with selected := 0 }.touch.flush
  | .fetchLast => { core with selected := core.rows.length - 1 }.touch.flush
  | .fetchHere => core.touch.flush

namespace Core

variable (core : Core)

/-- Sending leaves everything alone but the channel and the error. -/
theorem send_eq (request : Request) :
    ∃ error tx, core.send request = { core with error, tx } ∧
      tx.accepted = core.tx.accepted ++ if core.tx.channel = .room then [request] else [] := by
  rw [send]
  cases channel : core.tx.channel with
  | room => exact ⟨core.error, _, rfl, rfl⟩
  | full => exact ⟨core.error, core.tx, rfl, by simp⟩
  | closed => exact ⟨_, core.tx, rfl, by simp⟩

theorem accepted_send (request : Request) :
    (core.send request).tx.accepted =
      core.tx.accepted ++ if core.tx.channel = .room then [request] else [] := by
  rcases core.send_eq request with ⟨error, tx, sent, accepted⟩
  rw [sent]
  exact accepted

/-- The key under the cursor, unless it is the one asked for most recently. -/
def wanted (core : Core) : Option Str :=
  core.selectedRow.bind fun row =>
    if row.isKey ∧ core.pendingKey ≠ some row.path then some row.path else none

theorem flush_of_wanted {path : Str} (wanted : core.wanted = some path) :
    core.flush =
      if core.tx.channel = .room then
        { core.send (.select path) with pendingKey := some path, selectionDirty := false }
      else
        { core.send (.select path) with pendingKey := none, selectionDirty := true } := by
  rcases Option.bind_eq_some_iff.mp wanted with ⟨row, selected, asked⟩
  split at asked
  next fresh =>
      cases asked
      rw [flush, selected]
      simp only [fresh.1, Bool.not_true, Bool.false_eq_true, if_false, if_neg fresh.2]
  next => cases asked

/-- A flush that asks for nothing shows nothing and waits for nothing, or leaves
both as they are. -/
theorem flush_of_unwanted (unwanted : core.wanted = none) :
    core.flush = { core with selectionDirty := false } ∨
      core.flush = { core with selectionDirty := false, detail := none, pendingKey := none } := by
  rw [flush]
  rw [wanted] at unwanted
  cases selected : core.selectedRow with
  | none => exact .inl rfl
  | some row =>
      rw [selected] at unwanted
      dsimp only
      split
      · exact .inr rfl
      next isKey =>
          split
          · exact .inl rfl
          next fresh =>
              have asked : row.isKey ∧ core.pendingKey ≠ some row.path :=
                ⟨by simpa using isKey, fresh⟩
              rw [Option.bind_some, if_pos asked] at unwanted
              cases unwanted

/-- Without room nothing is asked for, and the cursor is left to be fetched. -/
theorem flush_of_refused {path : Str} (wanted : core.wanted = some path)
    (refused : core.tx.channel ≠ .room) :
    core.flush.selectionDirty = true ∧ core.flush.pendingKey = none := by
  rw [core.flush_of_wanted wanted, if_neg refused]
  exact ⟨rfl, rfl⟩

/-- Flushing leaves everything alone but the selection, the channel and the
error. -/
theorem flush_eq :
    ∃ detail pendingKey selectionDirty error tx,
      core.flush = { core with detail, pendingKey, selectionDirty, error, tx } ∧
        core.tx.accepted <+: tx.accepted := by
  cases wanted : core.wanted with
  | none =>
      rcases core.flush_of_unwanted wanted with kept | cleared
      · exact ⟨_, _, _, _, _, kept, List.prefix_rfl⟩
      · exact ⟨_, _, _, _, _, cleared, List.prefix_rfl⟩
  | some path =>
      rcases core.send_eq (.select path) with ⟨error, tx, sent, accepted⟩
      have grows : core.tx.accepted <+: tx.accepted := by simp [accepted]
      rw [core.flush_of_wanted wanted, sent]
      split
      · exact ⟨_, _, _, _, _, rfl, grows⟩
      · exact ⟨_, _, _, _, _, rfl, grows⟩

/-- Moving through the key list leaves everything alone but the cursor, what is to
be fetched and the error. -/
theorem walk_eq (delta : Int) :
    ∃ selected selectionDirty error,
      core.walk delta = { core with selected, selectionDirty, error } := by
  rw [walk]
  dsimp only
  split
  · exact ⟨_, _, _, rfl⟩
  · split <;> exact ⟨_, _, _, rfl⟩

theorem moveQueue_eq (delta : Int) :
    ∃ queueSelected, core.moveQueue delta = { core with queueSelected } := by
  rw [moveQueue]
  split <;> exact ⟨_, rfl⟩

theorem moveJob_eq (delta : Int) :
    ∃ jobSelected, core.moveJob delta = { core with jobSelected } := by
  rw [moveJob]
  split <;> exact ⟨_, rfl⟩

def selection (core : Core) : Selection where
  pendingKey := core.pendingKey
  detail := core.detail
  selects := core.tx.accepted.filterMap selectKey

theorem selection_send {request : Request} (notSelect : selectKey request = none) :
    (core.send request).selection = core.selection := by
  rw [send]
  cases core.tx.channel <;> simp [selection, notSelect]

theorem selection_loadJobs : core.loadJobs.selection = core.selection := by
  rw [loadJobs]
  split
  · rfl
  · exact core.selection_send rfl

theorem selection_loadJob : core.loadJob.selection = core.selection := by
  rw [loadJob]
  split
  · exact core.selection_send rfl
  · rfl

end Core

namespace Intent

/-- The intents that fetch the key under the cursor. -/
def fetches : Intent → Bool
  | .fetchFirst | .fetchLast | .fetchHere => true
  | _ => false

/-- All other intents leave the selection alone. -/
theorem selection_run {intent : Intent} (other : intent.fetches = false) (core : Core) :
    (intent.run core).selection = core.selection := by
  cases intent with
  | stay | leave | retree => rfl
  | rescan | more | refreshInfo => exact core.selection_send rfl
  | loadSlowlog | loadClients | loadCluster | loadPubSub | loadQueues =>
      exact core.selection_send rfl
  | listJobs | openQueue | cycle => exact Core.selection_loadJobs _
  | showJob | openJob => exact Core.selection_loadJob _
  | moveQueue delta =>
      rcases core.moveQueue_eq delta with ⟨queueSelected, moved⟩
      rw [run, moved]
      rfl
  | moveJob delta =>
      rcases core.moveJob_eq delta with ⟨jobSelected, moved⟩
      rw [run, moved]
      rfl
  | jumpToParent =>
      rw [run]
      split <;> rfl
  | walk delta =>
      rcases core.walk_eq delta with ⟨selected, selectionDirty, error, walked⟩
      rw [run, walked]
      rfl
  | fetchFirst | fetchLast | fetchHere => cases other

end Intent

namespace App

def core (app : App) : Core where
  tree := app.tree
  rows := app.rows
  selected := app.selected
  detail := app.detail
  pendingKey := app.pendingKey
  selectionDirty := app.selectionDirty
  slowlog := app.slowlog
  clients := app.clients
  cluster := app.cluster
  pubSub := app.pubSub
  level := app.level
  queues := app.queues
  queueSelected := app.queueSelected
  jobState := app.jobState
  jobs := app.jobs
  jobSelected := app.jobSelected
  job := app.job
  error := app.error
  tx := app.tx

/-! ## The intent of a key press -/

/-- Open the branch under the cursor, or fetch the key. -/
def openIntent (app : App) : Intent :=
  match app.selectedRow with
  | none => .stay
  | some row => if row.isBranch then .retree (app.tree.toggle row.path).1 else .fetchHere

/-- Collapse an open branch, otherwise jump to the parent. -/
def collapseIntent (app : App) : Intent :=
  match app.selectedRow with
  | none => .stay
  | some row =>
      if row.isBranch && row.expanded then .retree (app.tree.toggle row.path).1
      else .jumpToParent

def treeIntent (app : App) (key : KeyEvent) : Intent :=
  match key.code with
  | .down | .char 'j' => .walk 1
  | .up | .char 'k' => .walk (-1)
  | .pageDown => .walk 10
  | .pageUp => .walk (-10)
  | .home | .char 'g' => .fetchFirst
  | .end' | .char 'G' => .fetchLast
  | .enter | .char ' ' | .right | .char 'l' => app.openIntent
  | .left | .char 'h' => app.collapseIntent
  | _ => .stay

def rescanIntent (app : App) : Intent :=
  .rescan app.pattern app.kindFilter

/-- The keys that are left go to the half that has the focus. -/
def focusIntent (app : App) (key : KeyEvent) : Intent :=
  if app.focus = .value then .stay else app.treeIntent key

def keysViewIntent (app : App) (key : KeyEvent) : Intent :=
  match key.code with
  | .tab => .stay
  | .char '/' => .stay
  | .esc => if app.pattern.isSome then { app with pattern := none }.rescanIntent else .stay
  | .char 't' => { app with kindFilter := nextKind app.kindFilter }.rescanIntent
  | .char 'm' => if app.scanComplete then .stay else .more
  | .char 'E' => if app.tree.total ≤ 5000 then .retree app.tree.expandAll else .stay
  | .char 'C' => .retree app.tree.collapseAll
  | _ => app.focusIntent key

def moveIntent (app : App) (delta : Int) : Intent :=
  match app.level with
  | .queues => .moveQueue delta
  | .jobs => .moveJob delta
  | .job => .stay

def cycleIntent (app : App) (delta : Int) : Intent :=
  if app.level = .queues then .stay else .cycle (nextState app.jobState delta)

def enterIntent (app : App) : Intent :=
  match app.level with
  | .queues => if app.selectedQueue.isSome then .openQueue else .stay
  | .jobs => if app.selectedJob.isSome then .openJob else .stay
  | .job => .stay

def leaveIntent (app : App) : Intent :=
  match app.level with
  | .job => .leave .jobs
  | .jobs => .leave .queues
  | .queues => .stay

def queuesIntent (app : App) (key : KeyEvent) : Intent :=
  match key.code with
  | .down | .char 'j' => app.moveIntent 1
  | .up | .char 'k' => app.moveIntent (-1)
  | .pageDown => app.moveIntent 10
  | .pageUp => app.moveIntent (-10)
  | .home | .char 'g' => app.moveIntent toStart
  | .end' | .char 'G' => app.moveIntent toEnd
  | .char '[' => app.cycleIntent (-1)
  | .char ']' => app.cycleIntent 1
  | .enter | .char ' ' | .right | .char 'l' => app.enterIntent
  | .esc | .left | .char 'h' => app.leaveIntent
  | _ => .stay

def loadIntent (app : App) (force : Bool) : Intent :=
  match app.view with
  | .keys => if force then app.rescanIntent else .stay
  | .stats => .refreshInfo
  | .slowlog => if force || app.slowlog.isIdle then .loadSlowlog else .stay
  | .clients => if force || app.clients.isIdle then .loadClients else .stay
  | .cluster => if force || app.cluster.isIdle then .loadCluster else .stay
  | .pubSub => if force || app.pubSub.isIdle then .loadPubSub else .stay
  | .queues =>
      match app.level with
      | .queues => if force || app.queues.isIdle then .loadQueues else .stay
      | .jobs => .listJobs
      | .job => .showJob

def viewIntent (app : App) (key : KeyEvent) : Intent :=
  match app.view with
  | .keys => app.keysViewIntent key
  | .queues => app.queuesIntent key
  | _ => .stay

def gotoIntent (app : App) (view : View) : Intent :=
  if app.view = view then .stay else { app with view }.loadIntent false

def charIntent (app : App) (key : KeyEvent) (c : Char) : Intent :=
  if c.isDigit then
    match app.viewFromDigit c with
    | some view => app.gotoIntent view
    | none => .stay
  else app.viewIntent key

def normalIntent (app : App) (key : KeyEvent) : Intent :=
  match key.code with
  | .char 'q' => .stay
  | .char '?' => .stay
  | .char 'r' => app.loadIntent true
  | .char c => app.charIntent key c
  | _ => app.viewIntent key

def searchIntent (app : App) (key : KeyEvent) : Intent :=
  match key.code with
  | .enter => { app with pattern := searchPattern app.searchInput }.rescanIntent
  | _ => .stay

def intent (app : App) (key : KeyEvent) : Intent :=
  if key.control ∧ key.code = .char 'c' then .stay
  else
    match app.mode with
    | .help => .stay
    | .search => app.searchIntent key
    | .normal => app.normalIntent key

/-! ## A key press acts on its intent -/

variable (app : App) (key : KeyEvent)

theorem core_send (request : Request) : (app.send request).2.core = app.core.send request := by
  rw [send, Core.send, show app.core.tx = app.tx from rfl]
  cases app.tx.channel <;> rfl

theorem accepted_send (request : Request) :
    (app.send request).1 = decide (app.tx.channel = .room) := by
  rw [send]
  cases app.tx.channel <;> rfl

/-- Asking for the data of a pane. -/
theorem load_fst {α : Type} (request : Request) :
    (app.load (α := α) request).1 = app.core.awaited := by
  rw [load]
  dsimp only
  rw [accepted_send, Core.awaited, show app.core.tx = app.tx from rfl]
  cases app.tx.channel <;> rfl

theorem core_load (α : Type) (request : Request) :
    (app.load (α := α) request).2.core = app.core.send request :=
  app.core_send request

theorem core_rescan : app.rescan.core = app.rescanIntent.run app.core := by
  have sent := app.core_send (.rescan app.pattern app.kindFilter)
  rw [rescan]
  dsimp only
  split <;> exact sent

theorem core_more :
    app.more.core = Intent.run (if app.scanComplete then .stay else .more) app.core := by
  rw [more]
  split
  · rfl
  · have sent := app.core_send .more
    dsimp only
    split <;> exact sent

theorem core_fetch (path : Str) :
    (app.fetch path).core =
      if app.pendingKey = some path then app.core
      else if app.tx.channel = .room then
        { app.core.send (.select path) with pendingKey := some path }
      else
        { app.core.send (.select path) with pendingKey := none, selectionDirty := true } := by
  rw [fetch]
  split
  · rfl
  · cases channel : app.tx.channel <;> simp [send, Core.send, core, channel]

theorem core_flushSelection : app.flushSelection.core = app.core.flush := by
  rw [flushSelection, Core.flush]
  dsimp only
  rw [show ({ app with selectionDirty := false } : App).selectedRow = app.selectedRow from rfl,
    show app.core.selectedRow = app.selectedRow from rfl]
  cases app.selectedRow with
  | none => rfl
  | some row =>
      dsimp only
      split
      · rfl
      · rw [core_fetch]
        cases channel : app.tx.channel <;> simp [Core.send, core, channel]

theorem core_openSelected : app.openSelected.core = app.openIntent.run app.core := by
  rw [openSelected, openIntent]
  cases app.selectedRow with
  | none => rfl
  | some row =>
      dsimp only
      split
      · rfl
      · exact core_flushSelection _

theorem core_moveCursor (delta : Int) : (app.moveCursor delta).core = app.core.walk delta := by
  rw [moveCursor, Core.walk, show app.core.rows = app.rows from rfl,
    show app.core.selected = app.selected from rfl]
  split
  · rfl
  · dsimp only
    split <;> rfl

theorem core_collapseOrParent : app.collapseOrParent.core = app.collapseIntent.run app.core := by
  rw [collapseOrParent, collapseIntent]
  cases selected : app.selectedRow with
  | none => rfl
  | some row =>
      dsimp only
      split
      · rfl
      · have parent : app.core.parentRow =
            (rsplitOnce separator row.path).bind fun (parent, _) =>
              app.rows.findIdx? fun other => other.path = parent := by
          rw [Core.parentRow, show app.core.selectedRow = app.selectedRow from rfl, selected]
          rfl
        rw [Intent.run, parent]
        dsimp only
        cases (rsplitOnce separator row.path).bind fun split =>
            app.rows.findIdx? fun other => other.path = split.1 with
        | none => rfl
        | some i => rfl

theorem core_handleTreeKey : (app.handleTreeKey key).core = (app.treeIntent key).run app.core := by
  rw [handleTreeKey]
  split
  case h_1 code | h_2 code | h_3 code | h_4 code | h_5 code | h_6 code =>
      rw [treeIntent, code]
      exact app.core_moveCursor _
  case h_7 code | h_8 code | h_9 code | h_10 code =>
      rw [treeIntent, code]
      exact core_flushSelection _
  case h_11 code | h_12 code | h_13 code | h_14 code =>
      rw [treeIntent, code]
      exact app.core_openSelected
  case h_15 code | h_16 code =>
      rw [treeIntent, code]
      exact app.core_collapseOrParent
  case h_17 =>
      rw [treeIntent]
      split
      case h_17 => rfl
      all_goals contradiction

theorem core_expandAll :
    app.expandAll.core =
      Intent.run (if app.tree.total ≤ 5000 then .retree app.tree.expandAll else .stay)
        app.core := by
  rw [expandAll]
  split <;> rfl

theorem core_handleValueKey : (app.handleValueKey key).core = app.core := by
  rw [handleValueKey]
  split <;> rfl

theorem core_handlePaneKey : (app.handlePaneKey key).core = app.core := by
  rw [handlePaneKey]
  split <;> rfl

theorem core_handleKeysViewKey :
    (app.handleKeysViewKey key).core = (app.keysViewIntent key).run app.core := by
  rw [handleKeysViewKey]
  split
  case h_1 code | h_2 code =>
      rw [keysViewIntent, code]
      rfl
  case h_3 code =>
      rw [keysViewIntent, code]
      dsimp only
      split
      · exact core_rescan _
      · rfl
  case h_4 code =>
      rw [keysViewIntent, code]
      exact core_rescan _
  case h_5 code =>
      rw [keysViewIntent, code]
      exact app.core_more
  case h_6 code =>
      rw [keysViewIntent, code]
      exact app.core_expandAll
  case h_7 code =>
      rw [keysViewIntent, code]
      rfl
  case h_8 =>
      have focused : (if app.focus = .value then app.handleValueKey key
          else app.handleTreeKey key).core = (app.focusIntent key).run app.core := by
        rw [focusIntent]
        split
        · exact app.core_handleValueKey key
        · exact app.core_handleTreeKey key
      rw [focused, keysViewIntent]
      split
      case h_8 => rfl
      all_goals contradiction

/-! ## The queue view -/

theorem core_loadJobs : app.loadJobs.core = app.core.loadJobs := by
  rw [loadJobs, Core.loadJobs, show app.core.selectedQueue = app.selectedQueue from rfl]
  cases app.selectedQueue with
  | none => rfl
  | some queue =>
      dsimp only
      rw [load_fst, ← core_load _ (List JobRef)]
      rfl

theorem core_loadJob : app.loadJob.core = app.core.loadJob := by
  rw [loadJob, Core.loadJob, show app.core.selectedQueue = app.selectedQueue from rfl,
    show app.core.selectedJob = app.selectedJob from rfl]
  cases app.selectedQueue with
  | none => rfl
  | some queue =>
      cases app.selectedJob with
      | none => rfl
      | some job =>
          dsimp only
          rw [load_fst, ← core_load _ (Option JobDetail)]
          rfl

theorem core_moveQueueCursor (delta : Int) :
    (app.moveQueueCursor delta).core = (app.moveIntent delta).run app.core := by
  rw [moveQueueCursor]
  split
  next level =>
      rw [show app.moveIntent delta = .moveQueue delta by rw [moveIntent, level]]
      rw [Intent.run, Core.moveQueue, show app.core.queues = app.queues from rfl]
      dsimp only
      split <;> rfl
  next level =>
      rw [show app.moveIntent delta = .moveJob delta by rw [moveIntent, level]]
      rw [Intent.run, Core.moveJob, show app.core.jobs = app.jobs from rfl]
      dsimp only
      split <;> rfl
  next level =>
      rw [show app.moveIntent delta = .stay by rw [moveIntent, level]]
      split <;> rfl

theorem core_cycleState (delta : Int) :
    (app.cycleState delta).core = (app.cycleIntent delta).run app.core := by
  rw [cycleState, cycleIntent]
  split
  · rfl
  · exact core_loadJobs _

theorem core_enterLevel : app.enterLevel.core = app.enterIntent.run app.core := by
  rw [enterLevel, enterIntent]
  cases app.level with
  | queues =>
      dsimp only
      split
      · exact core_loadJobs _
      · rfl
  | jobs =>
      dsimp only
      split
      · exact core_loadJob _
      · rfl
  | job => rfl

theorem core_leaveLevel : app.leaveLevel.core = app.leaveIntent.run app.core := by
  rw [leaveLevel, leaveIntent]
  cases app.level <;> rfl

theorem core_handleQueuesKey :
    (app.handleQueuesKey key).core = (app.queuesIntent key).run app.core := by
  rw [handleQueuesKey]
  split
  case h_11 code | h_12 code =>
      rw [queuesIntent, code]
      exact app.core_cycleState _
  case h_13 code | h_14 code | h_15 code | h_16 code =>
      rw [queuesIntent, code]
      exact app.core_enterLevel
  case h_17 code | h_18 code | h_19 code =>
      rw [queuesIntent, code]
      exact app.core_leaveLevel
  case h_20 =>
      rw [queuesIntent]
      split
      case h_20 => rfl
      all_goals contradiction
  all_goals
      next code =>
        rw [queuesIntent, code]
        exact app.core_moveQueueCursor _

/-! ## All views -/

theorem core_loadView (force : Bool) :
    (app.loadView force).core = (app.loadIntent force).run app.core := by
  rw [loadView, loadIntent]
  cases app.view with
  | keys =>
      dsimp only
      split
      · exact app.core_rescan
      · rfl
  | stats => exact app.core_send .refreshInfo
  | slowlog =>
      dsimp only
      split
      · rw [load_fst, Intent.run, ← core_load _ (List SlowEntry)]
        rfl
      · rfl
  | clients =>
      dsimp only
      split
      · rw [load_fst, Intent.run, ← core_load _ (List ClientInfo)]
        rfl
      · rfl
  | cluster =>
      dsimp only
      split
      · rw [load_fst, Intent.run, ← core_load _ ClusterTopology]
        rfl
      · rfl
  | pubSub =>
      dsimp only
      split
      · rw [load_fst, Intent.run, ← core_load _ (List PubSubChannel)]
        rfl
      · rfl
  | queues =>
      cases app.level with
      | queues =>
          dsimp only
          split
          · rw [load_fst, Intent.run, ← core_load _ (List QueueSummary)]
            rfl
          · rfl
      | jobs => exact app.core_loadJobs
      | job => exact app.core_loadJob

theorem core_goto (view : View) : (app.goto view).core = (app.gotoIntent view).run app.core := by
  rw [goto, gotoIntent]
  split
  · rfl
  · exact core_loadView { app with view, paneScroll := 0 } false

theorem core_handleViewKey : (app.handleViewKey key).core = (app.viewIntent key).run app.core := by
  rw [handleViewKey, viewIntent]
  cases app.view with
  | keys => exact app.core_handleKeysViewKey key
  | queues => exact app.core_handleQueuesKey key
  | stats | slowlog | clients | cluster | pubSub => exact app.core_handlePaneKey key

/-- Every other character is looked up as a digit first. -/
theorem normalIntent_of_char {c : Char} (code : key.code = .char c)
    (notQuit : c ≠ 'q') (notHelp : c ≠ '?') (notReload : c ≠ 'r') :
    app.normalIntent key = app.charIntent key c := by
  rw [normalIntent]
  split
  case h_4 again =>
      cases code.symm.trans again
      rfl
  case h_1 typed | h_2 typed | h_3 typed =>
      cases code.symm.trans typed
      contradiction
  case h_5 untyped => exact (untyped c code).elim

/-- A key that is no character is for the view. -/
theorem normalIntent_of_untyped (untyped : ∀ c, key.code ≠ .char c) :
    app.normalIntent key = app.viewIntent key := by
  rw [normalIntent]
  split
  case h_1 typed | h_2 typed | h_3 typed => exact (untyped _ typed).elim
  case h_4 c _ _ _ typed => exact (untyped c typed).elim
  case h_5 => rfl

theorem core_handleNormalKey :
    (app.handleNormalKey key).core = (app.normalIntent key).run app.core := by
  rw [handleNormalKey]
  split
  case h_1 code | h_2 code =>
      rw [normalIntent, code]
      rfl
  case h_3 code =>
      rw [normalIntent, code]
      exact app.core_loadView true
  case h_4 c notQuit notHelp notReload code =>
      rw [app.normalIntent_of_char key code notQuit notHelp notReload, charIntent]
      split
      · cases app.viewFromDigit c with
        | none => rfl
        | some view => exact app.core_goto view
      · exact app.core_handleViewKey key
  case h_5 untyped =>
      rw [app.normalIntent_of_untyped key untyped]
      exact app.core_handleViewKey key

theorem core_handleSearchKey :
    (app.handleSearchKey key).core = (app.searchIntent key).run app.core := by
  rw [handleSearchKey]
  split
  case h_2 code =>
      rw [searchIntent, code]
      exact core_rescan _
  case h_1 code | h_3 code =>
      rw [searchIntent, code]
      rfl
  case h_4 code =>
      rw [searchIntent, code]
      rfl
  case h_5 =>
      rw [searchIntent]
      split
      · contradiction
      · rfl

/-- What a key press does to the core is to act on its intent. -/
theorem core_handleKey : (app.handleKey key).core = (app.intent key).run app.core := by
  rw [handleKey]
  split
  next quits =>
      rw [show app.intent key = .stay by rw [intent, if_pos quits]]
      rfl
  next quits =>
      dsimp only
      split
      next mode =>
          rw [show app.intent key = .stay by rw [intent, if_neg quits, show app.mode = _ from mode]]
          rfl
      next mode =>
          rw [show app.intent key = app.searchIntent key by
            rw [intent, if_neg quits, show app.mode = _ from mode]]
          exact core_handleSearchKey { app with splash := false } key
      next mode =>
          rw [show app.intent key = app.normalIntent key by
            rw [intent, if_neg quits, show app.mode = _ from mode]]
          exact core_handleNormalKey { app with splash := false } key

end App

end Keylens.Tui
