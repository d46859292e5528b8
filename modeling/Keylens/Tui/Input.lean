import Keylens.Tui.State

/-!
# Input handling
-/

namespace Keylens.Tui.App

open Keylens.Library Keylens.Connection Keylens.BullMq Keylens.Ui Keylens.Backend

/-- `saturating_add` on the 16 bits of a scroll offset. -/
def scrollAdd (offset lines : Nat) : Nat :=
  min 65535 (offset + lines)

/-- A cursor moved within a list of `len` items. -/
def stepCursor (cursor : Nat) (delta : Int) (len : Nat) : Nat :=
  (max 0 (min (cursor + delta) (len - 1 : Nat))).toNat

/-- Far enough to reach either end of a list. -/
def toStart : Int := -(2 ^ 62)

def toEnd : Int := 2 ^ 62 - 1

/-! ## The key list -/

/-- Note that the cursor moved, without fetching yet. -/
def touchSelection (app : App) : App :=
  { app with selectionDirty := true, error := none }

/-- Ask for a key, unless it is the one asked for most recently. -/
def fetch (app : App) (path : Str) : App :=
  if app.pendingKey = some path then app
  else
    let (accepted, app) := ({ app with pendingKey := some path } : App).send (.select path)
    if accepted then app
    -- The worker is saturated: left dirty, so that the next idle tick retries.
    else { app with pendingKey := none, selectionDirty := true }

/-- Fetch the key under the cursor. -/
def flushSelection (app : App) : App :=
  let app := { app with selectionDirty := false }
  match app.selectedRow with
  | none => app
  | some row =>
      if !row.isKey then { app with detail := none, stream := none, pendingKey := none }
      else app.fetch row.path

def rescan (app : App) : App :=
  let (accepted, app) := app.send (.rescan app.pattern app.kindFilter)
  if accepted then
    { app with loading := true, status := "scanning…".toList, scanComplete := false }
  else { app with loading := false, status := "worker busy — press r to retry".toList }

/-- Continue the scan. -/
def more (app : App) : App :=
  if app.scanComplete then app
  else
    let (accepted, app) := app.send .more
    if accepted then { app with loading := true }
    else { app with loading := false, status := "worker busy — press m to retry".toList }

def moveCursor (app : App) (delta : Int) : App :=
  if app.rows.isEmpty then app
  else
    let next := stepCursor app.selected delta app.rows.length
    if next ≠ app.selected then ({ app with selected := next } : App).touchSelection else app

/-- Collapse an open branch, otherwise jump to the parent. -/
def collapseOrParent (app : App) : App :=
  match app.selectedRow with
  | none => app
  | some row =>
      if row.isBranch && row.expanded then
        ({ app with tree := (app.tree.toggle row.path).1 } : App).rebuild
      else
        let parent := (rsplitOnce separator row.path).bind fun (parent, _) =>
          app.rows.findIdx? fun other => other.path = parent
        match parent with
        | some i => { app with selected := i }
        | none => app

def handleValueKey (app : App) (key : KeyEvent) : App :=
  match key.code with
  | .down | .char 'j' => { app with detailScroll := scrollAdd app.detailScroll 1 }
  | .up | .char 'k' => { app with detailScroll := app.detailScroll - 1 }
  | .pageDown => { app with detailScroll := scrollAdd app.detailScroll 20 }
  | .pageUp => { app with detailScroll := app.detailScroll - 20 }
  | .home => { app with detailScroll := 0 }
  | _ => app

/-- Open the branch under the cursor, or fetch the key. -/
def openSelected (app : App) : App :=
  match app.selectedRow with
  | none => app
  | some row =>
      if row.isBranch then
        ({ app with tree := (app.tree.toggle row.path).1 } : App).rebuild
      else app.touchSelection.flushSelection

/-- The keys that are left while the tree has the focus. -/
def handleTreeKey (app : App) (key : KeyEvent) : App :=
  match key.code with
  | .down | .char 'j' => app.moveCursor 1
  | .up | .char 'k' => app.moveCursor (-1)
  | .pageDown => app.moveCursor 10
  | .pageUp => app.moveCursor (-10)
  | .home | .char 'g' => ({ app with selected := 0 } : App).touchSelection.flushSelection
  | .end' | .char 'G' =>
      ({ app with selected := app.rows.length - 1 } : App).touchSelection.flushSelection
  | .enter | .char ' ' | .right | .char 'l' => app.openSelected
  | .left | .char 'h' => app.collapseOrParent
  | _ => app

def expandAll (app : App) : App :=
  if app.tree.total ≤ 5000 then ({ app with tree := app.tree.expandAll } : App).rebuild
  else { app with status := "too many keys to expand all - filter first".toList }

/-- The type filter after the present one. -/
def nextKind (kind : Option Kind) : Option Kind :=
  (kindCycle[((kindCycle.idxOf? kind).getD 0 + 1) % kindCycle.length]?).getD none

def handleKeysViewKey (app : App) (key : KeyEvent) : App :=
  match key.code with
  | .tab => { app with focus := if app.focus = .tree then .value else .tree }
  | .char '/' => { app with mode := .search, searchInput := app.pattern.getD [] }
  | .esc =>
      if app.pattern.isSome then
        ({ app with pattern := none, searchInput := [] } : App).rescan
      else app
  | .char 't' => ({ app with kindFilter := nextKind app.kindFilter } : App).rescan
  | .char 'm' => app.more
  | .char 'E' => app.expandAll
  | .char 'C' => ({ app with tree := app.tree.collapseAll } : App).rebuild
  | _ => if app.focus = .value then app.handleValueKey key else app.handleTreeKey key

/-! ## The queue view -/

def loadJobs (app : App) : App :=
  match app.selectedQueue with
  | none => app
  | some queue =>
      let (jobs, app) := app.load (.loadJobs queue.name app.jobState)
      { app with jobs }

def loadJob (app : App) : App :=
  match app.selectedQueue, app.selectedJob with
  | some queue, some job =>
      let (job, app) := app.load (.loadJob queue.name job.id)
      { app with job }
  | _, _ => app

def moveQueueCursor (app : App) (delta : Int) : App :=
  match app.level with
  | .queues =>
      let len := ((app.queues.ready?).map List.length).getD 0
      if len = 0 then app
      else { app with queueSelected := stepCursor app.queueSelected delta len }
  | .jobs =>
      let len := ((app.jobs.ready?).map List.length).getD 0
      if len = 0 then app
      else { app with jobSelected := stepCursor app.jobSelected delta len }
  -- The job detail is scrolled, not stepped through.
  | .job =>
      if 0 < delta then
        { app with paneScroll := scrollAdd app.paneScroll (min delta 20).toNat }
      else { app with paneScroll := app.paneScroll - (min (-delta) 20).toNat }

/-- The state some steps further in the cycle. -/
def nextState (state : State) (delta : Int) : State :=
  let i := (State.all.idxOf? state).getD 0
  let next := ((i + delta) % State.all.length).toNat
  (State.all[next]?).getD state

/-- Cycle which state's jobs are listed. -/
def cycleState (app : App) (delta : Int) : App :=
  if app.level = .queues then app
  else
    ({ app with
        jobState := nextState app.jobState delta
        jobSelected := 0
        level := .jobs } : App).loadJobs

/-- Go one level deeper. -/
def enterLevel (app : App) : App :=
  match app.level with
  | .queues =>
      if app.selectedQueue.isSome then
        ({ app with level := .jobs, jobSelected := 0 } : App).loadJobs
      else app
  | .jobs =>
      if app.selectedJob.isSome then
        ({ app with level := .job, paneScroll := 0 } : App).loadJob
      else app
  | .job => app

/-- Go one level back. -/
def leaveLevel (app : App) : App :=
  match app.level with
  | .job => { app with level := .jobs, paneScroll := 0 }
  | .jobs => { app with level := .queues, paneScroll := 0 }
  | .queues => app

def handleQueuesKey (app : App) (key : KeyEvent) : App :=
  match key.code with
  | .down | .char 'j' => app.moveQueueCursor 1
  | .up | .char 'k' => app.moveQueueCursor (-1)
  | .pageDown => app.moveQueueCursor 10
  | .pageUp => app.moveQueueCursor (-10)
  | .home | .char 'g' => app.moveQueueCursor toStart
  | .end' | .char 'G' => app.moveQueueCursor toEnd
  | .char '[' => app.cycleState (-1)
  | .char ']' => app.cycleState 1
  | .enter | .char ' ' | .right | .char 'l' => app.enterLevel
  | .esc | .left | .char 'h' => app.leaveLevel
  | _ => app

/-! ## All views -/

/-- Load the current view's data; `force` reloads even when it is already
populated. -/
def loadView (app : App) (force : Bool) : App :=
  match app.view with
  | .keys => if force then app.rescan else app
  | .stats => (app.send .refreshInfo).2
  | .slowlog =>
      if force || app.slowlog.isIdle then
        let (slowlog, app) := app.load .loadSlowlog
        { app with slowlog }
      else app
  | .clients =>
      if force || app.clients.isIdle then
        let (clients, app) := app.load .loadClients
        { app with clients }
      else app
  | .cluster =>
      if force || app.cluster.isIdle then
        let (cluster, app) := app.load .loadCluster
        { app with cluster }
      else app
  | .pubSub =>
      if force || app.pubSub.isIdle then
        let (pubSub, app) := app.load .loadPubSub
        { app with pubSub }
      else app
  | .queues =>
      match app.level with
      | .queues =>
          if force || app.queues.isIdle then
            let (queues, app) := app.load .loadQueues
            { app with queues }
          else app
      | .jobs => app.loadJobs
      | .job => app.loadJob

/-- Switch tabs, loading the target pane the first time it is opened. -/
def goto (app : App) (view : View) : App :=
  if app.view = view then app
  else ({ app with view, paneScroll := 0 } : App).loadView false

/-- Scrolling for the server panes. -/
def handlePaneKey (app : App) (key : KeyEvent) : App :=
  match key.code with
  | .down | .char 'j' => { app with paneScroll := scrollAdd app.paneScroll 1 }
  | .up | .char 'k' => { app with paneScroll := app.paneScroll - 1 }
  | .pageDown => { app with paneScroll := scrollAdd app.paneScroll 20 }
  | .pageUp => { app with paneScroll := app.paneScroll - 20 }
  | .home | .char 'g' => { app with paneScroll := 0 }
  | _ => app

/-- Keys of the current view. -/
def handleViewKey (app : App) (key : KeyEvent) : App :=
  match app.view with
  | .keys => app.handleKeysViewKey key
  | .queues => app.handleQueuesKey key
  | _ => app.handlePaneKey key

/-- Keys that mean the same thing in every view come first. -/
def handleNormalKey (app : App) (key : KeyEvent) : App :=
  match key.code with
  | .char 'q' => { app with quit := true }
  | .char '?' => { app with mode := .help }
  | .char 'r' => app.loadView true
  | .char c =>
      if c.isDigit then
        match app.viewFromDigit c with
        | some view => app.goto view
        | none => app
      else app.handleViewKey key
  | _ => app.handleViewKey key

/-- The pattern of a search; a bare term becomes a substring match. -/
def searchPattern (input : Str) : Option Str :=
  let raw := trim input
  if raw = [] then none
  else if raw.any fun c => c = '*' || c = '?' || c = '[' then some raw
  else some ("*".toList ++ raw ++ "*".toList)

def handleSearchKey (app : App) (key : KeyEvent) : App :=
  match key.code with
  | .esc => { app with mode := .normal, searchInput := app.pattern.getD [] }
  | .enter =>
      ({ app with mode := .normal, pattern := searchPattern app.searchInput } : App).rescan
  | .backspace => { app with searchInput := app.searchInput.dropLast }
  | .char c => { app with searchInput := app.searchInput ++ [c] }
  | _ => app

def handleKey (app : App) (key : KeyEvent) : App :=
  if key.control ∧ key.code = .char 'c' then { app with quit := true }
  else
    let app := { app with splash := false }
    match app.mode with
    | .help => { app with mode := .normal }
    | .search => app.handleSearchKey key
    | .normal => app.handleNormalKey key

end Keylens.Tui.App
