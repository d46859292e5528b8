import Keylens.Tui.Apply
import Keylens.Tui.ScanKeys
import Keylens.Connection.Redis
import Keylens.Library.Runs
import Keylens.Backend.Scan

/-!
# Whether the displayed filter is in force

The app changes the filter that it displays before it asks for the scan with that
filter, and the channel may refuse to take the request.  The worker has a filter of
its own, from the last `Rescan` it has handled.
-/

namespace Keylens.Tui

open Keylens.Library Keylens.Connection Keylens.BullMq Keylens.Ui Keylens.Backend

/-- A key pattern and a type. -/
abbrev ScanFilter := Option Str × Option Kind

/-- The filter that is displayed. -/
def App.filter (app : App) : ScanFilter :=
  (app.pattern, app.kindFilter)

/-- The app, the worker's scanner and the messages between them. -/
structure Filtering where
  app : App
  worker : Worker := {}
  /-- Accepted requests that the worker has not handled yet, oldest first. -/
  requests : List Request := [.detect, .rescan none none]
  /-- The answers to scanning requests that are on their way, oldest first. -/
  updates : List Update := []
  /-- The filter of the last `Rescan` that the worker has handled. -/
  processed : Option ScanFilter := none
  /-- Since the last `Rescan` that was accepted, one was refused that changed the
  filter. -/
  drifted : Bool := false

inductive FilteringInput where
  | key (event : KeyEvent) (channel : Channel)
  | flush (channel : Channel)
  /-- The worker handles the oldest request. -/
  | handle (scene : Scene)
  /-- The oldest answer to a scanning request arrives. -/
  | arrive
  /-- Any other update arrives. -/
  | other (update : Update)

namespace Filtering

def act (state : Filtering) (channel : Channel) (action : App → App) : Filtering :=
  let (app, accepted) := state.app.act channel action
  { state with app, requests := state.requests ++ accepted }

/-- Whether the displayed filter has drifted from the one asked for, after a key
press. -/
def drifts (state : Filtering) (channel : Channel) : Intent → Bool
  | .rescan pattern kind =>
      if channel = .room then false else state.drifted || (pattern, kind) ≠ state.app.filter
  | _ => state.drifted

/-- The worker has answered a scanning request. -/
def answer (state : Filtering) (result : Worker × Update) : Filtering :=
  { state with worker := result.1, updates := state.updates ++ [result.2] }

def step (state : Filtering) : FilteringInput → Filtering
  | .key event channel =>
      { state.act channel fun app => app.handleKey event with
        drifted := state.drifts channel (state.app.intent event) }
  | .flush channel => state.act channel App.flushSelection
  | .handle scene =>
      match state.requests with
      | .rescan pattern kind :: requests =>
          { state with requests, processed := some (pattern, kind) }.answer
            (state.worker.rescan scene pattern kind)
      | .more :: requests => { state with requests }.answer (state.worker.more scene)
      -- The answers to other requests are among the other updates.
      | _ :: requests => { state with requests }
      | [] => state
  | .arrive =>
      match state.updates with
      | update :: updates => { state with app := state.app.apply update, updates }
      | [] => state
  | .other update => { state with app := state.app.apply update }

/-- No accepted request is unanswered. -/
def Quiet (state : Filtering) : Prop :=
  state.requests = [] ∧ state.updates = []

end Filtering

/-! ## The filter of the worker -/

/-- The filter that the worker scans with. -/
def workerFilter (worker : Worker) : ScanFilter :=
  (worker.pattern, worker.kind)

theorem workerFilter_gather (worker : Worker) (left : Nat) (keys : List Str) (pages : Nat) :
    workerFilter (worker.gather left keys pages).2 = workerFilter worker := by
  induction left generalizing worker keys pages with
  | zero => rfl
  | succ left ih =>
      rw [Worker.gather]
      split
      next =>
          split
          next => rfl
          next scanner _ =>
              split
              next page scanner _ => exact ih { worker with scanner := some scanner } _ _
              next => rfl
              next => rfl
      next => rfl

theorem workerFilter_scanBatch (worker : Worker) (conn : Conn) (reset : Bool) :
    workerFilter (worker.scanBatch conn reset).1 = workerFilter worker := by
  have gathered := workerFilter_gather worker maxPagesPerBatch [] 0
  rw [Worker.scanBatch]
  split
  next error next result =>
      rw [result] at gathered
      exact gathered
  next keys pages next result =>
      rw [result] at gathered
      exact gathered

/-! ## The filter that is due -/

/-- The filter of the last `Rescan` among some requests, if there is one. -/
def filterAfter (filter : ScanFilter) (requests : List Request) : ScanFilter :=
  requests.foldl (fun filter request =>
    match request with
    | .rescan pattern kind => (pattern, kind)
    | _ => filter) filter

theorem filterAfter_append (filter : ScanFilter) (front back : List Request) :
    filterAfter filter (front ++ back) = filterAfter (filterAfter filter front) back :=
  List.foldl_append

/-- Only the scanning requests matter. -/
theorem filterAfter_filter (filter : ScanFilter) (requests : List Request) :
    filterAfter filter (requests.filter isScanRequest) = filterAfter filter requests := by
  induction requests generalizing filter with
  | nil => rfl
  | cons request requests ih =>
      cases request with
      | rescan pattern kind => exact ih (pattern, kind)
      | _ => exact ih filter

namespace App

variable (app : App)

theorem filter_rescan : app.rescan.filter = app.filter := by
  rw [rescan, send]
  cases app.tx.channel <;> rfl

theorem filter_more : app.more.filter = app.filter := by
  rw [more]
  split
  · rfl
  · rw [send]
    cases app.tx.channel <;> rfl

/-- What a key press does to the displayed filter. -/
theorem filter_handleKey (key : KeyEvent) :
    (app.handleKey key).filter =
      match app.intent key with
      | .rescan pattern kind => (pattern, kind)
      | _ => app.filter := by
  have scans := app.scans_handleKey key
  have viewed {other : App} (view : other.scanView = app.scanView) : other.filter = app.filter :=
    congrArg (fun view => (view.1, view.2.1)) view
  generalize app.handleKey key = after at scans ⊢
  generalize app.intent key = intent at scans ⊢
  cases scans with
  | rescan scanned channel => exact scanned.filter_rescan
  | more scanned view channel incomplete => exact scanned.filter_more.trans (viewed view)
  | keep other view => cases intent <;> first | exact viewed view | cases other

end App

namespace Filtering

variable {state : Filtering}

/-- The filter that will be in force once the accepted requests are handled. -/
def due (state : Filtering) : ScanFilter :=
  filterAfter (workerFilter state.worker) state.requests

/-- The displayed filter is due, unless it has drifted, and the worker scans with the
filter of the last `Rescan` it has handled. -/
structure Tracks (state : Filtering) : Prop where
  displayed : state.drifted = false → state.app.filter = state.due
  processed : ∀ filter, state.processed = some filter → workerFilter state.worker = filter

theorem due_act (state : Filtering) (channel : Channel) (action : App → App) :
    (state.act channel action).due =
      filterAfter state.due ((state.app.act channel action).2.filter isScanRequest) := by
  rw [due, filterAfter_filter]
  exact filterAfter_append _ _ _

theorem Tracks.with_app (tracks : state.Tracks) {app : App} (same : app.filter = state.app.filter)
    (updates : List Update) : { state with app, updates }.Tracks where
  displayed steady := same.trans (tracks.displayed steady)
  processed := tracks.processed

theorem Tracks.key (tracks : state.Tracks) (event : KeyEvent) (channel : Channel) :
    (state.step (.key event channel)).Tracks where
  displayed := by
    let before : App := { state.app with tx := { channel } }
    have displayed : (state.step (.key event channel)).app.filter =
        (match state.app.intent event with
        | .rescan pattern kind => (pattern, kind)
        | _ => state.app.filter) := before.filter_handleKey event
    have due : (state.step (.key event channel)).due =
        filterAfter state.due
          (if channel = .room then (state.app.intent event).scanRequest else []) := by
      rw [← state.app.scanRequests_handleKey event channel]
      exact due_act state channel fun app => app.handleKey event
    have drifted : (state.step (.key event channel)).drifted =
        state.drifts channel (state.app.intent event) := rfl
    rw [displayed, due, drifted]
    generalize state.app.intent event = intent
    cases intent with
    | rescan pattern kind =>
        rw [drifts]
        by_cases room : channel = .room
        · intro _
          rw [if_pos room]
          rfl
        · rw [if_neg room, if_neg room]
          intro steady
          rw [Bool.or_eq_false_iff, decide_eq_false_iff_not, not_not] at steady
          exact steady.2.trans (tracks.displayed steady.1)
    | _ =>
        intro steady
        refine (tracks.displayed steady).trans ?_
        split <;> rfl
  processed := tracks.processed

theorem Tracks.handle (tracks : state.Tracks) (scene : Scene) :
    (state.step (.handle scene)).Tracks := by
  rw [step]
  split
  next pattern kind requests queued =>
      have scanned : workerFilter (state.worker.rescan scene pattern kind).1 = (pattern, kind) :=
        workerFilter_scanBatch _ _ _
      constructor
      · intro steady
        rw [due]
        change state.app.filter =
          filterAfter (workerFilter (state.worker.rescan scene pattern kind).1) requests
        rw [scanned, tracks.displayed steady, due, queued]
        rfl
      · rintro filter ⟨⟩
        exact scanned
  next requests queued =>
      have scanned : workerFilter (state.worker.more scene).1 = workerFilter state.worker :=
        workerFilter_scanBatch _ _ _
      constructor
      · intro steady
        change state.app.filter = filterAfter (workerFilter (state.worker.more scene).1) requests
        rw [scanned, tracks.displayed steady, due, queued]
        rfl
      · intro filter isFilter
        exact scanned.trans (tracks.processed filter isFilter)
  next request requests notRescan notMore queued =>
      refine ⟨?_, tracks.processed⟩
      intro steady
      have skipped : state.due = filterAfter (workerFilter state.worker) requests := by
        rw [due, queued]
        cases request with
        | rescan pattern kind => exact absurd rfl (notRescan pattern kind)
        | _ => rfl
      exact (tracks.displayed steady).trans skipped
  next => exact tracks

theorem filter_apply (app : App) (update : Update) : (app.apply update).filter = app.filter := by
  cases update with
  | batch keys reset complete scannedPages => cases reset <;> rfl
  | detail keyMeta value stream =>
      rw [App.apply, App.applyDetail]
      split <;> rfl
  | jobs jobState data =>
      rw [App.apply, App.applyJobs]
      split <;> rfl
  | _ => rfl

theorem Tracks.step (tracks : state.Tracks) (input : FilteringInput) :
    (state.step input).Tracks := by
  cases input with
  | key event channel => exact tracks.key event channel
  | flush channel =>
      let before : App := { state.app with tx := { channel } }
      have same : before.flushSelection.filter = state.app.filter :=
        congrArg (fun view => (view.1, view.2.1)) before.scanView_flushSelection
      have due : (state.act channel App.flushSelection).due = state.due := by
        rw [due_act, App.scanRequests_flushSelection]
        rfl
      constructor
      · intro steady
        exact same.trans ((tracks.displayed steady).trans due.symm)
      · exact tracks.processed
  | handle scene => exact tracks.handle scene
  | arrive =>
      rw [Filtering.step]
      split
      next update updates _ => exact tracks.with_app (filter_apply state.app update) updates
      next => exact tracks
  | other update => exact tracks.with_app (filter_apply state.app update) state.updates

theorem tracks_run (server : ServerInfo) (url : Str) (tx : Sender)
    (inputs : List FilteringInput) :
    (run step { app := App.new server url tx } inputs).Tracks := by
  have preserves (state : Filtering) (input : FilteringInput) (tracks : state.Tracks) :
      (step state input).Tracks := tracks.step input
  have initially : Tracks { app := App.new server url tx } := ⟨fun _ => rfl, nofun⟩
  exact run_invariant_of_step preserves initially inputs

/-- What a refused rescan leaves behind. -/
theorem key_of_refused (state : Filtering) {event : KeyEvent} {channel : Channel}
    {pattern : Option Str} {kind : Option Kind}
    (asks : state.app.intent event = .rescan pattern kind) (refused : channel ≠ .room) :
    let after := state.step (.key event channel)
    after.app.status = "worker busy — press r to retry".toList ∧
      after.app.filter = (pattern, kind) ∧ after.due = state.due := by
  intro after
  let before : App := { state.app with tx := { channel } }
  have meant : before.intent event = .rescan pattern kind := asks
  refine ⟨?_, ?_, ?_⟩
  · have scans := before.scans_handleKey event
    change (before.handleKey event).status = _
    rw [meant] at scans
    generalize before.handleKey event = handled at scans ⊢
    cases scans with
    | rescan scanned sameChannel =>
        have noRoom : scanned.tx.channel ≠ .room := by
          rw [sameChannel]
          exact refused
        rw [App.rescan]
        dsimp only
        rw [scanned.accepted_send, if_neg (by simpa using noRoom)]
    | keep other view => cases other
  · have displayed := before.filter_handleKey event
    rw [meant] at displayed
    exact displayed
  · have same : after.due = _ := due_act state channel fun app => app.handleKey event
    rw [same, state.app.scanRequests_handleKey event channel, if_neg refused]
    rfl

/-- In every run, the displayed filter is in force whenever no accepted request is
unanswered and some `Rescan` was handled, unless a `Rescan` that was refused since the
last accepted one changed the filter; a refused one says so in the status bar and is
not on its way to the worker. -/
theorem displayed_filter_in_force (server : ServerInfo) (url : Str) (tx : Sender)
    (inputs : List FilteringInput) :
    let state := run step { app := App.new server url tx } inputs
    (∀ filter, state.Quiet → state.processed = some filter → state.drifted = false →
      state.app.filter = filter ∧ workerFilter state.worker = filter) ∧
    ∀ event channel pattern kind, state.app.intent event = .rescan pattern kind →
      channel ≠ .room →
        let after := state.step (.key event channel)
        after.app.status = "worker busy — press r to retry".toList ∧
          after.app.filter = (pattern, kind) ∧ after.due = state.due := by
  intro state
  have tracks : state.Tracks := tracks_run server url tx inputs
  constructor
  · intro filter quiet processed steady
    have scanned := tracks.processed filter processed
    have displayed := tracks.displayed steady
    rw [due, quiet.1] at displayed
    exact ⟨displayed.trans scanned, scanned⟩
  · intro event channel pattern kind asks refused
    exact state.key_of_refused asks refused

/-- While the worker is busy with its first request, `r` fills the channel, and `t` is
refused.  Then everything is answered. -/
def refuseTypeFilter : List FilteringInput :=
  let scene : Scene :=
    { conn := Conn.answering plainApi plainWire (fun _ => none) {}
      keyScanner := fun _ _ _ => ⟨[]⟩ }
  .handle scene ::
    (List.replicate 31 (.key { code := .char 'r' } .room) ++ .key { code := .char 't' } .full ::
      (List.replicate 32 (.handle scene) ++ List.replicate 32 .arrive))

/-- An app that has just been started. -/
def startedFiltering : Filtering :=
  { app := App.new { vendor := .redis, version := [], mode := [], fields := [] }
      "redis://localhost".toList { channel := .room } }

/-- The type that is displayed is not the one that the worker scans with. -/
theorem displayed_filter_not_in_force :
    let state := run step startedFiltering refuseTypeFilter
    state.Quiet ∧ state.processed = some (none, none) ∧
      state.app.filter = (none, some .string) ∧
      ¬∀ filter, state.Quiet → state.processed = some filter → state.app.filter = filter := by
  intro state
  have quiet : state.Quiet :=
    ⟨by decide +kernel, List.isEmpty_iff.mp (by decide +kernel)⟩
  have processed : state.processed = some (none, none) := by decide +kernel
  have displayed : state.app.filter = (none, some .string) := by decide +kernel
  refine ⟨quiet, processed, displayed, fun inForce => ?_⟩
  have same := inForce _ quiet processed
  rw [displayed] at same
  cases same

end Filtering

end Keylens.Tui
