import Keylens.Tui.State
import Keylens.Ui.Format

/-!
# Applying the worker's updates
-/

namespace Keylens.Tui.App

open Keylens.Library Keylens.Connection Keylens.BullMq Keylens.Ui Keylens.Backend

/-- What the status bar says about a scan. -/
def scanStatus (total : Nat) (complete : Bool) (scannedPages : Nat) : Str :=
  if complete then Ui.count total ++ " keys".toList
  else
    Ui.count total ++ " keys so far (".toList ++ decimal scannedPages ++ " page".toList ++
      (if scannedPages = 1 then [] else "s".toList) ++ ") - `m` for more".toList

/-- A reset drops the keys and the detail. -/
def resetTree (app : App) : App :=
  { app with tree := app.tree.clearKeys, selected := 0, detail := none }

def applyBatch (app : App) (keys : List (Str × Option Kind)) (reset complete : Bool)
    (scannedPages : Nat) : App :=
  let app := if reset then app.resetTree else app
  let tree := keys.foldl (fun tree (key, kind) => tree.insertWithKind key kind) app.tree
  rebuild
    { app with
      tree
      scanComplete := complete
      loading := false
      error := none
      splash := false
      status := scanStatus tree.total complete scannedPages }

def applyDetail (app : App) (keyMeta : KeyMeta) (value : KeyValue) (stream : Option StreamInfo) :
    App :=
  -- Replies for a key the user has already scrolled past are dropped.
  if app.pendingKey = some keyMeta.key then
    { app with detailScroll := 0, stream, detail := some (keyMeta, value), error := none }
  else app

def applyQueues (app : App) (queues : PaneState (List QueueSummary)) : App :=
  let queueSelected :=
    match queues.ready? with
    | some list => min app.queueSelected (list.length - 1)
    | none => app.queueSelected
  { app with queueSelected, queues }

def applyJobs (app : App) (state : State) (data : PaneState (List JobRef)) : App :=
  -- A page for a state the user has already cycled away from is ignored.
  if state = app.jobState then
    let jobSelected :=
      match data.ready? with
      | some list => min app.jobSelected (list.length - 1)
      | none => app.jobSelected
    { app with jobSelected, jobs := data }
  else app

def applyEvents (app : App) (events : List StreamEvent) : App :=
  { app with
    throughput := events.foldl (fun throughput event =>
      throughput.record event.queue event.kind event.atMs) app.throughput }

def apply (app : App) : Update → App
  | .batch keys reset complete scannedPages => app.applyBatch keys reset complete scannedPages
  | .detail keyMeta value stream => app.applyDetail keyMeta value stream
  | .info server => { app with server }
  | .error message => { app with loading := false, error := some message }
  | .slowlog state => { app with slowlog := state }
  | .clients state => { app with clients := state }
  | .cluster state => { app with cluster := state }
  | .pubSub state => { app with pubSub := state }
  | .detected detections => { app with detections }
  | .eventsStatus status => { app with throughput := { app.throughput with status } }
  | .events events => app.applyEvents events
  | .queues state => app.applyQueues state
  | .jobs state data => app.applyJobs state data
  | .job state => { app with job := state }

/-! ## What updates leave alone -/

/-- The user decides which key is asked for and which jobs are listed. -/
structure KeepsChoices (before after : App) : Prop where
  pendingKey : after.pendingKey = before.pendingKey
  jobState : after.jobState = before.jobState

/-- The key list and the cursor in it. -/
structure KeepsKeys (before after : App) : Prop where
  tree : after.tree = before.tree
  rows : after.rows = before.rows
  selected : after.selected = before.selected

theorem keepsChoices_apply (app : App) (update : Update) : app.KeepsChoices (app.apply update) := by
  cases update with
  | batch keys reset complete scannedPages => cases reset <;> exact ⟨rfl, rfl⟩
  | detail keyMeta value stream =>
      rw [apply, applyDetail]
      split <;> exact ⟨rfl, rfl⟩
  | jobs jobState data =>
      rw [apply, applyJobs]
      split <;> exact ⟨rfl, rfl⟩
  | _ => exact ⟨rfl, rfl⟩

/-- Only a batch changes the key list. -/
theorem keepsKeys_apply (app : App) {update : Update}
    (notBatch : ∀ keys reset complete pages, update ≠ .batch keys reset complete pages) :
    app.KeepsKeys (app.apply update) := by
  cases update with
  | batch keys reset complete pages => exact absurd rfl (notBatch keys reset complete pages)
  | detail keyMeta value stream =>
      rw [apply, applyDetail]
      split <;> exact ⟨rfl, rfl, rfl⟩
  | jobs jobState data =>
      rw [apply, applyJobs]
      split <;> exact ⟨rfl, rfl, rfl⟩
  | _ => exact ⟨rfl, rfl, rfl⟩

end Keylens.Tui.App
