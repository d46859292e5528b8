import Keylens.Tui.Apply
import Keylens.Tui.ScanKeys
import Keylens.Library.Runs

/-!
# Whether the scanning flag is accurate

The app says that it is scanning with one flag, while any number of scanning
requests can be under way.  The worker answers them in order, each with a batch or
an error; errors also answer other requests.
-/

namespace Keylens.Tui

open Keylens.Library Keylens.Connection Keylens.BullMq Keylens.Ui Keylens.Backend

/-- The app and the scanning requests that were accepted and are not answered yet,
oldest first. -/
structure Flagging where
  app : App
  outstanding : List Request := [.rescan none none]

inductive FlaggingInput where
  | key (event : KeyEvent) (channel : Channel)
  | flush (channel : Channel)
  /-- The oldest scanning request is answered. -/
  | answer (update : Update)
  /-- Any other update arrives. -/
  | other (update : Update)

def isBatch : Update → Bool
  | .batch _ _ _ _ => true
  | _ => false

def isError : Update → Bool
  | .error _ => true
  | _ => false

namespace Flagging

def act (state : Flagging) (channel : Channel) (action : App → App) : Flagging :=
  let (app, accepted) := state.app.act channel action
  { app, outstanding := state.outstanding ++ accepted.filter isScanRequest }

def step (state : Flagging) : FlaggingInput → Flagging
  | .key event channel => state.act channel fun app => app.handleKey event
  | .flush channel => state.act channel App.flushSelection
  | .answer update =>
      match state.outstanding with
      | _ :: outstanding =>
          if isBatch update || isError update then
            { app := state.app.apply update, outstanding }
          else state
      | [] => state
  -- Only scans are answered with batches.
  | .other update =>
      if isBatch update then state else { state with app := state.app.apply update }

/-- The app says that it is scanning when some scanning request is not answered
yet, and only then. -/
def Accurate (state : Flagging) : Prop :=
  state.app.loading ↔ state.outstanding ≠ []

/-- A scanning request is refused only when none is under way, the one that is
answered is the only one, and no other error arrives before its answer. -/
def KeepsFlag (state : Flagging) : FlaggingInput → Prop
  | .key event channel =>
      (state.app.intent event).isScan → channel = .room ∨ state.outstanding = []
  | .flush _ => True
  | .answer update => isBatch update || isError update → state.outstanding.length ≤ 1
  | .other update => isError update → state.outstanding = []

end Flagging

/-! ## What sets the flag -/

namespace App

variable (app : App)

theorem loading_rescan : app.rescan.loading = decide (app.tx.channel = .room) := by
  have accepted := app.accepted_send (.rescan app.pattern app.kindFilter)
  rw [rescan]
  dsimp only
  rw [accepted]
  split
  next room => exact room.symm
  next refused => simpa using refused

theorem loading_more (incomplete : app.scanComplete = false) :
    app.more.loading = decide (app.tx.channel = .room) := by
  have accepted := app.accepted_send .more
  rw [more, incomplete]
  dsimp only
  rw [accepted]
  simp only [Bool.false_eq_true, if_false]
  split
  next room => exact room.symm
  next refused => simpa using refused

theorem loading_handleKey (key : KeyEvent) :
    (app.handleKey key).loading =
      if (app.intent key).isScan then decide (app.tx.channel = .room) else app.loading := by
  have scans := app.scans_handleKey key
  generalize app.handleKey key = after at scans ⊢
  generalize app.intent key = intent at scans ⊢
  cases scans with
  | rescan scanned channel => rw [loading_rescan, channel, Intent.isScan, if_pos rfl]
  | more scanned view channel incomplete =>
      rw [scanned.loading_more incomplete, channel, Intent.isScan, if_pos rfl]
  | keep other view =>
      rw [other]
      exact congrArg (fun view => view.2.2) view

/-- Batches and errors clear the flag, and no other update touches it. -/
theorem loading_apply (update : Update) :
    (app.apply update).loading = (app.loading && !(isBatch update || isError update)) := by
  cases update with
  | batch keys reset complete scannedPages =>
      cases reset <;> simp [apply, applyBatch, rebuild, isBatch]
  | error message => simp [apply, isError]
  | detail keyMeta value stream =>
      rw [apply, applyDetail]
      split <;> simp [isBatch, isError]
  | jobs jobState data =>
      rw [apply, applyJobs]
      split <;> simp [isBatch, isError]
  | _ => simp [apply, applyQueues, applyEvents, isBatch, isError]

end App

/-! ## One step -/

theorem Intent.scanRequest_of_isScan {intent : Intent} (asks : intent.isScan) :
    intent.scanRequest ≠ [] := by
  cases intent <;> cases asks <;> exact List.cons_ne_nil _ _

theorem Intent.scanRequest_of_not_isScan {intent : Intent} (other : intent.isScan = false) :
    intent.scanRequest = [] := by
  cases intent <;> first | rfl | cases other

namespace Flagging

variable {state : Flagging}

theorem accurate_key_iff (accurate : state.Accurate) (event : KeyEvent) (channel : Channel) :
    (state.step (.key event channel)).Accurate ↔ state.KeepsFlag (.key event channel) := by
  let before : App := { state.app with tx := { channel } }
  have loading : (state.step (.key event channel)).app.loading =
      if (state.app.intent event).isScan then decide (channel = .room) else state.app.loading :=
    before.loading_handleKey event
  have outstanding : (state.step (.key event channel)).outstanding =
      state.outstanding ++
        if channel = .room then (state.app.intent event).scanRequest else [] :=
    congrArg (state.outstanding ++ ·) (state.app.scanRequests_handleKey event channel)
  rw [Accurate, loading, outstanding, KeepsFlag]
  cases asks : (state.app.intent event).isScan with
  | true =>
      have sent := Intent.scanRequest_of_isScan asks
      by_cases room : channel = .room
      · simp [room, sent]
      · simp [room]
  | false =>
      simp only [Intent.scanRequest_of_not_isScan asks, Bool.false_eq_true, if_false, ite_self,
        List.append_nil, false_implies, iff_true]
      exact accurate

theorem accurate_answer_iff (accurate : state.Accurate) (update : Update) :
    (state.step (.answer update)).Accurate ↔ state.KeepsFlag (.answer update) := by
  rw [step, KeepsFlag]
  split
  next request rest waiting =>
      cases answers : isBatch update || isError update with
      | true => simp [Accurate, App.loading_apply, answers, waiting]
      | false => simpa [answers] using accurate
  next none => simpa [none] using accurate

theorem accurate_other_iff (accurate : state.Accurate) (update : Update) :
    (state.step (.other update)).Accurate ↔ state.KeepsFlag (.other update) := by
  rw [step, KeepsFlag]
  cases batch : isBatch update with
  | true =>
      have noError : isError update = false := by
        cases update <;> first | rfl | cases batch
      simpa [noError] using accurate
  | false =>
      cases error : isError update with
      | true => simp [Accurate, App.loading_apply, error]
      | false => simpa [Accurate, App.loading_apply, batch, error] using accurate

theorem accurate_step_iff (accurate : state.Accurate) (input : FlaggingInput) :
    (state.step input).Accurate ↔ state.KeepsFlag input := by
  cases input with
  | key event channel => exact accurate_key_iff accurate event channel
  | flush channel =>
      have view := App.scanView_flushSelection { state.app with tx := { channel } }
      have loading : (state.step (.flush channel)).app.loading = state.app.loading :=
        congrArg (fun view => view.2.2) view
      have outstanding : (state.step (.flush channel)).outstanding = state.outstanding ++ [] :=
        congrArg (state.outstanding ++ ·) (state.app.scanRequests_flushSelection channel)
      rw [Accurate, loading, outstanding, List.append_nil]
      exact iff_of_true accurate trivial
  | answer update => exact accurate_answer_iff accurate update
  | other update => exact accurate_other_iff accurate update

/-! ## Every run -/

/-- Throughout a run the flag is accurate, exactly when every step of the run meets
the condition. -/
theorem accurate_iff_keepsFlag (server : ServerInfo) (url : Str) (tx : Sender)
    (inputs : List FlaggingInput) :
    (∀ front, front <+: inputs → (run step { app := App.new server url tx } front).Accurate) ↔
      Along step KeepsFlag { app := App.new server url tx } inputs := by
  have exactly (state : Flagging) (input : FlaggingInput) (accurate : state.Accurate) :
      (step state input).Accurate ↔ state.KeepsFlag input := accurate_step_iff accurate input
  apply forall_prefix_iff_along_of_step_iff exactly
  exact iff_of_true rfl (List.cons_ne_nil _ _)

/-- An app that has just been started. -/
def startedFlagging : Flagging :=
  { app := App.new { vendor := .redis, version := [], mode := [], fields := [] }
      "redis://localhost".toList { channel := .room } }

/-- The key `a` is being read when a rescan is asked for, and the read fails. -/
def rescanDuringRead : List FlaggingInput :=
  [.answer (.batch [("a".toList, none)] true true 1), .flush .room,
    .key { code := .char 'r' } .room, .other (.error "NOPERM".toList)]

/-- The error clears the flag while the rescan still goes on. -/
theorem not_accurate_after_read_error :
    let state := run step startedFlagging rescanDuringRead
    state.outstanding = [.rescan none none] ∧ state.app.loading = false ∧ ¬state.Accurate := by
  intro state
  have cleared : state.app.loading = false := by decide
  have waiting : state.outstanding = [.rescan none none] := by decide
  refine ⟨waiting, cleared, fun accurate => ?_⟩
  have scanning := accurate.mpr (by rw [waiting]; exact List.cons_ne_nil _ _)
  rw [cleared] at scanning
  cases scanning

end Flagging

end Keylens.Tui
