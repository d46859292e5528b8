import Keylens.Tui.Apply
import Keylens.Tui.KeyPress
import Keylens.Library.Runs

/-!
# Whether a key can be asked for again

The app asks for the key under the cursor unless it is the one asked for most
recently.  That is safe as long as the answer for that key is still to come or
still on the screen.  A rescan clears the screen, and an error is an answer that
puts nothing on it; both leave `pendingKey` as it is.
-/

namespace Keylens.Tui

open Keylens.Library Keylens.Connection Keylens.BullMq Keylens.Ui Keylens.Backend

/-- The key whose detail is shown. -/
def App.detailKey (app : App) : Option Str :=
  app.detail.map fun detail => detail.1.key

/-- The app and the `Select` that was accepted last, until it is answered. -/
structure Selecting where
  app : App
  outstanding : Option Str := none

/-- What can happen to the app. -/
inductive SelectingInput where
  | key (event : KeyEvent) (channel : Channel)
  | flush (channel : Channel)
  /-- An update arrives, perhaps as the answer to the outstanding `Select`. -/
  | update (update : Update) (answers : Bool)

namespace Selecting

/-- Let the app act; a `Select` that is accepted supersedes the one before. -/
def act (state : Selecting) (channel : Channel) (action : App → App) : Selecting :=
  let (app, accepted) := state.app.act channel action
  { app, outstanding := (accepted.filterMap selectKey).getLast?.or state.outstanding }

/-- Whether an update can be the answer to a `Select`. -/
def canAnswer (outstanding : Option Str) : Update → Bool
  | .detail keyMeta _ _ => outstanding = some keyMeta.key
  | .error _ => true
  | _ => false

def step (state : Selecting) : SelectingInput → Selecting
  | .key event channel => state.act channel fun app => app.handleKey event
  | .flush channel => state.act channel App.flushSelection
  | .update update answers =>
      { app := state.app.apply update
        outstanding :=
          if answers && canAnswer state.outstanding update then none else state.outstanding }

/-- Enter asks for the key under the cursor when it is neither shown nor asked
for. -/
def Reselectable (state : Selecting) : Prop :=
  ∀ row, state.app.selectedRow = some row → row.isKey → row.isBranch = false →
    state.outstanding ≠ some row.path → state.app.detailKey ≠ some row.path →
    state.app.mode = .normal → state.app.view = .keys → state.app.focus = .tree →
    ∀ control, (state.app.act .room fun app => app.handleKey { code := .enter, control }).2 =
      [.select row.path]

/-- No rescan clears the screen of the key asked for most recently once it was
answered, and no error answers for a key that is not on the screen. -/
def KeepsAnswer (state : Selecting) : SelectingInput → Prop
  | .update (.batch _ true _ _) _ =>
      ∀ key, state.app.pendingKey = some key → state.outstanding = some key
  | .update (.error _) true =>
      ∀ key, state.app.pendingKey = some key → state.outstanding = some key →
        state.app.detailKey = some key
  | _ => True

/-- The key asked for most recently is still to come or on the screen. -/
def Covered (state : Selecting) : Prop :=
  ∀ key, state.app.pendingKey = some key →
    state.outstanding = some key ∨ state.app.detailKey = some key

variable {state : Selecting}

/-! ## Enter -/

/-- In the key list, Enter opens what is under the cursor. -/
theorem handleNormalKey_enter {app : App} (keys : app.view = .keys) (tree : app.focus = .tree)
    (control : Bool) :
    app.handleNormalKey { code := .enter, control } = app.openSelected := by
  have unfocused : app.focus ≠ .value := by
    rw [tree]
    decide
  change app.handleViewKey { code := .enter, control } = app.openSelected
  rw [App.handleViewKey]
  split
  next =>
      change (if app.focus = .value then _ else app.openSelected) = app.openSelected
      exact if_neg unfocused
  next queues => cases keys.symm.trans queues
  next other _ => exact absurd keys other

theorem handleKey_enter {app : App} (normal : app.mode = .normal) (keys : app.view = .keys)
    (tree : app.focus = .tree) (control : Bool) :
    app.handleKey { code := .enter, control } =
      ({ app with splash := false } : App).openSelected := by
  rw [App.handleKey]
  rw [if_neg (by simp)]
  dsimp only
  split
  next help => cases normal.symm.trans help
  next search => cases normal.symm.trans search
  next =>
      apply handleNormalKey_enter
      · exact keys
      · exact tree

/-- With room in the channel, opening a key asks for it unless it is the one
asked for most recently. -/
theorem accepted_openSelected {app : App} {row : Row} (selected : app.selectedRow = some row)
    (isKey : row.isKey) (leaf : row.isBranch = false) (fresh : app.pendingKey ≠ some row.path)
    (room : app.tx = { channel := .room }) :
    app.openSelected.tx.accepted = [.select row.path] := by
  have opened : app.openSelected = app.touchSelection.flushSelection := by
    rw [App.openSelected]
    rw [selected]
    simp only [leaf, Bool.false_eq_true, if_false]
  have flushed : app.touchSelection.flushSelection =
      ({ app.touchSelection with selectionDirty := false } : App).fetch row.path := by
    rw [App.flushSelection]
    have same : ({ app.touchSelection with selectionDirty := false } : App).selectedRow =
        some row := selected
    dsimp only
    rw [same]
    simp only [isKey, Bool.not_true, Bool.false_eq_true, if_false]
  rw [opened, flushed, App.fetch, if_neg]
  · rw [App.send]
    simp only [App.touchSelection, room, List.nil_append, if_true]
  · exact fresh

/-- So does Enter. -/
theorem accepted_enter {app : App} {row : Row} (selected : app.selectedRow = some row)
    (isKey : row.isKey) (leaf : row.isBranch = false) (fresh : app.pendingKey ≠ some row.path)
    (normal : app.mode = .normal) (keys : app.view = .keys) (tree : app.focus = .tree)
    (control : Bool) :
    (app.act .room fun app => app.handleKey { code := .enter, control }).2 =
      [.select row.path] := by
  change (({ app with tx := { channel := .room } } : App).handleKey _).tx.accepted = _
  rw [handleKey_enter]
  · apply accepted_openSelected
    · exact selected
    · exact isKey
    · exact leaf
    · exact fresh
    · rfl
  · exact normal
  · exact keys
  · exact tree

theorem Covered.reselectable (covered : state.Covered) : state.Reselectable := by
  intro row selected isKey leaf answered hidden normal keys tree control
  apply accepted_enter selected isKey leaf _ normal keys tree
  intro pending
  rcases covered row.path pending with waiting | shown
  · exact answered waiting
  · exact hidden shown

/-! ## One step -/

theorem Covered.act (covered : state.Covered) {channel : Channel} {action : App → App}
    (effect : ∀ app : App, app.SelectsOrKeeps (action app)) :
    (state.act channel action).Covered := by
  intro key pending
  let before : App := { state.app with tx := { channel } }
  have outstandingEq : (state.act channel action).outstanding =
      (action before).selection.selects.getLast?.or state.outstanding := rfl
  have waiting : (action before).selection.pendingKey = some key := pending
  have detailEq : (state.act channel action).app.detailKey =
      (action before).selection.detail.map fun detail => detail.1.key := rfl
  rw [outstandingEq, detailEq]
  rcases (effect before).waits waiting with kept | asked
  · rw [kept] at waiting ⊢
    exact covered key waiting
  · left
    simp [asked]

/-- An update that puts no other key on the screen and answers nothing. -/
theorem Covered.of_same (covered : state.Covered) {after : Selecting}
    (pending : after.app.pendingKey = state.app.pendingKey)
    (detail : after.app.detail = state.app.detail)
    (outstanding : after.outstanding = state.outstanding) : after.Covered := by
  intro key
  rw [pending, outstanding, App.detailKey, detail]
  exact covered key

theorem Covered.batch (covered : state.Covered) {keys : List (Str × Option Kind)}
    {reset complete : Bool} {scannedPages : Nat} {answers : Bool}
    (keeps : state.KeepsAnswer (.update (.batch keys reset complete scannedPages) answers)) :
    (state.step (.update (.batch keys reset complete scannedPages) answers)).Covered := by
  have outstanding : (state.step (.update (.batch keys reset complete scannedPages)
      answers)).outstanding = state.outstanding := by
    simp [Selecting.step, canAnswer]
  cases reset with
  | false => exact covered.of_same rfl rfl outstanding
  | true =>
      intro key pending
      left
      rw [outstanding]
      exact keeps key pending

theorem Covered.detail (covered : state.Covered) (keyMeta : KeyMeta) (value : KeyValue)
    (stream : Option StreamInfo) (answers : Bool) :
    (state.step (.update (.detail keyMeta value stream) answers)).Covered := by
  intro key pending
  have applied : (state.step (.update (.detail keyMeta value stream) answers)).app =
      state.app.applyDetail keyMeta value stream := rfl
  rw [applied] at pending ⊢
  rw [App.applyDetail] at pending ⊢
  split at pending
  next wanted =>
      -- The key that was waited for is now on the screen.
      right
      rw [if_pos wanted]
      exact wanted.symm.trans pending
  next unwanted =>
      rw [if_neg unwanted]
      rcases covered key pending with waiting | shown
      · left
        have other : canAnswer state.outstanding (.detail keyMeta value stream) = false := by
          rw [canAnswer, waiting]
          apply decide_eq_false
          intro same
          exact unwanted (pending.trans same)
        simp only [Selecting.step, other, Bool.and_false, Bool.false_eq_true, if_false]
        exact waiting
      · exact .inr shown

theorem Covered.error (covered : state.Covered) {message : Str} {answers : Bool}
    (keeps : state.KeepsAnswer (.update (.error message) answers)) :
    (state.step (.update (.error message) answers)).Covered := by
  cases answers with
  | false => exact covered.of_same rfl rfl rfl
  | true =>
      intro key pending
      right
      rcases covered key pending with waiting | shown
      · exact keeps key pending waiting
      · exact shown

theorem Covered.update (covered : state.Covered) {update : Update} {answers : Bool}
    (keeps : state.KeepsAnswer (.update update answers)) :
    (state.step (.update update answers)).Covered := by
  cases update with
  | batch keys reset complete scannedPages => exact covered.batch keeps
  | detail keyMeta value stream => exact covered.detail keyMeta value stream answers
  | error message => exact covered.error keeps
  | jobs jobState data =>
      apply covered.of_same
      · exact (state.app.keepsChoices_apply (.jobs jobState data)).pendingKey
      · change (state.app.applyJobs jobState data).detail = _
        rw [App.applyJobs]
        split <;> rfl
      · simp [Selecting.step, canAnswer]
  | info | slowlog | clients | cluster | pubSub | detected | eventsStatus | events | queues | job =>
      exact covered.of_same rfl rfl (by simp [Selecting.step, canAnswer])

theorem Covered.step (covered : state.Covered) (input : SelectingInput)
    (keeps : state.KeepsAnswer input) : (state.step input).Covered := by
  cases input with
  | key event channel => exact covered.act fun app => (app.keyPress_handleKey event).selection
  | flush channel => exact covered.act fun app => .inr ⟨app, rfl, rfl⟩
  | update update answers => exact covered.update keeps

/-! ## Whole runs -/

/-- In every run that keeps the answers, every key can be asked for again. -/
theorem reselectable_of_keepsAnswer (server : ServerInfo) (url : Str) (tx : Sender)
    (inputs : List SelectingInput)
    (keeps : Along step KeepsAnswer { app := App.new server url tx } inputs) :
    (run step { app := App.new server url tx } inputs).Reselectable := by
  have covered : (run step { app := App.new server url tx } inputs).Covered :=
    run_invariant (fun _ input covered keeps => Covered.step covered input keeps) nofun keeps
  exact covered.reselectable

/-- An app that has just been started. -/
def started : Selecting :=
  { app := App.new { vendor := .redis, version := [], mode := [], fields := [] }
      "redis://localhost".toList { channel := .room } }

/-- A scan lists the key `a`, Enter asks for it, and the answer arrives. -/
def listAndOpen : List SelectingInput :=
  [.update (.batch [("a".toList, none)] true true 1) false,
    .key { code := .enter } .room,
    .update (.detail
      { key := "a".toList, kind := .string, ttlMs := none, size := 1, memory := none }
      (.string "x".toList) none) true]

theorem reselectable_of_keepsAnswer_opened :
    (run step started listAndOpen).app.detailKey = some "a".toList ∧
      (run step started listAndOpen).Reselectable := by
  refine ⟨by decide, ?_⟩
  apply reselectable_of_keepsAnswer
  exact ⟨nofun, trivial, trivial, trivial⟩

/-- After a rescan the screen is empty, and Enter on `a` sends nothing. -/
theorem not_reselectable_after_rescan :
    let state := run step started (listAndOpen ++
      [.key { code := .char 'r' } .room, .update (.batch [("a".toList, none)] true true 1) false])
    state.outstanding = none ∧ state.app.detail = none ∧
      (state.app.act .room fun app => app.handleKey { code := .enter }).2 = [] ∧
      ¬state.Reselectable := by
  intro state
  have silent : (state.app.act .room fun app => app.handleKey { code := .enter }).2 = [] := by
    decide
  have row : state.app.selectedRow = some
      { depth := 0, label := "a".toList, path := "a".toList, isKey := true, isBranch := false,
        expanded := false, subtreeKeys := 1, kind := none } := by decide
  have answered : state.outstanding = none := by decide
  have hidden : state.app.detail = none := by rfl
  refine ⟨answered, hidden, silent, fun reselectable => ?_⟩
  have asked := reselectable _ row rfl rfl (by rw [answered]; exact nofun)
    (by rw [App.detailKey, hidden]; exact nofun) rfl rfl rfl false
  rw [silent] at asked
  cases asked

end Selecting

end Keylens.Tui
