import Keylens.Tui.Apply
import Keylens.Tui.TreeKeys
import Keylens.Library.Runs

/-!
# Whose failure the error is

The worker reads one key at a time; a newer `Select` cancels the read that is
going on, but not an answer that is already in the channel.  An error does not
say which key could not be read.  `reading` and the keys beside the updates are
the worker's; `blamed`, which is not part of the program, is the key whose failed
read the error on the screen came from.
-/

namespace Keylens.Tui

open Keylens.Library Keylens.Connection Keylens.BullMq Keylens.Ui Keylens.Backend

structure Blaming where
  app : App
  /-- Accepted requests that the worker has not handled yet, oldest first. -/
  requests : List Request := []
  /-- The key of the read that is going on. -/
  reading : Option Str := none
  /-- Updates on their way, oldest first, each with the key that was read for it. -/
  updates : List (Option Str × Update) := []
  blamed : Option Str := none

/-- How a read ends. -/
inductive ReadEnd where
  | detail (keyMeta : KeyMeta) (value : KeyValue) (stream : Option StreamInfo)
  | error (message : Str)

inductive BlamingInput where
  | key (event : KeyEvent) (channel : Channel)
  | flush (channel : Channel)
  /-- The worker handles the oldest request. -/
  | handle
  /-- The read that is going on ends. -/
  | finish (result : ReadEnd)
  /-- Another part of the worker sends an update. -/
  | other (update : Update)
  /-- The oldest update arrives. -/
  | arrive

/-- What a read sends when it ends. -/
def ReadEnd.update (key : Str) : ReadEnd → Update
  | .detail keyMeta value stream => .detail { keyMeta with key } value stream
  | .error message => .error message

/-- An action leaves the error alone.  No handler writes the empty text, so it is
enough to look at what becomes of that. -/
def App.LeavesError (app : App) (action : App → App) : Prop :=
  (action { app with error := some [] }).error = some []

instance (app : App) (action : App → App) : Decidable (app.LeavesError action) :=
  inferInstanceAs (Decidable (_ = _))

namespace Blaming

def act (state : Blaming) (channel : Channel) (action : App → App) : Blaming :=
  let app : App := { state.app with tx := { channel } }
  { state with
    app := action app
    requests := state.requests ++ (action app).tx.accepted
    blamed := if app.LeavesError action then state.blamed else none }

/-- An update arrives, with the key that was read for it. -/
def receive (state : Blaming) (source : Option Str) (update : Update) : Blaming :=
  match update with
  | .error _ => { state with app := state.app.apply update, blamed := source }
  | _ =>
      { state with
        app := state.app.apply update
        blamed :=
          if state.app.LeavesError fun app => app.apply update then state.blamed else none }

def step (state : Blaming) : BlamingInput → Blaming
  | .key event channel => state.act channel fun app => app.handleKey event
  | .flush channel => state.act channel App.flushSelection
  | .handle =>
      match state.requests with
      | .select key :: requests => { state with requests, reading := some key }
      | _ :: requests => { state with requests }
      | [] => state
  | .finish result =>
      match state.reading with
      | some key =>
          { state with
            reading := none
            updates := state.updates ++ [(some key, result.update key)] }
      | none => state
  | .other update => { state with updates := state.updates ++ [(none, update)] }
  | .arrive =>
      match state.updates with
      | (source, update) :: updates => { state with updates }.receive source update
      | [] => state

/-- The error is only about the row under the cursor. -/
def BlamesSelected (state : Blaming) : Prop :=
  ∀ key, state.blamed = some key → state.app.selectedRow.map Row.path = some key

/-- The failure of a read arrives only while its key is under the cursor, and while
it is on the screen no key press jumps to a parent or shows a tree without the
key. -/
def KeepsBlame (state : Blaming) : BlamingInput → Prop
  | .key event _ =>
      ∀ key, state.blamed = some key →
        (state.app.intent event = .jumpToParent → state.app.core.parentRow = none) ∧
          ∀ tree, state.app.intent event = .retree tree → ∃ row ∈ tree.rows, row.path = key
  | .arrive =>
      ∀ key message updates, state.updates = (some key, .error message) :: updates →
        state.app.selectedRow.map Row.path = some key
  | _ => True

end Blaming

/-! ## What an intent does to the cursor and to the error -/

namespace Core

variable {core : Core}

/-- The path under the cursor. -/
def path (core : Core) : Option Str :=
  core.selectedRow.map Row.path

/-- The parent of a key is another key. -/
theorem path_jump {parent : Nat} (found : core.parentRow = some parent) :
    ({ core with selected := parent } : Core).path ≠ core.path := by
  rcases Option.bind_eq_some_iff.mp found with ⟨row, selected, above⟩
  rcases Option.bind_eq_some_iff.mp above with ⟨⟨before, after⟩, split, position⟩
  rcases List.findIdx?_eq_some_iff_getElem.mp position with ⟨inside, isParent, _⟩
  have parentPath : core.rows[parent].path = before := by simpa using isParent
  have here : core.path = some row.path := by rw [path, selected, Option.map_some]
  have there : ({ core with selected := parent } : Core).path = some before := by
    rw [path, selectedRow, List.getElem?_eq_getElem inside, Option.map_some, parentPath]
  have shorter := length_lt_of_rsplitOnce split
  rw [here, there]
  intro same
  cases same
  exact absurd shorter (Nat.lt_irrefl _)

/-- A rebuild stays on the key under the cursor exactly when it is still listed. -/
theorem path_rebuild {key : Str} (selected : core.path = some key) (tree : KeyTree) :
    (core.rebuild tree).path = some key ↔ ∃ row ∈ tree.rows, row.path = key := by
  constructor
  · intro stays
    rcases Option.map_eq_some_iff.mp stays with ⟨row, isRow, rfl⟩
    exact ⟨row, List.mem_of_getElem? isRow, rfl⟩
  · rintro ⟨row, member, isKey⟩
    rcases Option.map_eq_some_iff.mp selected with ⟨here, isHere, sameKey⟩
    have listed : (tree.rows.findIdx? fun other => other.path = here.path).isSome := by
      rw [List.findIdx?_isSome, List.any_eq_true]
      exact ⟨row, member, by simp [isKey, sameKey]⟩
    rcases Option.isSome_iff_exists.mp listed with ⟨i, found⟩
    rcases List.findIdx?_eq_some_iff_getElem.mp found with ⟨inside, atPlace, _⟩
    have placed : (core.rebuild tree).selected = i := by
      rw [rebuild, isHere]
      simp only [Option.bind_some, found, Option.getD_some]
      omega
    rw [path, selectedRow, placed]
    change tree.rows[i]?.map Row.path = some key
    rw [List.getElem?_eq_getElem inside, Option.map_some, ← sameKey]
    simpa using atPlace

theorem error_send (core : Core) (request : Request) :
    (core.send request).error = core.error ∨
      (core.send request).error = some "worker stopped".toList := by
  rw [send]
  cases core.tx.channel
  case closed => exact .inr rfl
  all_goals exact .inl rfl

theorem error_flush_of_unwanted (unwanted : core.wanted = none) :
    core.flush.error = core.error := by
  rcases core.flush_of_unwanted unwanted with kept | cleared
  · rw [kept]
  · rw [cleared]

theorem error_flush_of_wanted {path : Str} (wanted : core.wanted = some path) :
    core.flush.error = (core.send (.select path)).error := by
  rw [core.flush_of_wanted wanted]
  split <;> rfl

theorem error_flush (core : Core) :
    core.flush.error = core.error ∨ core.flush.error = some "worker stopped".toList := by
  cases wanted : core.wanted with
  | none => exact .inl (error_flush_of_unwanted wanted)
  | some path =>
      rw [error_flush_of_wanted wanted]
      exact core.error_send _

/-- A cursor that is put on a row retires the error. -/
theorem error_fetch (core : Core) : core.touch.flush.error ≠ some [] := by
  rcases core.touch.error_flush with cleared | stopped
  · rw [cleared]
    exact nofun
  · rw [stopped]
    decide

theorem path_send (core : Core) (request : Request) : (core.send request).path = core.path := by
  rcases core.send_eq request with ⟨error, tx, sent, _⟩
  rw [sent]
  rfl

theorem path_loadJobs (core : Core) : core.loadJobs.path = core.path := by
  rw [loadJobs]
  split
  · rfl
  · exact core.path_send _

theorem path_loadJob (core : Core) : core.loadJob.path = core.path := by
  rw [loadJob]
  split
  · exact core.path_send _
  · rfl

end Core

namespace Intent

variable {intent : Intent} {core : Core}

/-- The intents of other views leave the cursor of the key list where it is. -/
theorem path_run (elsewhere : intent.inTree = false) (core : Core) :
    (intent.run core).path = core.path := by
  cases intent with
  | stay | leave => rfl
  | rescan | more | refreshInfo => exact core.path_send _
  | loadSlowlog | loadClients | loadCluster | loadPubSub | loadQueues => exact core.path_send _
  | listJobs | openQueue | cycle => exact Core.path_loadJobs _
  | showJob | openJob => exact Core.path_loadJob _
  | moveQueue delta =>
      rcases core.moveQueue_eq delta with ⟨queueSelected, moved⟩
      rw [run, moved]
      rfl
  | moveJob delta =>
      rcases core.moveJob_eq delta with ⟨jobSelected, moved⟩
      rw [run, moved]
      rfl
  | retree | jumpToParent | walk | fetchFirst | fetchLast | fetchHere => cases elsewhere

/-- The intents that move the cursor without retiring the error. -/
def turns : Intent → Bool
  | .retree _ | .jumpToParent => true
  | _ => false

/-- All other intents stay on the row or retire the error, whatever it is. -/
theorem stays_or_retires (steady : intent.turns = false) (core : Core) :
    (intent.run core).path = core.path ∨
      ∀ error, (intent.run { core with error }).error ≠ some [] := by
  cases intent with
  | walk delta =>
      by_cases moves : core.rows.isEmpty = false ∧
          App.stepCursor core.selected delta core.rows.length ≠ core.selected
      · right
        intro error
        simp [run, Core.walk, moves.1, moves.2, Core.touch]
      · left
        rw [run, Core.walk]
        dsimp only
        split
        · rfl
        next nonempty =>
            rw [if_neg fun next => moves ⟨by simpa using nonempty, next⟩]
  | fetchFirst | fetchLast | fetchHere => exact .inr fun _ => Core.error_fetch _
  | retree | jumpToParent => cases steady
  | _ => exact .inl (path_run rfl core)

end Intent

/-! ## What an action writes over the error -/

/-- An action leaves the error alone, or what it writes does not depend on it. -/
def Core.WritesAlike (action : Core → Core) (core : Core) : Prop :=
  ∀ error, (action { core with error }).error =
    if (action { core with error := some [] }).error = some [] then error
    else (action { core with error := some [] }).error

namespace Core

variable (core : Core)

theorem writesAlike_send (request : Request) :
    WritesAlike (fun core => core.send request) core := by
  intro error
  cases channel : core.tx.channel <;> simp [send, channel]

theorem writesAlike_loadJobs : WritesAlike loadJobs core := by
  intro error
  have queue (error : Option Str) :
      ({ core with error } : Core).selectedQueue = core.selectedQueue := rfl
  simp only [loadJobs, queue]
  cases core.selectedQueue with
  | none => simp
  | some queue => exact core.writesAlike_send _ error

theorem writesAlike_loadJob : WritesAlike loadJob core := by
  intro error
  have queue (error : Option Str) :
      ({ core with error } : Core).selectedQueue = core.selectedQueue := rfl
  have job (error : Option Str) :
      ({ core with error } : Core).selectedJob = core.selectedJob := rfl
  simp only [loadJob, queue, job]
  cases core.selectedQueue with
  | none => simp
  | some queue =>
      cases core.selectedJob with
      | none => simp
      | some job => exact core.writesAlike_send _ error

theorem writesAlike_walk (delta : Int) : WritesAlike (fun core => core.walk delta) core := by
  intro error
  by_cases empty : core.rows.isEmpty
  · simp [walk, empty]
  · by_cases moves : App.stepCursor core.selected delta core.rows.length = core.selected
    · simp [walk, empty, moves]
    · simp [walk, empty, moves, touch]

theorem writesAlike_fetch : WritesAlike (fun core => core.touch.flush) core := by
  intro error
  rw [if_neg (error_fetch _)]
  rfl

end Core

theorem Intent.writesAlike_run (intent : Intent) (core : Core) : core.WritesAlike intent.run := by
  intro error
  cases intent with
  | stay | leave | retree => rfl
  | rescan | more | refreshInfo => exact core.writesAlike_send _ error
  | loadSlowlog | loadClients | loadCluster | loadPubSub | loadQueues =>
      exact core.writesAlike_send _ error
  | listJobs => exact core.writesAlike_loadJobs error
  | openQueue =>
      exact Core.writesAlike_loadJobs { core with level := .jobs, jobSelected := 0 } error
  | cycle jobState =>
      exact Core.writesAlike_loadJobs { core with jobState, jobSelected := 0, level := .jobs } error
  | showJob => exact core.writesAlike_loadJob error
  | openJob => exact Core.writesAlike_loadJob { core with level := .job } error
  | moveQueue delta =>
      simp only [run, Core.moveQueue]
      split <;> simp
  | moveJob delta =>
      simp only [run, Core.moveJob]
      split <;> simp
  | jumpToParent =>
      have parent (error : Option Str) :
          ({ core with error } : Core).parentRow = core.parentRow := rfl
      simp only [run, parent]
      cases core.parentRow <;> simp
  | walk delta => exact core.writesAlike_walk delta error
  | fetchFirst => exact Core.writesAlike_fetch { core with selected := 0 } error
  | fetchLast => exact Core.writesAlike_fetch { core with selected := core.rows.length - 1 } error
  | fetchHere => exact core.writesAlike_fetch error

namespace Core

theorem writesAlike_flush (core : Core) : WritesAlike flush core := by
  intro error
  cases wanted : core.wanted with
  | none =>
      have flushed (error : Option Str) : ({ core with error } : Core).flush.error = error :=
        error_flush_of_unwanted wanted
      simp [flushed]
  | some path =>
      have flushed (error : Option Str) : ({ core with error } : Core).flush.error =
          (({ core with error } : Core).send (.select path)).error :=
        error_flush_of_wanted wanted
      simp only [flushed]
      exact core.writesAlike_send _ error

end Core

namespace App

variable (app : App)

/-- After a key press the error is the one before, or does not depend on it. -/
theorem error_handleKey (event : KeyEvent) :
    (app.handleKey event).error =
      if app.LeavesError fun app => app.handleKey event then app.error
      else (({ app with error := some [] } : App).handleKey event).error := by
  have alike := (app.intent event).writesAlike_run app.core app.error
  have pressed : (app.handleKey event).error =
      ((app.intent event).run app.core).error := congrArg Core.error (app.core_handleKey event)
  have sentinel : (({ app with error := some [] } : App).handleKey event).error =
      ((app.intent event).run { app.core with error := some [] }).error :=
    congrArg Core.error (core_handleKey _ event)
  simp only [LeavesError, sentinel]
  exact pressed.trans alike

theorem error_flushSelection :
    app.flushSelection.error =
      if app.LeavesError flushSelection then app.error
      else ({ app with error := some [] } : App).flushSelection.error := by
  have alike := app.core.writesAlike_flush app.error
  have flushed : app.flushSelection.error = app.core.flush.error :=
    congrArg Core.error app.core_flushSelection
  have sentinel : ({ app with error := some [] } : App).flushSelection.error =
      ({ app.core with error := some [] } : Core).flush.error :=
    congrArg Core.error (core_flushSelection _)
  simp only [LeavesError, sentinel]
  exact flushed.trans alike

end App

namespace Core

/-- The error of a core is only about the row under the cursor. -/
def Blames (core : Core) (blamed : Option Str) : Prop :=
  ∀ key, blamed = some key → core.path = some key

end Core

/-- Acting on an intent keeps the blame on the row under the cursor, unless it
leaves the row and keeps the error. -/
theorem Intent.blames_run {core : Core} {blamed : Option Str} (blames : core.Blames blamed)
    (intent : Intent) :
    (intent.run core).Blames
        (if (intent.run { core with error := some [] }).error = some [] then blamed else none) ↔
      ∀ key, blamed = some key →
        (intent = .jumpToParent → core.parentRow = none) ∧
          ∀ tree, intent = .retree tree → ∃ row ∈ tree.rows, row.path = key := by
  cases turning : intent.turns with
  | false =>
      apply iff_of_true
      · intro key still
        split at still
        next leaves =>
            rcases stays_or_retires turning core with stays | retires
            · rw [stays]
              exact blames key still
            · exact absurd leaves (retires (some []))
        next => cases still
      · intro key _
        constructor
        · rintro rfl
          cases turning
        · rintro tree rfl
          cases turning
  | true =>
      cases intent with
      | retree tree =>
          have leaves : ((retree tree).run { core with error := some [] }).error = some [] := rfl
          rw [if_pos leaves]
          apply forall₂_congr
          intro key isBlamed
          rw [run, Core.path_rebuild (blames key isBlamed)]
          simp
      | jumpToParent =>
          have leaves : (jumpToParent.run { core with error := some [] }).error = some [] := by
            rw [run]
            split <;> rfl
          rw [if_pos leaves, run]
          apply forall₂_congr
          intro key isBlamed
          cases found : core.parentRow with
          | none => simp [blames key isBlamed]
          | some parent =>
              have other : ({ core with selected := parent } : Core).path ≠ some key := by
                rw [← blames key isBlamed]
                exact Core.path_jump found
              simp [other]
      | _ => cases turning

namespace Blaming

variable {state : Blaming}

theorem blamesSelected_key (blames : state.BlamesSelected) (event : KeyEvent)
    (channel : Channel) :
    (state.step (.key event channel)).BlamesSelected ↔
      state.KeepsBlame (.key event channel) := by
  let before : App := { state.app with tx := { channel } }
  have pressed : (before.handleKey event).core = (state.app.intent event).run before.core :=
    before.core_handleKey event
  have sentinel : before.LeavesError (fun app => app.handleKey event) ↔
      ((state.app.intent event).run { before.core with error := some [] }).error = some [] := by
    have ran : (({ before with error := some [] } : App).handleKey event).core.error =
        ((state.app.intent event).run { before.core with error := some [] }).error :=
      congrArg Core.error (App.core_handleKey _ event)
    rw [← ran]
    exact Iff.rfl
  change (before.handleKey event).core.Blames
    (if before.LeavesError (fun app => app.handleKey event) then state.blamed else none) ↔ _
  simp only [sentinel]
  rw [pressed]
  have selected : before.core.Blames state.blamed := blames
  exact Intent.blames_run selected (state.app.intent event)

theorem blamesSelected_flush (blames : state.BlamesSelected) (channel : Channel) :
    (state.step (.flush channel)).BlamesSelected := by
  let before : App := { state.app with tx := { channel } }
  have stays : before.flushSelection.core.path = before.core.path := by
    rcases before.core.flush_eq with ⟨detail, pendingKey, selectionDirty, error, tx, flushed, _⟩
    rw [App.core_flushSelection, flushed]
    rfl
  intro key still
  change before.flushSelection.core.path = some key
  rw [stays]
  change (if before.LeavesError App.flushSelection then state.blamed else none) = some key at still
  split at still
  · exact blames key still
  · cases still

/-- Only a batch moves the rows, and it retires the error. -/
theorem path_apply_or_retires (app : App) (update : Update) :
    (app.apply update).core.path = app.core.path ∨
      ¬app.LeavesError fun app => app.apply update := by
  by_cases isBatch : ∃ keys reset complete pages, update = .batch keys reset complete pages
  · rcases isBatch with ⟨keys, reset, complete, pages, rfl⟩
    right
    cases reset <;> exact nofun
  · left
    have notBatch : ∀ keys reset complete pages, update ≠ .batch keys reset complete pages :=
      fun keys reset complete pages same => isBatch ⟨keys, reset, complete, pages, same⟩
    have kept := app.keepsKeys_apply notBatch
    change (app.apply update).rows[(app.apply update).selected]?.map Row.path = _
    rw [kept.rows, kept.selected]
    rfl

/-- Updates that are no failure blame nothing. -/
theorem receive_of_no_failure (source : Option Str) {update : Update}
    (noFailure : ∀ message, update ≠ .error message) :
    state.receive source update =
      { state with
        app := state.app.apply update
        blamed :=
          if state.app.LeavesError fun app => app.apply update then state.blamed else none } := by
  cases update with
  | error message => exact absurd rfl (noFailure message)
  | _ => rfl

theorem blamesSelected_receive (blames : state.BlamesSelected) (source : Option Str)
    (update : Update) :
    (state.receive source update).BlamesSelected ↔
      ∀ key message, source = some key → update = .error message →
        state.app.selectedRow.map Row.path = some key := by
  by_cases failure : ∃ message, update = .error message
  · rcases failure with ⟨message, rfl⟩
    constructor
    · exact fun after key _ isSource _ => after key isSource
    · exact fun selected key isSource => selected key message isSource rfl
  · have noFailure : ∀ message, update ≠ .error message := not_exists.mp failure
    apply iff_of_true
    · rw [receive_of_no_failure source noFailure]
      intro key still
      change (if state.app.LeavesError fun app => app.apply update then state.blamed else none) =
        some key at still
      change (state.app.apply update).core.path = some key
      split at still
      next leaves =>
          rcases path_apply_or_retires state.app update with stays | retires
          · rw [stays]
            exact blames key still
          · exact absurd leaves retires
      next => cases still
    · exact fun key message _ isError => absurd isError (noFailure message)

theorem blamesSelected_arrive (blames : state.BlamesSelected) :
    (state.step .arrive).BlamesSelected ↔ state.KeepsBlame .arrive := by
  rw [step, KeepsBlame]
  cases queued : state.updates with
  | nil => exact iff_of_true blames nofun
  | cons head updates =>
      rcases head with ⟨source, update⟩
      dsimp only
      have rest : ({ state with updates } : Blaming).BlamesSelected := blames
      rw [blamesSelected_receive rest source update]
      constructor
      · intro selected key message rest isHead
        cases isHead
        exact selected key message rfl rfl
      · rintro selected key message rfl rfl
        exact selected key message updates rfl

theorem blamesSelected_step (blames : state.BlamesSelected) (input : BlamingInput) :
    (state.step input).BlamesSelected ↔ state.KeepsBlame input := by
  cases input with
  | key event channel => exact blamesSelected_key blames event channel
  | flush channel => exact iff_of_true (blamesSelected_flush blames channel) trivial
  | handle =>
      refine iff_of_true ?_ trivial
      rw [step]
      split <;> exact blames
  | finish result =>
      refine iff_of_true ?_ trivial
      rw [step]
      split <;> exact blames
  | other update => exact iff_of_true blames trivial
  | arrive => exact blamesSelected_arrive blames

/-! ## A blamed key has its error on the screen -/

/-- An update that is no failure and leaves the error writes no other one. -/
theorem error_apply_of_leavesError {app : App} {update : Update}
    (noFailure : ∀ message, update ≠ .error message)
    (leaves : app.LeavesError fun app => app.apply update) :
    (app.apply update).error = app.error := by
  cases update with
  | batch keys reset complete scannedPages => cases reset <;> cases leaves
  | error message => exact absurd rfl (noFailure message)
  | detail keyMeta value stream =>
      rw [App.apply, App.applyDetail]
      split
      next applies =>
          rw [App.LeavesError, App.apply, App.applyDetail, if_pos applies] at leaves
          cases leaves
      next => rfl
  | jobs jobState jobs =>
      rw [App.apply, App.applyJobs]
      split <;> rfl
  | _ => rfl

/-- A key is blamed only while an error is on the screen. -/
def Shown (state : Blaming) : Prop :=
  state.blamed.isSome → state.app.error.isSome

theorem shown_act (shown : state.Shown) (channel : Channel) {action : App → App}
    (keeps : App.LeavesError { state.app with tx := { channel } } action →
      (action { state.app with tx := { channel } }).error = state.app.error) :
    (state.act channel action).Shown := by
  rw [Shown, act]
  dsimp only
  split
  next leaves =>
      rw [keeps leaves]
      exact shown
  next => exact nofun

theorem shown_receive (shown : state.Shown) (source : Option Str) (update : Update) :
    (state.receive source update).Shown := by
  by_cases failure : ∃ message, update = .error message
  · rcases failure with ⟨message, rfl⟩
    exact fun _ => rfl
  · have noFailure : ∀ message, update ≠ .error message := not_exists.mp failure
    rw [receive_of_no_failure source noFailure, Shown]
    dsimp only
    split
    next leaves =>
        rw [error_apply_of_leavesError noFailure leaves]
        exact shown
    next => exact nofun

theorem shown_step (shown : state.Shown) (input : BlamingInput) : (state.step input).Shown := by
  cases input with
  | key event channel =>
      apply shown_act shown
      intro leaves
      rw [App.error_handleKey, if_pos leaves]
  | flush channel =>
      apply shown_act shown
      intro leaves
      rw [App.error_flushSelection, if_pos leaves]
  | handle =>
      rw [step]
      split <;> exact shown
  | finish result =>
      rw [step]
      split <;> exact shown
  | other update => exact shown
  | arrive =>
      rw [step]
      split
      next source update updates _ =>
          have rest : ({ state with updates } : Blaming).Shown := shown
          exact shown_receive rest source update
      next => exact shown

theorem shown_of_run (server : ServerInfo) (url : Str) (tx : Sender)
    (inputs : List BlamingInput) : (run step { app := App.new server url tx } inputs).Shown := by
  have preserves (state : Blaming) (input : BlamingInput) (shown : state.Shown) :
      (step state input).Shown :=
    shown_step shown input
  have started : Shown { app := App.new server url tx } := nofun
  exact run_invariant_of_step preserves started inputs

/-! ## Runs -/

/-- Throughout a run the error is only about the row under the cursor, exactly when
every step of the run meets the condition; and a key is blamed only while an error is on the
screen. -/
theorem blamesSelected_iff_keepsBlame (server : ServerInfo) (url : Str) (tx : Sender)
    (inputs : List BlamingInput) :
    ((∀ front, front <+: inputs →
        (run step { app := App.new server url tx } front).BlamesSelected) ↔
      Along step KeepsBlame { app := App.new server url tx } inputs) ∧
      (run step { app := App.new server url tx } inputs).Shown := by
  refine ⟨?_, shown_of_run server url tx inputs⟩
  have exactly (state : Blaming) (input : BlamingInput) (blames : state.BlamesSelected) :
      (step state input).BlamesSelected ↔ state.KeepsBlame input :=
    blamesSelected_step blames input
  apply forall_prefix_iff_along_of_step_iff exactly
  exact nofun

/-- An app that has just been started. -/
def startedBlaming : Blaming :=
  { app := App.new { vendor := .redis, version := [], mode := [], fields := [] }
      "redis://localhost".toList { channel := .room } }

/-- Key `a` is read and the read fails.  Before the error arrives, the cursor is on
`b`, and the worker reads that. -/
def moveBeforeError : List BlamingInput :=
  [.other (.batch [("a".toList, none), ("b".toList, none)] true true 1), .arrive,
    .flush .room, .handle, .finish (.error "NOPERM".toList),
    .key { code := .char 'j' } .room, .flush .room, .handle, .arrive]

/-- The failure of `a` is shown for `b`. -/
theorem not_blamesSelected_after_moving :
    let state := run step startedBlaming moveBeforeError
    state.app.error = some "NOPERM".toList ∧ state.blamed = some "a".toList ∧
      state.app.selectedRow.map Row.path = some "b".toList ∧ ¬state.BlamesSelected := by
  intro state
  have blamed : state.blamed = some "a".toList := by decide
  have selected : state.app.selectedRow.map Row.path = some "b".toList := by decide
  refine ⟨by decide, blamed, selected, fun blames => ?_⟩
  have same := selected.symm.trans (blames _ blamed)
  revert same
  decide

end Blaming

end Keylens.Tui
