import Keylens.Tui.Apply
import Keylens.Tui.Intent
import Keylens.Tui.KeyPress
import Keylens.Tui.Reselect
import Keylens.Library.Runs

/-!
# Asking for the key under the cursor

The app remembers for which key it waits.  `latest` is not part of the program: it
is the key of the `Select` that the channel has taken last.  Updates arrive at any
time, whether or not they answer anything that is still wanted.
-/

namespace Keylens.Tui

open Keylens.Library Keylens.Connection Keylens.BullMq Keylens.Ui Keylens.Backend

structure Fetching where
  app : App
  latest : Option Str := none

inductive FetchingInput where
  | key (event : KeyEvent) (channel : Channel)
  | flush (channel : Channel)
  | update (update : Update)

/-- The keys that move a cursor or scroll. -/
def moveKeys : List KeyCode :=
  [.char 'j', .char 'k', .up, .down, .pageUp, .pageDown]

namespace App

/-- A `Select` that the channel would take and does not leaves the cursor to be
fetched later. -/
def RetriesRefused (app : App) (action : App → App) : Prop :=
  ∀ key channel, .select key ∈ (app.act .room action).2 → channel ≠ .room →
    (app.act channel action).1.selectionDirty = true ∧
      (app.act channel action).1.pendingKey = none

end App

namespace Fetching

def act (state : Fetching) (channel : Channel) (action : App → App) : Fetching :=
  let (app, accepted) := state.app.act channel action
  { app, latest := (accepted.filterMap selectKey).getLast?.or state.latest }

def step (state : Fetching) : FetchingInput → Fetching
  | .key event channel => state.act channel fun app => app.handleKey event
  | .flush channel => state.act channel App.flushSelection
  | .update update => { state with app := state.app.apply update }

/-- The key that is waited for is the one asked for last. -/
def WaitsForLatest (state : Fetching) : Prop :=
  ∀ key, state.app.pendingKey = some key → state.latest = some key

/-- What may be said of the selection at any time. -/
structure Disciplined (state : Fetching) : Prop where
  waitsForLatest : state.WaitsForLatest
  /-- A detail that changes what is shown is that of the key asked for last. -/
  showsLatest : ∀ keyMeta value stream,
    (state.app.apply (.detail keyMeta value stream)).detail ≠ state.app.detail →
      ∃ key, state.latest = some key ∧
        (state.app.apply (.detail keyMeta value stream)).detailKey = some key
  movingAsksNothing : ∀ code ∈ moveKeys, ∀ control channel,
    (state.app.act channel fun app => app.handleKey { code, control }).2 = []
  /-- One flush asks for at most the row under the cursor. -/
  flushAsksForRow : ∀ channel,
    (state.app.act channel App.flushSelection).2 = [] ∨
      ∃ row, state.app.selectedRow = some row ∧
        (state.app.act channel App.flushSelection).2 = [.select row.path]
  keyRetries : ∀ event, state.app.RetriesRefused fun app => app.handleKey event
  flushRetries : state.app.RetriesRefused App.flushSelection

/-! ## The key that is waited for -/

variable {state : Fetching}

theorem WaitsForLatest.act (waits : state.WaitsForLatest) {channel : Channel}
    {action : App → App} (effect : ∀ app : App, app.SelectsOrKeeps (action app)) :
    (state.act channel action).WaitsForLatest := by
  intro key pending
  let before : App := { state.app with tx := { channel } }
  have latest : (state.act channel action).latest =
      (action before).selection.selects.getLast?.or state.latest := rfl
  rw [latest]
  rcases (effect before).waits pending with kept | asked
  · have still : state.app.pendingKey = some key :=
      (congrArg Selection.pendingKey kept).symm.trans pending
    rw [kept]
    exact waits key still
  · simp [asked]

/-- No update changes the key that is waited for. -/
theorem WaitsForLatest.step (waits : state.WaitsForLatest) (input : FetchingInput) :
    (state.step input).WaitsForLatest := by
  cases input with
  | key event channel => exact waits.act fun app => (app.keyPress_handleKey event).selection
  | flush channel => exact waits.act fun app => .inr ⟨app, rfl, rfl⟩
  | update update =>
      intro key pending
      have same := (state.app.keepsChoices_apply update).pendingKey
      exact waits key (same.symm.trans pending)

theorem WaitsForLatest.shows (waits : state.WaitsForLatest) (keyMeta : KeyMeta)
    (value : KeyValue) (stream : Option StreamInfo)
    (changes : (state.app.apply (.detail keyMeta value stream)).detail ≠ state.app.detail) :
    ∃ key, state.latest = some key ∧
      (state.app.apply (.detail keyMeta value stream)).detailKey = some key := by
  change (state.app.applyDetail keyMeta value stream).detail ≠ state.app.detail at changes
  change ∃ key, state.latest = some key ∧
    (state.app.applyDetail keyMeta value stream).detailKey = some key
  rw [App.applyDetail] at changes ⊢
  split at changes
  next wanted =>
      rw [if_pos wanted]
      exact ⟨keyMeta.key, waits _ wanted, rfl⟩
  next => exact absurd rfl changes

end Fetching

/-! ## Moving a cursor -/

namespace Intent

/-- The intents that only move a cursor. -/
def moves : Intent → Bool
  | .stay | .walk _ | .moveQueue _ | .moveJob _ => true
  | _ => false

/-- Moving a cursor asks for nothing. -/
theorem tx_run {intent : Intent} (moving : intent.moves) (core : Core) :
    (intent.run core).tx = core.tx := by
  cases intent with
  | stay => rfl
  | walk delta =>
      rcases core.walk_eq delta with ⟨selected, selectionDirty, error, walked⟩
      rw [run, walked]
  | moveQueue delta =>
      rcases core.moveQueue_eq delta with ⟨queueSelected, moved⟩
      rw [run, moved]
  | moveJob delta =>
      rcases core.moveJob_eq delta with ⟨jobSelected, moved⟩
      rw [run, moved]
  | _ => cases moving

end Intent

namespace App

variable (app : App) {code : KeyCode} (control : Bool)

theorem moves_moveIntent (delta : Int) : (app.moveIntent delta).moves := by
  rw [moveIntent]
  split <;> rfl

theorem moves_viewIntent (isMove : code ∈ moveKeys) :
    (app.viewIntent { code, control }).moves := by
  have focused : (app.focusIntent { code, control }).moves := by
    rw [focusIntent]
    split
    · rfl
    · simp only [moveKeys, List.mem_cons, List.not_mem_nil, or_false] at isMove
      rcases isMove with rfl | rfl | rfl | rfl | rfl | rfl <;> rfl
  simp only [moveKeys, List.mem_cons, List.not_mem_nil, or_false] at isMove
  rw [viewIntent]
  split
  · rcases isMove with rfl | rfl | rfl | rfl | rfl | rfl <;> exact focused
  · rcases isMove with rfl | rfl | rfl | rfl | rfl | rfl <;> exact app.moves_moveIntent _
  · rfl

/-- In every mode and view, these keys move a cursor at most. -/
theorem moves_intent (isMove : code ∈ moveKeys) : (app.intent { code, control }).moves := by
  have inView := app.moves_viewIntent control isMove
  rw [intent]
  split
  · rfl
  · simp only [moveKeys, List.mem_cons, List.not_mem_nil, or_false] at isMove
    split
    · rfl
    · rcases isMove with rfl | rfl | rfl | rfl | rfl | rfl <;> rfl
    · rcases isMove with rfl | rfl | rfl | rfl | rfl | rfl <;> exact inView

theorem accepted_moveKey (isMove : code ∈ moveKeys) (channel : Channel) :
    (app.act channel fun app => app.handleKey { code, control }).2 = [] := by
  let before : App := { app with tx := { channel } }
  change (before.handleKey { code, control }).core.tx.accepted = []
  rw [core_handleKey, Intent.tx_run (before.moves_intent control isMove)]
  rfl

end App

/-! ## Flushing -/

namespace Core

variable {core : Core}

theorem accepted_flush_of_unwanted (unwanted : core.wanted = none) :
    core.flush.tx.accepted = core.tx.accepted := by
  rcases core.flush_of_unwanted unwanted with kept | cleared
  · rw [kept]
  · rw [cleared]

theorem accepted_flush_of_wanted {path : Str} (wanted : core.wanted = some path) :
    core.flush.tx.accepted =
      core.tx.accepted ++ if core.tx.channel = .room then [.select path] else [] := by
  rw [core.flush_of_wanted wanted, ← accepted_send]
  split <;> rfl

theorem selectedRow_of_wanted {path : Str} (wanted : core.wanted = some path) :
    ∃ row, core.selectedRow = some row ∧ row.path = path := by
  rcases Option.bind_eq_some_iff.mp wanted with ⟨row, selected, asked⟩
  refine ⟨row, selected, ?_⟩
  split at asked
  · exact Option.some.inj asked
  · cases asked

/-- Whether a key is wanted does not depend on the channel. -/
theorem flush_refused (core : Core) {key : Str} {channel : Channel}
    (asked : .select key ∈ ({ core with tx := { channel := .room } } : Core).flush.tx.accepted)
    (refused : channel ≠ .room) :
    ({ core with tx := { channel } } : Core).flush.selectionDirty = true ∧
      ({ core with tx := { channel } } : Core).flush.pendingKey = none := by
  cases wanted : ({ core with tx := { channel := .room } } : Core).wanted with
  | none =>
      rw [accepted_flush_of_unwanted wanted] at asked
      cases asked
  | some path => exact flush_of_refused _ wanted refused

end Core

/-- An intent whose `Select` is refused leaves the cursor to be fetched. -/
theorem Intent.run_refused (intent : Intent) (core : Core) {key : Str} {channel : Channel}
    (asked : .select key ∈ (intent.run { core with tx := { channel := .room } }).tx.accepted)
    (refused : channel ≠ .room) :
    (intent.run { core with tx := { channel } }).selectionDirty = true ∧
      (intent.run { core with tx := { channel } }).pendingKey = none := by
  cases fetching : intent.fetches with
  | false =>
      have selects := congrArg Selection.selects
        (Intent.selection_run fetching { core with tx := { channel := .room } })
      have member : key ∈ (intent.run { core with tx := { channel := .room } }).selection.selects :=
        List.mem_filterMap.mpr ⟨_, asked, rfl⟩
      rw [selects] at member
      cases member
  | true =>
      cases intent with
      | fetchFirst =>
          exact Core.flush_refused { core with selected := 0 }.touch asked refused
      | fetchLast =>
          exact Core.flush_refused { core with selected := core.rows.length - 1 }.touch asked
            refused
      | fetchHere => exact Core.flush_refused core.touch asked refused
      | _ => cases fetching

namespace App

variable (app : App)

theorem retriesRefused_handleKey (event : KeyEvent) :
    app.RetriesRefused fun app => app.handleKey event := by
  intro key channel asked refused
  let sending (channel : Channel) : App := { app with tx := { channel } }
  have pressed : ∀ channel, ((sending channel).handleKey event).core =
      (app.intent event).run { app.core with tx := { channel } } :=
    fun channel => (sending channel).core_handleKey event
  change .select key ∈ ((sending .room).handleKey event).core.tx.accepted at asked
  change ((sending channel).handleKey event).core.selectionDirty = true ∧
    ((sending channel).handleKey event).core.pendingKey = none
  rw [pressed] at asked ⊢
  exact (app.intent event).run_refused app.core asked refused

theorem retriesRefused_flushSelection : app.RetriesRefused flushSelection := by
  intro key channel asked refused
  let sending (channel : Channel) : App := { app with tx := { channel } }
  have flushed : ∀ channel, (sending channel).flushSelection.core =
      ({ app.core with tx := { channel } } : Core).flush :=
    fun channel => (sending channel).core_flushSelection
  change .select key ∈ (sending .room).flushSelection.core.tx.accepted at asked
  change (sending channel).flushSelection.core.selectionDirty = true ∧
    (sending channel).flushSelection.core.pendingKey = none
  rw [flushed] at asked ⊢
  exact app.core.flush_refused asked refused

theorem accepted_flushSelection (channel : Channel) :
    (app.act channel flushSelection).2 = [] ∨
      ∃ row, app.selectedRow = some row ∧
        (app.act channel flushSelection).2 = [.select row.path] := by
  let before : App := { app with tx := { channel } }
  change before.flushSelection.core.tx.accepted = [] ∨ ∃ row, app.selectedRow = some row ∧
    before.flushSelection.core.tx.accepted = [.select row.path]
  rw [core_flushSelection]
  cases wanted : before.core.wanted with
  | none =>
      left
      exact Core.accepted_flush_of_unwanted wanted
  | some path =>
      rw [Core.accepted_flush_of_wanted wanted]
      split
      next =>
          rcases Core.selectedRow_of_wanted wanted with ⟨row, selected, rfl⟩
          exact .inr ⟨row, selected, rfl⟩
      next => exact .inl rfl

end App

/-! ## Every run -/

namespace Fetching

variable {state : Fetching}

theorem WaitsForLatest.disciplined (waits : state.WaitsForLatest) : state.Disciplined where
  waitsForLatest := waits
  showsLatest := waits.shows
  movingAsksNothing _ isMove control := state.app.accepted_moveKey control isMove
  flushAsksForRow := state.app.accepted_flushSelection
  keyRetries := state.app.retriesRefused_handleKey
  flushRetries := state.app.retriesRefused_flushSelection

theorem disciplined_run (server : ServerInfo) (url : Str) (tx : Sender)
    (inputs : List FetchingInput) :
    (run step { app := App.new server url tx } inputs).Disciplined := by
  have preserves (state : Fetching) (input : FetchingInput) (waits : state.WaitsForLatest) :
      (step state input).WaitsForLatest := waits.step input
  have initially : WaitsForLatest { app := App.new server url tx } := nofun
  exact (run_invariant_of_step preserves initially inputs).disciplined

end Fetching

end Keylens.Tui
