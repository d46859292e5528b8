import Keylens.Tui.Apply
import Keylens.Tui.Intent
import Keylens.Library.Machine
import Keylens.Library.Runs

/-!
# Cursors inside their lists

The rows are those of the tree, and every cursor stands inside the list it moves
in.  The functions whose names end in a question mark are the handlers as the
machine runs them: they are `none` where the arithmetic of a cursor or of a time
overflows or an index is out of range.  All that is left out of them saturates,
looks up with `get`, or counts keys or events one by one.
-/

namespace Keylens.Tui

open Keylens.Library Keylens.Connection Keylens.BullMq Keylens.Ui Keylens.Backend

/-- A cursor stands on an item, or at the start of an empty list. -/
def Inside {α : Type} (cursor : Nat) (list : List α) : Prop :=
  cursor < list.length ∨ list = [] ∧ cursor = 0

/-- The rows are those of the tree, and the cursors stand inside their lists. -/
structure Core.Consistent (core : Core) : Prop where
  rows : core.rows = core.tree.rows
  selected : Inside core.selected core.rows
  queueSelected : ∀ list, core.queues = .ready list → Inside core.queueSelected list
  jobSelected : ∀ list, core.jobs = .ready list → Inside core.jobSelected list

/-! ## Where a cursor is put -/

section Inside

variable {α : Type} {list : List α}

theorem inside_zero : Inside 0 list := by
  cases list with
  | nil => exact .inr ⟨rfl, rfl⟩
  | cons => exact .inl (Nat.zero_lt_succ _)

theorem inside_min (cursor : Nat) : Inside (min cursor (list.length - 1)) list := by
  cases list with
  | nil => exact .inr ⟨rfl, by simp⟩
  | cons head list => exact .inl (by simp)

theorem inside_last : Inside (list.length - 1) list := by
  have least : Inside (min (list.length - 1) (list.length - 1)) list := inside_min _
  simpa using least

theorem inside_stepCursor (cursor : Nat) (delta : Int) (nonempty : list.length ≠ 0) :
    Inside (App.stepCursor cursor delta list.length) list := by
  left
  rw [App.stepCursor]
  omega

theorem inside_findIdx {accept : α → Bool} {i : Nat} (found : list.findIdx? accept = some i) :
    Inside i list := by
  left
  rw [List.findIdx?_eq_some_iff_findIdx_eq] at found
  exact found.1

end Inside

/-! ## Updates -/

namespace App

variable {app : App}

theorem consistent_rebuild (app : App)
    (queueSelected : ∀ list, app.queues = .ready list → Inside app.queueSelected list)
    (jobSelected : ∀ list, app.jobs = .ready list → Inside app.jobSelected list) :
    app.rebuild.core.Consistent where
  rows := rfl
  selected := inside_min _
  queueSelected := queueSelected
  jobSelected := jobSelected

theorem consistent_apply (consistent : app.core.Consistent) (update : Update) :
    (app.apply update).core.Consistent := by
  cases update with
  | batch keys reset complete scannedPages =>
      apply consistent_rebuild
      · cases reset <;> exact consistent.queueSelected
      · cases reset <;> exact consistent.jobSelected
  | detail keyMeta value stream =>
      rw [apply, applyDetail]
      split <;> exact ⟨consistent.rows, consistent.selected, consistent.queueSelected,
        consistent.jobSelected⟩
  | queues queues =>
      refine ⟨consistent.rows, consistent.selected, ?_, consistent.jobSelected⟩
      rintro list ready
      cases queues <;> cases ready
      exact inside_min _
  | jobs jobState jobs =>
      rw [apply, applyJobs]
      split
      · refine ⟨consistent.rows, consistent.selected, consistent.queueSelected, ?_⟩
        rintro list ready
        cases jobs <;> cases ready
        exact inside_min _
      · exact consistent
  | _ =>
      exact ⟨consistent.rows, consistent.selected, consistent.queueSelected,
        consistent.jobSelected⟩

end App

/-! ## Key presses -/

namespace Core

variable {core after : Core}

/-- The tree, the lists and the cursors. -/
def cursors (core : Core) :=
  (core.tree, core.rows, core.selected, core.queues, core.queueSelected, core.jobs,
    core.jobSelected)

theorem Consistent.of_cursors (consistent : core.Consistent)
    (same : after.cursors = core.cursors) : after.Consistent := by
  simp only [cursors, Prod.mk.injEq] at same
  rcases same with ⟨tree, rows, selected, queues, queueSelected, jobs, jobSelected⟩
  constructor
  · rw [rows, tree, consistent.rows]
  · rw [selected, rows]
    exact consistent.selected
  · rw [queues, queueSelected]
    exact consistent.queueSelected
  · rw [jobs, jobSelected]
    exact consistent.jobSelected

theorem cursors_send (core : Core) (request : Request) :
    (core.send request).cursors = core.cursors := by
  rcases core.send_eq request with ⟨error, tx, sent, _⟩
  rw [sent]
  rfl

theorem cursors_flush (core : Core) : core.flush.cursors = core.cursors := by
  rcases core.flush_eq with ⟨detail, pendingKey, selectionDirty, error, tx, flushed, _⟩
  rw [flushed]
  rfl

/-- What is awaited is not there yet. -/
theorem awaited_ne_ready {α : Type} (core : Core) (value : α) : core.awaited ≠ .ready value := by
  rw [awaited]
  split
  all_goals
    intro ready
    cases ready

theorem Consistent.loadJobs (consistent : core.Consistent) : core.loadJobs.Consistent := by
  rw [Core.loadJobs]
  split
  · exact consistent
  next queue _ =>
      have sent := consistent.of_cursors (core.cursors_send (.loadJobs queue.name core.jobState))
      exact ⟨sent.rows, sent.selected, sent.queueSelected,
        fun list ready => absurd ready (core.awaited_ne_ready list)⟩

theorem Consistent.loadJob (consistent : core.Consistent) : core.loadJob.Consistent := by
  rw [Core.loadJob]
  split
  next queue job _ _ =>
      have sent := consistent.of_cursors (core.cursors_send (.loadJob queue.name job.id))
      exact ⟨sent.rows, sent.selected, sent.queueSelected, sent.jobSelected⟩
  · exact consistent

theorem Consistent.walk (consistent : core.Consistent) (delta : Int) :
    (core.walk delta).Consistent := by
  rw [Core.walk]
  dsimp only
  split
  · exact consistent
  next nonempty =>
      split
      · refine ⟨consistent.rows, ?_, consistent.queueSelected, consistent.jobSelected⟩
        apply inside_stepCursor
        simpa using nonempty
      · exact consistent

theorem Consistent.moveQueue (consistent : core.Consistent) (delta : Int) :
    (core.moveQueue delta).Consistent := by
  rw [Core.moveQueue]
  split
  · exact consistent
  next nonempty =>
      refine ⟨consistent.rows, consistent.selected, ?_, consistent.jobSelected⟩
      intro list ready
      have listed : core.queues = .ready list := ready
      simp only [listed, PaneState.ready?, Option.map_some, Option.getD_some] at nonempty ⊢
      exact inside_stepCursor _ _ nonempty

theorem Consistent.moveJob (consistent : core.Consistent) (delta : Int) :
    (core.moveJob delta).Consistent := by
  rw [Core.moveJob]
  split
  · exact consistent
  next nonempty =>
      refine ⟨consistent.rows, consistent.selected, consistent.queueSelected, ?_⟩
      intro list ready
      have listed : core.jobs = .ready list := ready
      simp only [listed, PaneState.ready?, Option.map_some, Option.getD_some] at nonempty ⊢
      exact inside_stepCursor _ _ nonempty

/-- Put the cursor on a row and fetch it. -/
theorem Consistent.fetch (consistent : core.Consistent) {selected : Nat}
    (inside : Inside selected core.rows) :
    ({ core with selected }.touch.flush).Consistent := by
  have moved : ({ core with selected } : Core).touch.Consistent :=
    ⟨consistent.rows, inside, consistent.queueSelected, consistent.jobSelected⟩
  exact moved.of_cursors (cursors_flush _)

/-- Every intent keeps the cursors inside their lists. -/
theorem Consistent.run (consistent : core.Consistent) (intent : Intent) :
    (intent.run core).Consistent := by
  cases intent with
  | stay => exact consistent
  | rescan | more | refreshInfo => exact consistent.of_cursors (core.cursors_send _)
  | loadSlowlog | loadClients | loadCluster | loadPubSub =>
      exact consistent.of_cursors (core.cursors_send _)
  | loadQueues =>
      have sent := consistent.of_cursors (core.cursors_send .loadQueues)
      exact ⟨sent.rows, sent.selected,
        fun list ready => absurd ready (core.awaited_ne_ready list), sent.jobSelected⟩
  | listJobs => exact consistent.loadJobs
  | showJob => exact consistent.loadJob
  | openQueue | cycle =>
      apply loadJobs
      exact ⟨consistent.rows, consistent.selected, consistent.queueSelected,
        fun _ _ => inside_zero⟩
  | openJob =>
      apply loadJob
      exact consistent.of_cursors rfl
  | leave => exact consistent.of_cursors rfl
  | moveQueue delta => exact consistent.moveQueue delta
  | moveJob delta => exact consistent.moveJob delta
  | retree tree =>
      exact ⟨rfl, inside_min _, consistent.queueSelected, consistent.jobSelected⟩
  | jumpToParent =>
      rw [Intent.run]
      split
      next parent =>
          refine ⟨consistent.rows, ?_, consistent.queueSelected, consistent.jobSelected⟩
          rcases Option.bind_eq_some_iff.mp parent with ⟨row, _, above⟩
          rcases Option.bind_eq_some_iff.mp above with ⟨split, _, found⟩
          exact inside_findIdx found
      next => exact consistent
  | walk delta => exact consistent.walk delta
  | fetchFirst => exact consistent.fetch inside_zero
  | fetchLast => exact consistent.fetch inside_last
  | fetchHere => exact consistent.fetch consistent.selected

end Core

/-! ## Cursors on a 64-bit machine -/

namespace App

open Machine

def moveCursor? (app : App) (delta : Int) : Option App :=
  if app.rows.isEmpty then some app
  else do
    let last ← unsigned (app.rows.length - 1)
    let moved ← signed (asSigned app.selected + delta)
    let next ← Machine.clamp moved 0 (asSigned last)
    let next := asUnsigned next
    if next ≠ app.selected then some ({ app with selected := next } : App).touchSelection
    else some app

def stepCursor? (cursor : Nat) (delta : Int) (len : Nat) : Option Nat := do
  let last ← unsigned (len - 1)
  let moved ← Machine.clamp (saturatingAdd (asSigned cursor) delta) 0 (asSigned last)
  some (asUnsigned moved)

def moveQueueCursor? (app : App) (delta : Int) : Option App :=
  match app.level with
  | .queues =>
      let len := ((app.queues.ready?).map List.length).getD 0
      if len = 0 then some app
      else do
        let queueSelected ← stepCursor? app.queueSelected delta len
        some { app with queueSelected }
  | .jobs =>
      let len := ((app.jobs.ready?).map List.length).getD 0
      if len = 0 then some app
      else do
        let jobSelected ← stepCursor? app.jobSelected delta len
        some { app with jobSelected }
  | .job =>
      if 0 < delta then
        some { app with paneScroll := scrollAdd app.paneScroll (asWord (min delta 20)) }
      else do
        let lines ← signed (-delta)
        some { app with paneScroll := app.paneScroll - asWord (min lines 20) }

def nextState? (state : State) (delta : Int) : Option State := do
  let i := (State.all.idxOf? state).getD 0
  let next ← signed (asSigned i + delta)
  State.all[asUnsigned (next % asSigned State.all.length)]?

def cycleState? (app : App) (delta : Int) : Option App :=
  if app.level = .queues then some app
  else do
    let jobState ← nextState? app.jobState delta
    some ({ app with jobState, jobSelected := 0, level := .jobs } : App).loadJobs

def nextKind? (kind : Option Kind) : Option (Option Kind) := do
  let next ← unsigned ((kindCycle.idxOf? kind).getD 0 + 1)
  kindCycle[next % kindCycle.length]?

def handleTreeKey? (app : App) (key : KeyEvent) : Option App :=
  match key.code with
  | .down | .char 'j' => app.moveCursor? 1
  | .up | .char 'k' => app.moveCursor? (-1)
  | .pageDown => app.moveCursor? 10
  | .pageUp => app.moveCursor? (-10)
  | _ => some (app.handleTreeKey key)

def handleKeysViewKey? (app : App) (key : KeyEvent) : Option App :=
  match key.code with
  | .tab | .char '/' | .esc | .char 'm' | .char 'E' | .char 'C' =>
      some (app.handleKeysViewKey key)
  | .char 't' => do
      let kindFilter ← nextKind? app.kindFilter
      some ({ app with kindFilter } : App).rescan
  | _ =>
      if app.focus = .value then some (app.handleValueKey key) else app.handleTreeKey? key

def handleQueuesKey? (app : App) (key : KeyEvent) : Option App :=
  match key.code with
  | .down | .char 'j' => app.moveQueueCursor? 1
  | .up | .char 'k' => app.moveQueueCursor? (-1)
  | .pageDown => app.moveQueueCursor? 10
  | .pageUp => app.moveQueueCursor? (-10)
  | .home | .char 'g' => app.moveQueueCursor? toStart
  | .end' | .char 'G' => app.moveQueueCursor? toEnd
  | .char '[' => app.cycleState? (-1)
  | .char ']' => app.cycleState? 1
  | _ => some (app.handleQueuesKey key)

def handleViewKey? (app : App) (key : KeyEvent) : Option App :=
  match app.view with
  | .keys => app.handleKeysViewKey? key
  | .queues => app.handleQueuesKey? key
  | _ => some (app.handlePaneKey key)

def handleNormalKey? (app : App) (key : KeyEvent) : Option App :=
  match key.code with
  | .char 'q' | .char '?' | .char 'r' => some (app.handleNormalKey key)
  | .char c => if c.isDigit then some (app.handleNormalKey key) else app.handleViewKey? key
  | _ => app.handleViewKey? key

def handleKey? (app : App) (key : KeyEvent) : Option App :=
  if key.control ∧ key.code = .char 'c' then some (app.handleKey key)
  else
    match app.mode with
    | .normal => ({ app with splash := false } : App).handleNormalKey? key
    | _ => some (app.handleKey key)

/-- The lists fit in memory: a vector has at most `isize::MAX` bytes, and none of
these has items of fewer than 16 bytes. -/
structure Fits (app : App) : Prop where
  rows : app.rows.length < 2 ^ 59
  queues : ∀ list, app.queues = .ready list → list.length < 2 ^ 59
  jobs : ∀ list, app.jobs = .ready list → list.length < 2 ^ 59

section StepCursor

variable {cursor len : Nat} {delta : Int}

theorem unsigned_last (nonempty : len ≠ 0) (small : len < 2 ^ 59) :
    unsigned ((len : Int) - 1) = some (len - 1) := by
  rw [show (len : Int) - 1 = (len - 1 : Nat) by omega]
  exact unsigned_eq (by omega)

/-- A cursor is cast back without loss. -/
theorem asUnsigned_stepCursor (small : len < 2 ^ 59) :
    asUnsigned (max 0 (min (cursor + delta) (len - 1 : Nat))) = stepCursor cursor delta len :=
  asUnsigned_eq (by omega) (by omega)

theorem stepCursor?_eq (nonempty : len ≠ 0) (small : len < 2 ^ 59) (inside : cursor < len)
    (low : toStart ≤ delta) (high : delta ≤ toEnd) :
    stepCursor? cursor delta len = some (stepCursor cursor delta len) := by
  rw [toStart] at low
  rw [toEnd] at high
  have sum : saturatingAdd cursor delta = cursor + delta :=
    saturatingAdd_eq ⟨by omega, by omega⟩
  have last : asSigned (len - 1) = (len - 1 : Nat) := asSigned_eq (by omega)
  rw [stepCursor?, unsigned_last nonempty small, asSigned_eq (by omega), sum]
  simp only [Option.bind_eq_bind, Option.bind_some, last]
  rw [clamp_eq (by omega)]
  simp only [Option.bind_some, asUnsigned_stepCursor small]

end StepCursor

variable {app : App} {delta : Int}

theorem moveCursor?_eq (consistent : app.core.Consistent) (fits : app.Fits)
    (low : toStart ≤ delta) (high : delta ≤ toEnd) :
    app.moveCursor? delta = some (app.moveCursor delta) := by
  rw [toStart] at low
  rw [toEnd] at high
  have small := fits.rows
  rw [moveCursor?, moveCursor]
  split
  · rfl
  next nonempty =>
      have length : app.rows.length ≠ 0 := by simpa using nonempty
      have inside : app.selected < app.rows.length := by
        rcases consistent.selected with inside | ⟨empty, _⟩
        · exact inside
        · exact absurd (congrArg List.length empty) length
      have cursor : asSigned app.selected = app.selected := asSigned_eq (by omega)
      have last : asSigned (app.rows.length - 1) = (app.rows.length - 1 : Nat) :=
        asSigned_eq (by omega)
      have sum : signed (app.selected + delta) = some (app.selected + delta) :=
        signed_eq ⟨by omega, by omega⟩
      rw [unsigned_last length small, cursor, sum]
      simp only [Option.bind_eq_bind, Option.bind_some, last]
      rw [clamp_eq (by omega)]
      simp only [Option.bind_some, asUnsigned_stepCursor small]
      split <;> rfl

theorem moveQueueCursor?_eq (consistent : app.core.Consistent) (fits : app.Fits)
    (low : toStart ≤ delta) (high : delta ≤ toEnd) :
    app.moveQueueCursor? delta = some (app.moveQueueCursor delta) := by
  rw [moveQueueCursor?, moveQueueCursor]
  cases app.level with
  | queues =>
      dsimp only
      split
      · rfl
      next nonempty =>
          cases listed : app.queues with
          | ready list =>
              rw [listed] at nonempty
              have inside : app.queueSelected < list.length := by
                rcases consistent.queueSelected list listed with inside | ⟨rfl, _⟩
                · exact inside
                · exact absurd rfl nonempty
              have moved := stepCursor?_eq nonempty (fits.queues list listed) inside low high
              exact congrArg (Option.bind · _) moved
          | _ =>
              rw [listed] at nonempty
              exact absurd rfl nonempty
  | jobs =>
      dsimp only
      split
      · rfl
      next nonempty =>
          cases listed : app.jobs with
          | ready list =>
              rw [listed] at nonempty
              have inside : app.jobSelected < list.length := by
                rcases consistent.jobSelected list listed with inside | ⟨rfl, _⟩
                · exact inside
                · exact absurd rfl nonempty
              have moved := stepCursor?_eq nonempty (fits.jobs list listed) inside low high
              exact congrArg (Option.bind · _) moved
          | _ =>
              rw [listed] at nonempty
              exact absurd rfl nonempty
  | job =>
      rw [toStart] at low
      dsimp only
      split
      · rw [asWord_eq (by omega) (by omega)]
      · have lines : signed (-delta) = some (-delta) := signed_eq ⟨by omega, by omega⟩
        rw [lines]
        simp only [Option.bind_eq_bind, Option.bind_some]
        rw [asWord_eq (by omega) (by omega)]

/-- The states are indexed in range. -/
theorem nextState?_eq (state : State) (small : delta = 1 ∨ delta = -1) :
    nextState? state delta = some (nextState state delta) := by
  cases state <;> rcases small with rfl | rfl <;> decide +kernel

theorem cycleState?_eq (small : delta = 1 ∨ delta = -1) :
    app.cycleState? delta = some (app.cycleState delta) := by
  rw [cycleState?, cycleState]
  split
  · rfl
  · rw [nextState?_eq app.jobState small]
    rfl

/-- So are the type filters. -/
theorem nextKind?_eq (kind : Option Kind) : nextKind? kind = some (nextKind kind) := by
  have position : (kindCycle.idxOf? kind).getD 0 < kindCycle.length := by
    cases found : kindCycle.idxOf? kind with
    | none => decide
    | some i =>
        rcases inside_findIdx found with inside | ⟨empty, _⟩
        · exact inside
        · cases empty
  rw [nextKind?, nextKind]
  generalize (kindCycle.idxOf? kind).getD 0 = i at position ⊢
  have short : kindCycle.length = 7 := rfl
  have next : unsigned ((i + 1 : Nat) : Int) = some (i + 1) := unsigned_eq (by omega)
  have inRange : (i + 1) % kindCycle.length < kindCycle.length := Nat.mod_lt _ (by omega)
  rw [show (i : Int) + 1 = (i + 1 : Nat) from rfl, next]
  simp only [Option.bind_eq_bind, Option.bind_some, List.getElem?_eq_getElem inRange,
    Option.getD_some]

/-! ## Key presses on a 64-bit machine -/

variable (key : KeyEvent)

theorem handleTreeKey?_eq (consistent : app.core.Consistent) (fits : app.Fits) :
    app.handleTreeKey? key = some (app.handleTreeKey key) := by
  have moved (delta : Int) (low : toStart ≤ delta) (high : delta ≤ toEnd) :
      app.moveCursor? delta = some (app.moveCursor delta) :=
    moveCursor?_eq consistent fits low high
  rw [handleTreeKey?]
  split
  case h_7 => rfl
  all_goals
      next code =>
        rw [moved _ (by decide) (by decide), handleTreeKey]
        simp only [code]

theorem handleKeysViewKey?_eq (consistent : app.core.Consistent) (fits : app.Fits) :
    app.handleKeysViewKey? key = some (app.handleKeysViewKey key) := by
  have focused : (if app.focus = .value then some (app.handleValueKey key)
      else app.handleTreeKey? key) =
        some (if app.focus = .value then app.handleValueKey key else app.handleTreeKey key) := by
    split
    · rfl
    · exact handleTreeKey?_eq key consistent fits
  rw [handleKeysViewKey?]
  split
  case h_7 code =>
      rw [nextKind?_eq, handleKeysViewKey, code]
      rfl
  case h_8 =>
      rw [focused, handleKeysViewKey]
      generalize (if app.focus = .value then _ else _) = shown
      split
      case h_8 => rfl
      all_goals contradiction
  all_goals rfl

theorem handleQueuesKey?_eq (consistent : app.core.Consistent) (fits : app.Fits) :
    app.handleQueuesKey? key = some (app.handleQueuesKey key) := by
  have moved (delta : Int) (low : toStart ≤ delta) (high : delta ≤ toEnd) :
      app.moveQueueCursor? delta = some (app.moveQueueCursor delta) :=
    moveQueueCursor?_eq consistent fits low high
  rw [handleQueuesKey?]
  split
  case h_11 code | h_12 code =>
      rw [cycleState?_eq (by decide), handleQueuesKey]
      simp only [code]
  case h_13 => rfl
  all_goals
      next code =>
        rw [moved _ (by decide) (by decide), handleQueuesKey]
        simp only [code]

theorem handleViewKey?_eq (consistent : app.core.Consistent) (fits : app.Fits) :
    app.handleViewKey? key = some (app.handleViewKey key) := by
  rw [handleViewKey?, handleViewKey]
  cases app.view with
  | keys => exact handleKeysViewKey?_eq key consistent fits
  | queues => exact handleQueuesKey?_eq key consistent fits
  | stats | slowlog | clients | cluster | pubSub => rfl

theorem handleNormalKey?_eq (consistent : app.core.Consistent) (fits : app.Fits) :
    app.handleNormalKey? key = some (app.handleNormalKey key) := by
  have viewed := handleViewKey?_eq key consistent fits
  rw [handleNormalKey?]
  split
  case h_4 c _ _ _ code =>
      split
      next => rfl
      next letter =>
          rw [viewed, handleNormalKey]
          split
          case h_1 typed | h_2 typed | h_3 typed =>
              cases code.symm.trans typed
              contradiction
          case h_4 typed =>
              cases code.symm.trans typed
              rw [if_neg letter]
          case h_5 untyped => exact (untyped c code).elim
  case h_5 untyped =>
      rw [viewed, handleNormalKey]
      split
      case h_1 typed | h_2 typed | h_3 typed => exact (untyped _ typed).elim
      case h_4 c _ _ _ typed => exact (untyped c typed).elim
      case h_5 => rfl
  all_goals rfl

theorem handleKey?_eq (consistent : app.core.Consistent) (fits : app.Fits) :
    app.handleKey? key = some (app.handleKey key) := by
  let shown : App := { app with splash := false }
  have pressed : shown.handleNormalKey? key = some (shown.handleNormalKey key) :=
    handleNormalKey?_eq key consistent ⟨fits.rows, fits.queues, fits.jobs⟩
  rw [handleKey?]
  split
  next => rfl
  next typed =>
      split
      next mode =>
          rw [handleKey, if_neg typed]
          dsimp only
          split
          next help => cases mode.symm.trans help
          next search => cases mode.symm.trans search
          next => exact pressed
      next => rfl

end App

/-! ## Updates on a 64-bit machine -/

section Record

open Machine

/-- The bucket of a second, which is indexed and inserted by position. -/
def place? (buckets : List Bucket) (second : Int) : Option (List Bucket × Nat) :=
  match rposition (fun bucket => bucket.second ≤ second) buckets with
  | some i => do
      let bucket ← buckets[i]?
      if bucket.second = second then some (buckets, i)
      else if i + 1 ≤ buckets.length then some (buckets.insertIdx (i + 1) { second }, i + 1)
      else none
  | none => some ({ second } :: buckets, 0)

def record? (series : Series) (kind : EventKind) (second : Int) : Option Series := do
  let newest := (series.buckets.getLast?.map Bucket.second).getD second
  let expiry ← signed (second + windowSecs)
  if expiry ≤ newest then some series
  else
    let (buckets, idx) ← place? series.buckets second
    let _ ← buckets[idx]?
    some (series.record kind second)

def recordEvent? (throughput : Throughput) (event : StreamEvent) : Option Throughput := do
  let series := (throughput.entries.lookup event.queue).getD {}
  let series ← record? series event.kind (event.atMs.tdiv 1000)
  some { throughput with entries := throughput.entries.insert event.queue series }

def App.applyUpdate? (app : App) : Update → Option App
  | .events events => do
      let throughput ← events.foldlM recordEvent? app.throughput
      some { app with throughput }
  | update => some (app.apply update)

/-- The times of the events are `i64` values. -/
def HasTimes : Update → Prop
  | .events events => ∀ event ∈ events, InSigned event.atMs
  | _ => True

/-- A bucket is looked up and inserted in range. -/
theorem place?_eq (buckets : List Bucket) (second : Int) :
    place? buckets second = some (Series.place buckets second) ∧
      (Series.place buckets second).2 < (Series.place buckets second).1.length := by
  rw [place?, Series.place]
  cases found : rposition (fun bucket => bucket.second ≤ second) buckets with
  | none => exact ⟨rfl, Nat.zero_lt_succ _⟩
  | some i =>
      have inside := rposition_lt found
      simp only [List.getElem?_eq_getElem inside, Option.bind_eq_bind, Option.bind_some,
        Option.any_some, decide_eq_true_eq]
      split
      · exact ⟨rfl, inside⟩
      · have room : i + 1 ≤ buckets.length := inside
        rw [if_pos room, List.length_insertIdx_of_le_length room]
        exact ⟨rfl, Nat.succ_lt_succ inside⟩

theorem record?_eq (series : Series) (kind : EventKind) {second : Int}
    (expires : InSigned (second + windowSecs)) :
    record? series kind second = some (series.record kind second) := by
  rcases place?_eq series.buckets second with ⟨placed, inside⟩
  rw [record?, signed_eq expires]
  simp only [Option.bind_eq_bind, Option.bind_some, placed, List.getElem?_eq_getElem inside]
  split
  next expired => rw [Series.record, if_pos expired]
  next => rfl

theorem recordEvent?_eq (throughput : Throughput) {event : StreamEvent}
    (time : InSigned event.atMs) :
    recordEvent? throughput event =
      some (throughput.record event.queue event.kind event.atMs) := by
  have expires : InSigned (event.atMs.tdiv 1000 + windowSecs) := by
    have size : (event.atMs.tdiv 1000).natAbs = event.atMs.natAbs / 1000 := Int.natAbs_tdiv ..
    rw [InSigned] at time ⊢
    rw [windowSecs]
    omega
  rw [recordEvent?, record?_eq _ _ expires]
  rfl

theorem foldlM_recordEvent? {events : List StreamEvent} (throughput : Throughput)
    (times : ∀ event ∈ events, InSigned event.atMs) :
    events.foldlM recordEvent? throughput =
      some (events.foldl (fun throughput event =>
        throughput.record event.queue event.kind event.atMs) throughput) := by
  induction events generalizing throughput with
  | nil => rfl
  | cons event events ih =>
      rw [List.foldlM_cons, recordEvent?_eq throughput (times event (List.mem_cons_self ..))]
      exact ih _ fun later member => times later (List.mem_cons_of_mem _ member)

theorem App.applyUpdate?_eq (app : App) {update : Update} (times : HasTimes update) :
    app.applyUpdate? update = some (app.apply update) := by
  cases update with
  | events events =>
      rw [App.applyUpdate?, foldlM_recordEvent? app.throughput times]
      rfl
  | _ => rfl

end Record

/-! ## Every run -/

/-- What can happen to the app. -/
inductive AppInput where
  | key (event : KeyEvent) (channel : Channel)
  | flush (channel : Channel)
  | update (update : Update)

namespace App

def step (app : App) : AppInput → App
  | .key event channel => (app.act channel fun app => app.handleKey event).1
  | .flush channel => (app.act channel flushSelection).1
  | .update update => app.apply update

/-- The rows and cursors are consistent, and no key press and no update overflows or
indexes out of range, nor does a cursor that is moved as far as half of
`isize`. -/
structure Sound (app : App) : Prop where
  consistent : app.core.Consistent
  updates : ∀ update, HasTimes update → app.applyUpdate? update = some (app.apply update)
  keys : app.Fits → ∀ key tx,
    ({ app with tx } : App).handleKey? key = some (({ app with tx } : App).handleKey key)
  moves : app.Fits → ∀ delta, toStart ≤ delta → delta ≤ toEnd →
    app.moveCursor? delta = some (app.moveCursor delta) ∧
      app.moveQueueCursor? delta = some (app.moveQueueCursor delta)

theorem sound_of_consistent {app : App} (consistent : app.core.Consistent) : app.Sound where
  consistent := consistent
  updates _ times := app.applyUpdate?_eq times
  keys fits key _ :=
    handleKey?_eq key (consistent.of_cursors rfl) ⟨fits.rows, fits.queues, fits.jobs⟩
  moves fits _ low high :=
    ⟨moveCursor?_eq consistent fits low high, moveQueueCursor?_eq consistent fits low high⟩

theorem consistent_step {app : App} (consistent : app.core.Consistent) (input : AppInput) :
    (app.step input).core.Consistent := by
  cases input with
  | key event channel =>
      let before : App := { app with tx := { channel } }
      change (before.handleKey event).core.Consistent
      rw [core_handleKey]
      apply Core.Consistent.run
      exact consistent.of_cursors rfl
  | flush channel =>
      let before : App := { app with tx := { channel } }
      change before.flushSelection.core.Consistent
      rw [core_flushSelection]
      exact consistent.of_cursors (Core.cursors_flush _)
  | update update => exact consistent_apply consistent update

theorem sound_run (server : ServerInfo) (url : Str) (tx : Sender) (inputs : List AppInput) :
    (run step (App.new server url tx) inputs).Sound := by
  have preserves (app : App) (input : AppInput) (consistent : app.core.Consistent) :
      (step app input).core.Consistent := consistent_step consistent input
  have initially : (App.new server url tx).core.Consistent :=
    ⟨by rfl, .inr ⟨rfl, rfl⟩, nofun, nofun⟩
  exact sound_of_consistent (run_invariant_of_step preserves initially inputs)

end App

end Keylens.Tui
