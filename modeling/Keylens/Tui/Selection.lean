import Keylens.Tui.Input

/-!
# The selection

`Selection` is the part of the state that says which key is shown and which was
asked for.  A handler leaves it alone or fetches the key under the cursor.
-/

namespace Keylens.Tui

open Keylens.Library Keylens.Connection Keylens.BullMq Keylens.Ui Keylens.Backend

/-- The key that a request asks for. -/
def selectKey : Request → Option Str
  | .select key => some key
  | _ => none

/-- What the value pane shows and waits for, and the keys that were asked for. -/
structure Selection where
  pendingKey : Option Str
  detail : Option (KeyMeta × KeyValue)
  selects : List Str

namespace App

def selection (app : App) : Selection where
  pendingKey := app.pendingKey
  detail := app.detail
  selects := app.tx.accepted.filterMap selectKey

/-- A handler leaves the selection alone, or fetches the key under a cursor. -/
def SelectsOrKeeps (before after : App) : Prop :=
  after.selection = before.selection ∨
    ∃ flushed : App, flushed.selection = before.selection ∧
      after.selection = flushed.flushSelection.selection

/-- What fetching the key under the cursor comes to. -/
theorem flushSelection_cases (app : App) :
    app.flushSelection.selection = app.selection ∨
      app.flushSelection.selection =
        { app.selection with pendingKey := none, detail := none } ∨
      app.flushSelection.selection = { app.selection with pendingKey := none } ∨
      ∃ path, app.flushSelection.selection =
        { app.selection with
          pendingKey := some path
          selects := app.selection.selects ++ [path] } := by
  rw [flushSelection]
  dsimp only
  split
  · exact .inl rfl
  next row _ =>
      split
      · exact .inr (.inl rfl)
      · rw [fetch]
        split
        · exact .inl rfl
        · rw [send]
          dsimp only
          cases app.tx.channel with
          | room => exact .inr (.inr (.inr ⟨row.path, by simp [selection, selectKey]⟩))
          | full | closed => exact .inr (.inr (.inl rfl))

/-- What a handler can do to the selection: nothing, show nothing and wait for
nothing, wait for nothing, or ask for a key. -/
theorem SelectsOrKeeps.cases {before after : App} (effect : before.SelectsOrKeeps after) :
    after.selection = before.selection ∨
      after.selection = { before.selection with pendingKey := none, detail := none } ∨
      after.selection = { before.selection with pendingKey := none } ∨
      ∃ path, after.selection =
        { before.selection with
          pendingKey := some path
          selects := before.selection.selects ++ [path] } := by
  rcases effect with kept | ⟨flushed, same, fetched⟩
  · exact .inl kept
  · rw [fetched, ← same]
    exact flushed.flushSelection_cases

/-- After a handler, the key that is waited for was waited for before or has just
been asked for. -/
theorem SelectsOrKeeps.waits {before after : App} (effect : before.SelectsOrKeeps after)
    {key : Str} (pending : after.pendingKey = some key) :
    after.selection = before.selection ∨
      after.selection.selects = before.selection.selects ++ [key] := by
  have waiting : after.selection.pendingKey = some key := pending
  rcases effect.cases with kept | cleared | dropped | ⟨path, asked⟩
  · exact .inl kept
  · simp [cleared] at waiting
  · simp [dropped] at waiting
  · right
    rw [asked] at waiting ⊢
    cases waiting
    rfl

end App

end Keylens.Tui
