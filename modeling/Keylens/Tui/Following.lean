import Keylens.Tui.Blame
import Keylens.Tui.Cursors

/-!
# Whether a cursor move is followed by a fetch

A move marks the row under the cursor as one to be fetched, or fetches it at once.
The jump to the parent and a tree that no longer lists the row under the cursor
move the cursor too, and do neither.
-/

namespace Keylens.Tui

open Keylens.Library Keylens.Connection Keylens.BullMq Keylens.Ui Keylens.Backend

namespace Core

/-- The value pane is for a row: it waits for the key or shows it, and it is empty
for a row without one. -/
def ShowsRow (core : Core) (row : Row) : Prop :=
  if row.isKey then core.pendingKey = some row.path
  else core.detail = none ∧ core.pendingKey = none

/-- The value pane is for the row under the cursor. -/
def Fetched (core : Core) : Prop :=
  ∀ row, core.selectedRow = some row → core.ShowsRow row

/-- If the cursor is on another path now, then the row is to be fetched or has
been. -/
def Followed (before after : Core) : Prop :=
  after.path ≠ before.path → after.selectionDirty ∨ after.Fetched

/-- The row under the cursor, if any, is not among the rows of a tree. -/
def Loses (core : Core) (tree : KeyTree) : Prop :=
  ∀ row ∈ tree.rows, core.path ≠ some row.path

/-- A move to a row needs no fetch: one is due anyway, or the pane is for that row
already. -/
def CanLandOn (core : Core) (row : Row) : Prop :=
  core.selectionDirty ∨ core.ShowsRow row

variable {core : Core}

/-- A flush fetches what is under the cursor, unless it is left to be fetched. -/
theorem fetched_flush (core : Core) : core.flush.selectionDirty ∨ core.flush.Fetched := by
  rw [flush]
  cases selected : core.selectedRow with
  | none =>
      right
      intro row here
      cases selected.symm.trans here
  | some row =>
      dsimp only
      split
      next noKey =>
          right
          intro other here
          cases selected.symm.trans here
          rw [ShowsRow, if_neg (by simpa using noKey)]
          exact ⟨rfl, rfl⟩
      next isKey =>
          have isKey : row.isKey := by simpa using isKey
          split
          next asked =>
              right
              intro other here
              cases selected.symm.trans here
              rw [ShowsRow, if_pos isKey]
              exact asked
          next =>
              split
              · right
                intro other here
                rcases core.send_eq (.select row.path) with ⟨error, tx, sent, _⟩
                rw [sent] at here ⊢
                cases selected.symm.trans here
                rw [ShowsRow, if_pos isKey]
              · exact .inl rfl

/-- A cursor that walks marks the row it comes to. -/
theorem followed_walk (core : Core) (delta : Int) : core.Followed (core.walk delta) := by
  intro moved
  rw [walk] at moved ⊢
  dsimp only at moved ⊢
  split at moved
  · exact absurd rfl moved
  next nonempty =>
      split at moved
      next next =>
          rw [if_neg nonempty, if_pos next]
          exact .inl rfl
      next => exact absurd rfl moved

/-- Nothing but the cursor and the rows changes. -/
theorem followed_iff_of_landing {after : Core} {row : Row} (moved : after.path ≠ core.path)
    (landed : after.selectedRow = some row) (dirty : after.selectionDirty = core.selectionDirty)
    (detail : after.detail = core.detail) (pending : after.pendingKey = core.pendingKey) :
    core.Followed after ↔ core.CanLandOn row := by
  have shows : after.Fetched ↔ core.ShowsRow row := by
    simp only [Fetched, landed, Option.some.injEq, forall_eq', ShowsRow, detail, pending]
  rw [Followed, CanLandOn, shows, dirty]
  exact forall_prop_of_true moved

end Core

/-- A key press leaves the cursor on its path, or marks or fetches the row that it
comes to, or that row needs no fetch. -/
def Intent.Settled (core : Core) : Intent → Prop
  | .jumpToParent =>
      ∀ parent row, core.parentRow = some parent → core.rows[parent]? = some row →
        core.CanLandOn row
  | .retree tree =>
      core.Loses tree →
        ∀ row, tree.rows[min core.selected (tree.rows.length - 1)]? = some row →
          core.CanLandOn row
  | _ => True

namespace Intent

variable {core : Core}

theorem followed_jump_iff (core : Core) :
    core.Followed (jumpToParent.run core) ↔ jumpToParent.Settled core := by
  rw [run, Settled]
  cases found : core.parentRow with
  | none =>
      apply iff_of_true
      · exact fun moved => absurd rfl moved
      · intro _ _ isParent
        cases isParent
  | some parent =>
      have moved := Core.path_jump found
      rcases Option.bind_eq_some_iff.mp found with ⟨row, _, above⟩
      rcases Option.bind_eq_some_iff.mp above with ⟨split, _, position⟩
      have inside := (List.findIdx?_eq_some_iff_getElem.mp position).1
      have landed : core.rows[parent]? = some core.rows[parent] := List.getElem?_eq_getElem inside
      have landing : core.Followed { core with selected := parent } ↔
          core.CanLandOn core.rows[parent] :=
        Core.followed_iff_of_landing moved landed rfl rfl rfl
      dsimp only
      rw [landing]
      constructor
      · intro lands other row isParent isRow
        cases isParent
        cases landed.symm.trans isRow
        exact lands
      · exact fun settled => settled parent _ rfl landed

/-- A tree that lists the path under the cursor keeps the cursor on it; otherwise the
cursor stays where it is, as far as there are rows. -/
theorem followed_retree_iff (core : Core) (tree : KeyTree) :
    core.Followed ((retree tree).run core) ↔ (retree tree).Settled core := by
  rw [run, Settled]
  by_cases loses : core.Loses tree
  · have anchor : (core.selectedRow.bind fun row =>
        tree.rows.findIdx? fun other => other.path = row.path) = none := by
      cases selected : core.selectedRow with
      | none => rfl
      | some row =>
          rw [Option.bind_some, List.findIdx?_eq_none_iff]
          intro other member
          have apart := loses other member
          rw [Core.path, selected, Option.map_some, ne_eq, Option.some_inj] at apart
          exact decide_eq_false fun same => apart same.symm
    have landing : (core.rebuild tree).selectedRow =
        tree.rows[min core.selected (tree.rows.length - 1)]? := by
      rw [Core.rebuild, anchor]
      rfl
    cases landed : tree.rows[min core.selected (tree.rows.length - 1)]? with
    | none =>
        apply iff_of_true
        · intro _
          right
          intro row here
          cases (landing.trans landed).symm.trans here
        · intro _ _ here
          cases here
    | some row =>
        have moved : (core.rebuild tree).path ≠ core.path := by
          rw [Core.path, landing, landed, Option.map_some]
          exact (loses row (List.mem_of_getElem? landed)).symm
        rw [Core.followed_iff_of_landing moved (landing.trans landed) rfl rfl rfl]
        constructor
        · rintro lands _ other ⟨⟩
          exact lands
        · exact fun settled => settled loses row rfl
  · have listed : ∃ row ∈ tree.rows, core.path = some row.path := by
      simpa [Core.Loses] using loses
    rcases listed with ⟨row, member, here⟩
    have stays : (core.rebuild tree).path = some row.path :=
      (Core.path_rebuild here tree).mpr ⟨row, member, rfl⟩
    apply iff_of_true
    · intro moved
      exact absurd (stays.trans here.symm) moved
    · exact fun lost => absurd lost loses

/-- What is said of the cursor is said of every intent. -/
theorem followed_run_iff (intent : Intent) (core : Core) :
    core.Followed (intent.run core) ↔ intent.Settled core := by
  cases intent with
  | jumpToParent => exact followed_jump_iff core
  | retree tree => exact followed_retree_iff core tree
  | walk delta => exact iff_of_true (core.followed_walk delta) trivial
  | fetchFirst | fetchLast | fetchHere =>
      exact iff_of_true (fun _ => Core.fetched_flush _) trivial
  | _ => exact iff_of_true (fun moved => absurd (path_run rfl core) moved) trivial

end Intent

namespace App

/-- In every run, a key press that puts the cursor on another path marks or fetches
the row there exactly when it neither jumps to the parent nor loses the row under the
cursor, unless a fetch is due anyway or the pane is for the row already. -/
theorem cursor_move_followed_iff (server : ServerInfo) (url : Str) (tx : Sender)
    (inputs : List AppInput) (key : KeyEvent) (channel : Channel) :
    let app := run step (App.new server url tx) inputs
    app.core.Followed (app.step (.key key channel)).core ↔
      (app.intent key).Settled app.core := by
  intro app
  let before : App := { app with tx := { channel } }
  have acts : (app.step (.key key channel)).core = (before.intent key).run before.core :=
    before.core_handleKey key
  rw [acts]
  exact (before.intent key).followed_run_iff before.core

/-- The branch `a` is opened, and its key `a:y` is fetched and shown. -/
def showSecondKey : List AppInput :=
  [.update (.batch [("a:x".toList, none), ("a:y".toList, none)] true true 1),
    .key { code := .enter } .room, .key { code := .end' } .room,
    .update (.detail
      { key := "a:y".toList, kind := .string, ttlMs := none, size := 0, memory := none }
      (.string []) none)]

/-- The jump from `a:y` to `a` leaves the value of `a:y` on the screen, and nothing
will be fetched. -/
theorem jump_leaves_previous_value :
    let app := run step (App.new { vendor := .redis, version := [], mode := [], fields := [] }
      "redis://localhost".toList { channel := .room }) showSecondKey
    let after := app.step (.key { code := .char 'h' } .room)
    (app.mode = .normal ∧ app.view = .keys ∧ app.focus = .tree) ∧
      app.core.path = some "a:y".toList ∧ after.core.path = some "a".toList ∧
      after.detail.map (fun detail => detail.1.key) = some "a:y".toList ∧
      ¬app.core.Followed after.core := by
  intro app after
  have here : app.core.path = some "a:y".toList := by decide +kernel
  have there : after.core.path = some "a".toList := by decide +kernel
  have shown : after.detail.map (fun detail => detail.1.key) = some "a:y".toList := by
    decide +kernel
  refine ⟨⟨by decide +kernel, by decide +kernel, by decide +kernel⟩, here, there, shown, ?_⟩
  intro followed
  have moved : after.core.path ≠ app.core.path := by
    rw [here, there]
    decide
  rcases followed moved with dirty | fetched
  · revert dirty
    decide +kernel
  · have branch : after.core.selectedRow.any (fun row => !row.isKey) := by decide +kernel
    rcases (Option.any_eq_true ..).mp branch with ⟨row, selected, noKey⟩
    have shows := fetched row selected
    rw [Core.ShowsRow, if_neg (by simpa using noKey)] at shows
    rw [show after.detail = none from shows.1] at shown
    cases shown

end App

end Keylens.Tui
