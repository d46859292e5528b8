import Keylens.Tui.Blame

/-!
# Where a batch leaves the cursor

A batch rebuilds the rows around the path under the cursor.  A batch that starts a
scan again drops the keys and puts the cursor on the first row before that, while the
rows are still those of the scan before: the path the rebuild then keeps is that of
the first row shown so far.
-/

namespace Keylens.Tui.App

open Keylens.Library Keylens.Connection Keylens.Ui Keylens.Backend

variable {app : App} {keys : List (Str × Option Kind)} {reset complete : Bool} {pages : Nat}

/-- The tree that a batch shows. -/
def batchTree (app : App) (keys : List (Str × Option Kind)) (reset : Bool) : KeyTree :=
  keys.foldl (fun tree (key, kind) => tree.insertWithKind key kind)
    (if reset then app.tree.clearKeys else app.tree)

/-- A batch keeps the cursor on its path, if that is still listed, and one that starts
a scan again puts the cursor on the first row. -/
def KeepsOrResets (before after : App) (reset : Bool) : Prop :=
  (reset = false → ∀ path, before.core.path = some path →
    (∃ row ∈ after.rows, row.path = path) → after.core.path = some path) ∧
  (reset = true → after.selected = 0)

/-- If the new scan lists the path of the first row shown so far, it lists it first. -/
def FirstStaysFirst (app : App) (keys : List (Str × Option Kind)) : Prop :=
  let rows := (app.batchTree keys true).rows
  ∀ first, app.rows.head? = some first →
    (∃ row ∈ rows, row.path = first.path) → rows.head?.map Row.path = some first.path

theorem core_applyBatch_keeps :
    (app.applyBatch keys false complete pages).core =
      ({ app with error := none } : App).core.rebuild (app.batchTree keys false) := rfl

/-- The first row with a path is the first of all rows exactly when that row has the
path. -/
theorem eq_zero_iff_of_findIdx? {rows : List Row} {path : Str} {i : Nat}
    (found : rows.findIdx? (fun row => row.path = path) = some i) :
    i = 0 ↔ rows.head?.map Row.path = some path := by
  cases rows with
  | nil => cases found
  | cons first rest =>
      rw [List.findIdx?_cons] at found
      split at found
      next here => cases found; simpa using here
      next apart =>
          rcases Option.map_eq_some_iff.mp found with ⟨later, _, rfl⟩
          simpa using apart

/-- A batch that keeps the scan keeps the cursor on its path. -/
theorem keeps_path {path : Str} (here : app.core.path = some path)
    (listed : ∃ row ∈ (app.applyBatch keys false complete pages).rows, row.path = path) :
    (app.applyBatch keys false complete pages).core.path = some path := by
  rw [core_applyBatch_keeps]
  exact (Core.path_rebuild here _).mpr listed

/-- A rebuild around the first row stays there unless that row has moved. -/
theorem selected_rebuild_of_first {core : Core} (first : core.selected = 0) (tree : KeyTree) :
    (core.rebuild tree).selected = 0 ↔
      ∀ row, core.rows.head? = some row →
        (∃ other ∈ tree.rows, other.path = row.path) →
          tree.rows.head?.map Row.path = some row.path := by
  rw [Core.rebuild, Core.selectedRow, first, ← List.head?_eq_getElem?]
  dsimp only
  cases core.rows.head? with
  | none => simp
  | some row =>
      rw [Option.bind_some]
      cases found : tree.rows.findIdx? (fun other => other.path = row.path) with
      | none =>
          rw [List.findIdx?_eq_none_iff] at found
          apply iff_of_true
          · exact Nat.zero_min _
          · rintro _ ⟨⟩ ⟨other, member, isHere⟩
            exact absurd isHere (by simpa using found other member)
      | some i =>
          rcases List.findIdx?_eq_some_iff_getElem.mp found with ⟨inside, isHere, _⟩
          have listed : ∃ other ∈ tree.rows, other.path = row.path :=
            ⟨_, List.getElem_mem inside, by simpa using isHere⟩
          rw [Option.getD_some, Nat.min_eq_left (by omega), eq_zero_iff_of_findIdx? found]
          constructor
          · rintro here _ ⟨⟩ _
            exact here
          · exact fun stays => stays row rfl listed

theorem selected_applyBatch_resets_iff :
    (app.applyBatch keys true complete pages).selected = 0 ↔ app.FirstStaysFirst keys :=
  let first : App := { app with error := none, selected := 0, detail := none }
  selected_rebuild_of_first (show first.core.selected = 0 from rfl) (app.batchTree keys true)

/-- A batch leaves the cursor where it should be, except that a scan that starts again
may leave it on a later row: where the first row shown so far has gone. -/
theorem batch_cursor_iff (app : App) (keys : List (Str × Option Kind)) (reset complete : Bool)
    (pages : Nat) :
    app.KeepsOrResets (app.apply (.batch keys reset complete pages)) reset ↔
      (reset = true → app.FirstStaysFirst keys) := by
  cases reset with
  | false =>
      refine iff_of_true ⟨fun _ path => keeps_path, nofun⟩ nofun
  | true =>
      constructor
      · exact fun kept _ => selected_applyBatch_resets_iff.mp (kept.2 rfl)
      · exact fun first => ⟨nofun, fun _ => selected_applyBatch_resets_iff.mpr (first rfl)⟩

/-- A rescan that finds `a` and `m` where only `m` was shown puts the cursor on the
second row. -/
theorem rescan_lands_below_first :
    let before := (App.new { vendor := .redis, version := [], mode := [], fields := [] }
      "redis://localhost".toList { channel := .room }).apply
        (.batch [("m".toList, none)] true true 1)
    let after := before.apply (.batch [("a".toList, none), ("m".toList, none)] true true 1)
    before.selected = 0 ∧ after.rows.map Row.path = ["a".toList, "m".toList] ∧
      after.selected = 1 ∧ ¬before.KeepsOrResets after true := by
  intro before after
  have second : after.selected = 1 := by decide +kernel
  refine ⟨by decide +kernel, by decide +kernel, second, ?_⟩
  intro kept
  cases second.symm.trans (kept.2 rfl)

end Keylens.Tui.App
