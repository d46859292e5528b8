import Keylens.Tui.Cursors
import Keylens.Tui.TreeKeys
import Keylens.Ui.RowListing

/-!
# The jump to the parent

The parent of a row is the nearest row above it that is one level less deep.  The
jump looks for a row instead: the first with the path that is left when the last
segment is cut off.  A row is below its parent by its label, and that may be a
chain of segments.
-/

namespace Keylens.Tui

open Keylens.Library Keylens.Connection Keylens.BullMq Keylens.Ui Keylens.Backend

/-- The nearest row above a row that is one level less deep. -/
def parentIndex (rows : List Row) (i : Nat) : Option Nat :=
  rows[i]?.bind fun row =>
    ((rows.take i).reverse.findIdx? fun other => other.depth + 1 = row.depth).map
      fun back => i - 1 - back

/-- The key that jumps, and the place where it is one. -/
structure Jumps (app : App) (key : KeyEvent) : Prop where
  normal : app.mode = .normal
  view : app.view = .keys
  focus : app.focus = .tree
  code : key.code = .left ∨ key.code = .char 'h'

/-- The cursor is on a row below the top that is no open branch. -/
def App.OnInnerRow (app : App) : Bool :=
  app.selectedRow.any fun row => 0 < row.depth && !(row.isBranch && row.expanded)

/-- The row is below its parent by one segment. -/
def OneSegment (parent row : Row) : Prop :=
  if parent.path = [] then ∃ segment, separator ∉ segment ∧ row.label = separator :: segment
  else separator ∉ row.label

section Rows

variable {front between after : List Row} {parent row : Row}

theorem parentIndex_eq (above : parent.depth + 1 = row.depth)
    (deeper : ∀ other ∈ between, row.depth ≤ other.depth) :
    parentIndex (front ++ parent :: (between ++ row :: after))
      (front ++ parent :: between).length = some front.length := by
  have split : front ++ parent :: (between ++ row :: after) =
      (front ++ parent :: between) ++ row :: after := by simp
  have nearest : (between.reverse ++ parent :: front.reverse).findIdx?
      (fun other => other.depth + 1 = row.depth) = some between.length := by
    rw [List.findIdx?_append, List.findIdx?_eq_none_iff.mpr]
    · simp [List.findIdx?_cons, above]
    · intro other member
      have depth := deeper other (List.mem_reverse.mp member)
      apply decide_eq_false
      omega
  rw [split, parentIndex, List.getElem?_append_right le_rfl, Nat.sub_self, List.getElem?_cons_zero,
    Option.bind_some, List.take_left]
  simp only [List.reverse_append, List.reverse_cons, List.append_assoc, List.singleton_append,
    nearest, Option.map_some, List.length_append, List.length_cons]
  congr 1
  omega

/-- Where the first row with some path is the parent. -/
theorem findIdx?_path_iff {rest : List Row} (path : Str) :
    ((front ++ parent :: rest).findIdx? fun other => other.path = path) = some front.length ↔
      parent.path = path ∧ ∀ other ∈ front, other.path ≠ path := by
  rw [List.findIdx?_append]
  cases found : front.findIdx? fun other => other.path = path with
  | some i =>
      rcases List.findIdx?_eq_some_iff_getElem.mp found with ⟨inside, here, _⟩
      have apart : some i ≠ some front.length := by
        rintro ⟨⟩
        exact Nat.lt_irrefl _ inside
      have member : front[i] ∈ front := List.getElem_mem inside
      constructor
      · exact fun same => absurd same apart
      · rintro ⟨_, fresh⟩
        exact absurd (of_decide_eq_true here) (fresh _ member)
  | none =>
      have fresh : ∀ other ∈ front, other.path ≠ path := by simpa using found
      by_cases here : parent.path = path
      · simpa [List.findIdx?_cons, here] using fresh
      · have further (i : Nat) : i + (1 + front.length) ≠ front.length := by omega
        simp [List.findIdx?_cons, here, further]

theorem rsplitOnce_childPath_iff (joined : row.path = childPath parent.path row.label) :
    (∃ last, rsplitOnce separator row.path = some (parent.path, last)) ↔ OneSegment parent row := by
  simp only [rsplitOnce_eq_some_iff, joined, childPath, OneSegment]
  split
  next top =>
      simp only [top, List.nil_append]
      exact exists_congr fun last => And.comm
  next inner =>
      simp only [List.append_cancel_left_eq, List.cons.injEq, true_and]
      constructor
      · rintro ⟨last, rfl, fresh⟩
        exact fresh
      · intro fresh
        exact ⟨row.label, rfl, fresh⟩

end Rows

namespace App

variable {app : App} {key : KeyEvent} {row : Row}

theorem intent_of_jumps (jumps : Jumps app key) (selected : app.selectedRow = some row)
    (closed : ¬(row.isBranch ∧ row.expanded)) : app.intent key = .jumpToParent := by
  have collapses : app.collapseIntent = .jumpToParent := by
    rw [collapseIntent, selected]
    simpa using closed
  have letter : ('h' : Char).isDigit = false := by decide
  rcases jumps with ⟨normal, view, focus, code | code⟩
  · simp [App.intent, normalIntent, viewIntent, keysViewIntent, focusIntent, treeIntent, normal,
      view, focus, code, collapses]
  · simp [App.intent, normalIntent, charIntent, viewIntent, keysViewIntent, focusIntent, treeIntent,
      normal, view, focus, code, collapses, letter]

theorem selected_of_jumps (jumps : Jumps app key) (selected : app.selectedRow = some row)
    (closed : ¬(row.isBranch ∧ row.expanded)) :
    (app.handleKey key).selected =
      ((rsplitOnce separator row.path).bind fun (parent, _) =>
        app.rows.findIdx? fun other => other.path = parent).getD app.selected := by
  have jumped := congrArg Core.selected (app.core_handleKey key)
  have parent : app.core.parentRow =
      (rsplitOnce separator row.path).bind fun (parent, _) =>
        app.rows.findIdx? fun other => other.path = parent := by
    rw [Core.parentRow, show app.core.selectedRow = app.selectedRow from rfl, selected]
    rfl
  rw [intent_of_jumps jumps selected closed, Intent.run] at jumped
  rw [show (app.handleKey key).selected = (app.handleKey key).core.selected from rfl, jumped,
    ← parent]
  cases app.core.parentRow <;> rfl

/-- The jump ends on the parent exactly when the row is below it by one segment and
no row above the parent has the path of the parent. -/
theorem jump_iff {front between after : List Row} {parent : Row} (jumps : Jumps app key)
    (split : app.rows = front ++ parent :: (between ++ row :: after))
    (here : app.selected = (front ++ parent :: between).length)
    (closed : ¬(row.isBranch ∧ row.expanded))
    (joined : row.path = childPath parent.path row.label) :
    (app.handleKey key).selected = front.length ↔
      OneSegment parent row ∧ ∀ other ∈ front, other.path ≠ parent.path := by
  have selected : app.selectedRow = some row := by
    rw [selectedRow, split, here]
    simp
  have elsewhere : app.selected ≠ front.length := by
    simp only [here, List.length_append, List.length_cons]
    omega
  rw [selected_of_jumps jumps selected closed, ← rsplitOnce_childPath_iff joined, split]
  have landed (found : Option Nat) :
      found.getD app.selected = front.length ↔ found = some front.length := by
    cases found <;> simp [elsewhere]
  rw [landed]
  cases parts : rsplitOnce separator row.path with
  | none => simp
  | some part =>
      rcases part with ⟨upper, last⟩
      simp only [Option.bind_some, findIdx?_path_iff, Option.some.injEq, Prod.mk.injEq,
        exists_and_left, exists_eq', and_true]
      constructor
      · rintro ⟨rfl, fresh⟩
        exact ⟨rfl, fresh⟩
      · rintro ⟨rfl, fresh⟩
        exact ⟨rfl, fresh⟩

/-- In every run, the jump from a row below the top ends on its parent exactly when
the row is below it by one segment and no row above the parent has the path of the
parent. -/
theorem jump_to_parent_iff (server : ServerInfo) (url : Str) (tx : Sender)
    (inputs : List AppInput) (key : KeyEvent) (channel : Channel)
    (jumps : Jumps (run step (App.new server url tx) inputs) key)
    (inner : (run step (App.new server url tx) inputs).OnInnerRow) :
    let app := run step (App.new server url tx) inputs
    ∃ q parent row, parentIndex app.rows app.selected = some q ∧ app.rows[q]? = some parent ∧
      app.selectedRow = some row ∧
      ((app.step (.key key channel)).selected = q ↔
        OneSegment parent row ∧ ∀ other ∈ app.rows.take q, other.path ≠ parent.path) := by
  intro app
  have rows : app.rows = app.tree.rows := (sound_run server url tx inputs).consistent.rows
  rcases (Option.any_eq_true ..).mp inner with ⟨row, selected, isInner⟩
  have ⟨deep, closed⟩ : 0 < row.depth ∧ ¬(row.isBranch ∧ row.expanded) := by
    simpa [imp_iff_not_or] using isInner
  rcases List.getElem?_eq_some_iff.mp selected with ⟨inside, atPlace⟩
  have split : app.tree.rows = app.rows.take app.selected ++
      row :: app.rows.drop (app.selected + 1) := by
    rw [← rows, ← atPlace, List.getElem_cons_drop, List.take_append_drop]
  rcases app.tree.exists_parent split deep with
    ⟨front, parent, between, beforeEq, above, deeper, joined⟩
  have here : app.selected = (front ++ parent :: between).length := by
    rw [← beforeEq, List.length_take, Nat.min_eq_left inside.le]
  rw [← rows, beforeEq, List.append_assoc, List.cons_append] at split
  have before : app.rows.take front.length = front := by
    rw [split, List.take_left]
  refine ⟨front.length, parent, row, ?_, ?_, selected, ?_⟩
  · rw [split, here]
    exact parentIndex_eq above deeper
  · rw [split]
    simp
  · rw [before]
    have pressed : Jumps { app with tx := { channel } } key :=
      ⟨jumps.normal, jumps.view, jumps.focus, jumps.code⟩
    exact jump_iff pressed split here closed joined

/-- Two keys below `a`, which is then opened, and the cursor put on the last. -/
def openedBranch (first second : Str) : List AppInput :=
  [.update (.batch [(first, none), (second, none)] true true 1), .key { code := .enter } .room,
    .key { code := .end' } .room]

/-- From `a:y` the jump ends on `a`. -/
theorem jump_from_one_segment :
    let app := run step (App.new { vendor := .redis, version := [], mode := [], fields := [] }
      "redis://localhost".toList { channel := .room }) (openedBranch "a:x".toList "a:y".toList)
    ∃ q parent row, parentIndex app.rows app.selected = some q ∧ app.rows[q]? = some parent ∧
      app.selectedRow = some row ∧
      ((app.step (.key { code := .char 'h' } .room)).selected = q ↔
        OneSegment parent row ∧ ∀ other ∈ app.rows.take q, other.path ≠ parent.path) := by
  apply jump_to_parent_iff
  · exact ⟨by decide +kernel, by decide +kernel, by decide +kernel, .inr rfl⟩
  · decide +kernel

/-- The jump ends on the parent. -/
def JumpsToParent (app : App) (key : KeyEvent) (channel : Channel) : Prop :=
  Jumps app key → app.OnInnerRow →
    parentIndex app.rows app.selected = some (app.step (.key key channel)).selected

/-- With the keys `a:b` and `a:x:y`, the row `x:y` below `a` is a folded chain:
there is no row `a:x`, and the jump stays where it is. -/
theorem jump_misses_parent_of_chain :
    let app := run step (App.new { vendor := .redis, version := [], mode := [], fields := [] }
      "redis://localhost".toList { channel := .room }) (openedBranch "a:b".toList "a:x:y".toList)
    app.rows.map Row.path = ["a".toList, "a:b".toList, "a:x:y".toList] ∧
      app.selected = 2 ∧ parentIndex app.rows app.selected = some 0 ∧
      (app.step (.key { code := .char 'h' } .room)).selected = 2 ∧
      ¬∀ server url tx inputs key channel,
        (run step (App.new server url tx) inputs).JumpsToParent key channel := by
  intro app
  have parent : parentIndex app.rows app.selected = some 0 := by decide +kernel
  have stays : (app.step (.key { code := .char 'h' } .room)).selected = 2 := by decide +kernel
  refine ⟨by decide +kernel, by decide +kernel, parent, stays, ?_⟩
  intro always
  have jumps : Jumps app { code := .char 'h' } :=
    ⟨by decide +kernel, by decide +kernel, by decide +kernel, .inr rfl⟩
  have inner : app.OnInnerRow := by decide +kernel
  have jumped := always _ _ _ _ _ .room jumps inner
  rw [parent, stays] at jumped
  cases jumped

end App

end Keylens.Tui
