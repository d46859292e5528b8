import Keylens.Ui.Shown

/-!
# What new keys close

What is open is remembered by path, and a row is shown only if every row above it
is open.  A new key that leaves the way to an open row in the middle of a folded
chain gives that place a row of its own, and unless its path happens to be open too
the row below is gone.
-/

namespace Keylens.Ui

open Keylens.Library Keylens.Connection

namespace View

/-- The same with other keys. -/
def withKeys (view : View) (keys : Finset Str) : View :=
  { view with keys }

/-- Wherever the new keys split a chain on the way to an address, the path of the link
is already open, and it is not the empty path. -/
def KeepsWay (view : View) (keys : Finset Str) (address : List Str) : Prop :=
  ∀ front shown, front <+: address → front ≠ address → Way view front shown →
    Passes view.keys front → ¬Passes keys front → shown ∈ view.expanded ∧ shown ≠ []

/-- The way to an open row is kept, or another address has an open row with the same
path: only below an open row with the empty path do two addresses share one. -/
def Kept (view : View) (keys : Finset Str) (address : List Str) (path : Str) : Prop :=
  view.KeepsWay keys address ∨
    [] ∈ view.expanded ∧ ∃ other, other ≠ address ∧ (view.withKeys keys).Opens other path

variable {view : View} {keys : Finset Str} {address : List Str} {path segment : Str}

theorem KeepsWay.of_concat (keeps : view.KeepsWay keys (address ++ [segment])) :
    view.KeepsWay keys address := by
  intro front shown starts _
  apply keeps front shown (starts.trans (List.prefix_append ..))
  rintro rfl
  exact not_concat_prefix _ _ starts

theorem not_folds_withKeys (subset : view.keys ⊆ keys)
    (there : (keysBelow view.keys address).Nonempty) (stops : ¬view.Folds address) :
    ¬(view.withKeys keys).Folds address :=
  fun folds => stops ⟨folds.1, passes_of_subset subset there folds.2⟩

/-- A way that no new key disturbs is there with the new keys. -/
theorem way_withKeys (subset : view.keys ⊆ keys) (way : Way view address path)
    (keeps : view.KeepsWay keys address) : Way (view.withKeys keys) address path := by
  induction way with
  | top there => exact .top (there.mono (keysBelow_mono subset _))
  | @fold address path segment way folds there ih =>
      have shown := ih keeps.of_concat
      have more := there.mono (keysBelow_mono subset _)
      by_cases passes : Passes keys address
      · exact .fold shown ⟨folds.1, passes⟩ more
      · have before : address ≠ address ++ [segment] := by simp
        rcases keeps address path (List.prefix_append ..) before way folds.2 passes with
          ⟨isOpen, visible⟩
        rw [← childPath_of_ne_nil visible]
        exact .step shown (fun folds => passes folds.2) isOpen more
  | @step address path segment way stops isOpen there ih =>
      have shown := ih keeps.of_concat
      exact .step shown (not_folds_withKeys subset way.there stops) isOpen
        (there.mono (keysBelow_mono subset _))

/-- A way that is there with the new keys, with the same path, was not disturbed. -/
theorem keepsWay_of_way (compact : view.compact) (way : Way view address path)
    (after : Way (view.withKeys keys) address path) : view.KeepsWay keys address := by
  intro front shown starts different shownWay passes split
  rcases starts with ⟨rest, rfl⟩
  have further : rest ≠ [] := by
    rintro rfl
    exact different (List.append_nil front).symm
  rcases way.front shownWay.ne_nil further with
    ⟨old, oldWay, ⟨_, pathEq⟩ | ⟨stops, _⟩⟩
  · rw [shownWay.unique oldWay]
    rcases after.front shownWay.ne_nil further with
      ⟨new, newWay, ⟨folds, _⟩ | ⟨_, isOpen, straight, shorter⟩⟩
    · exact absurd folds.2 split
    · have visible : new ≠ [] := by
        intro empty
        have tooShort := shorter empty
        rw [pathEq, List.length_append] at tooShort
        omega
      rw [straight visible] at pathEq
      rw [← List.append_cancel_right pathEq]
      exact ⟨isOpen, visible⟩
  · exact absurd ⟨compact, passes⟩ stops

/-- An open row is still shown open with more keys exactly if it is kept. -/
theorem Opens.withKeys_iff (opens : view.Opens address path) (compact : view.compact)
    (subset : view.keys ⊆ keys) :
    (∃ other, (view.withKeys keys).Opens other path) ↔ view.Kept keys address path := by
  constructor
  · rintro ⟨other, after⟩
    by_cases same : other = address
    · subst same
      exact .inl (keepsWay_of_way compact opens.way after.way)
    · refine .inr ⟨?_, other, same, after⟩
      by_contra shut
      have shutAfter : [] ∉ (view.withKeys keys).expanded := shut
      apply same
      calc other
          = splitPath (joinPath other) :=
            (splitPath_joinPath after.way.isSegment after.way.ne_nil).symm
        _ = splitPath path := by rw [after.way.path_eq shutAfter]
        _ = splitPath (joinPath address) := by rw [opens.way.path_eq shut]
        _ = address := splitPath_joinPath opens.way.isSegment opens.way.ne_nil
  · rintro (keeps | ⟨_, other, _, after⟩)
    · refine ⟨address, way_withKeys subset opens.way keeps, ?_, ?_, opens.isOpen⟩
      · exact not_folds_withKeys subset opens.way.there opens.stops
      · rcases opens.branches with ⟨next, there⟩
        exact ⟨next, there.mono (keysBelow_mono subset _)⟩
    · exact ⟨other, after⟩

end View

namespace KeyTree

/-- Some row shows the path, and is open. -/
def ShowsOpen (tree : KeyTree) (path : Str) : Prop :=
  ∃ row ∈ tree.rows, row.path = path ∧ row.expanded

instance (tree : KeyTree) (path : Str) : Decidable (tree.ShowsOpen path) :=
  inferInstanceAs (Decidable (∃ row ∈ tree.rows, row.path = path ∧ row.expanded))

theorem Holds.showsOpen_iff {tree : KeyTree} {entries : List (Str × Option Kind)}
    (holds : tree.Holds entries) (path : Str) :
    tree.ShowsOpen path ↔ ∃ address, (tree.view entries).Opens address path := by
  constructor
  · rintro ⟨row, member, pathEq, expanded⟩
    rcases List.mem_map.mp member with ⟨line, lineMem, rfl⟩
    exact ⟨line.address, holds.exists_open_iff.mp ⟨line, lineMem, rfl, pathEq, expanded⟩⟩
  · rintro ⟨address, opens⟩
    rcases holds.exists_open_iff.mpr opens with ⟨line, lineMem, _, pathEq, expanded⟩
    exact ⟨line.row, List.mem_map_of_mem lineMem, pathEq, expanded⟩

/-- Of two trees with the same open paths, the second with more keys, the second still
shows an open row of the first exactly if it is kept. -/
theorem Holds.showsOpen_of_more {tree other : KeyTree}
    {entries others : List (Str × Option Kind)} (holds : tree.Holds entries)
    (otherHolds : other.Holds others) (sameExpanded : other.expanded = tree.expanded)
    (sameCompact : other.compact = tree.compact) (compact : tree.compact)
    (subset : distinctKeys entries ⊆ distinctKeys others) {line : Line}
    (member : line ∈ tree.lines) (expanded : line.row.expanded) :
    other.ShowsOpen line.row.path ↔
      (tree.view entries).Kept (distinctKeys others) line.address line.row.path := by
  have opens := holds.exists_open_iff.mp ⟨line, member, rfl, rfl, expanded⟩
  have sameView : other.view others = (tree.view entries).withKeys (distinctKeys others) := by
    rw [view, sameExpanded, sameCompact]
    rfl
  rw [otherHolds.showsOpen_iff, sameView]
  exact opens.withKeys_iff compact subset

/-- A row that is open in a compact tree is still shown open after further keys, and
after a clear with all old keys coming back among others, exactly if it is kept. -/
theorem showsOpen_after_insertions_iff (ops : List TreeOp) (compact : (run ops).compact)
    {line : Line} (member : line ∈ (run ops).lines) (expanded : line.row.expanded) :
    (∀ more, (run (ops ++ insertions more)).ShowsOpen line.row.path ↔
      ((run ops).view (inserted ops)).Kept (distinctKeys (inserted ops ++ more))
        line.address line.row.path) ∧
    ∀ entries, distinctKeys (inserted ops) ⊆ distinctKeys entries →
      ((run (ops ++ .clearKeys :: insertions entries)).ShowsOpen line.row.path ↔
        ((run ops).view (inserted ops)).Kept (distinctKeys entries)
          line.address line.row.path) := by
  constructor
  · intro more
    have after := holds_run (ops ++ insertions more)
    rw [inserted_append_insertions] at after
    have opened := insertions_open (run ops) more
    rw [← run_append] at opened
    apply (holds_run ops).showsOpen_of_more after opened.1 opened.2 compact _ member expanded
    intro key old
    rw [mem_distinctKeys] at old ⊢
    rw [List.map_append, List.mem_append]
    exact ⟨old.1, .inl old.2⟩
  · intro entries subset
    have cleared : run (ops ++ .clearKeys :: insertions entries) =
        (insertions entries).foldl TreeOp.apply (run ops).clearKeys := by
      rw [run_append, List.foldl_cons]
      rfl
    have after := holds_run (ops ++ .clearKeys :: insertions entries)
    have insertedEq : inserted (ops ++ .clearKeys :: insertions entries) = entries := by
      rw [List.append_cons, inserted_append_insertions]
      simp [inserted]
    rw [insertedEq] at after
    have opened := insertions_open (run ops).clearKeys entries
    rw [← cleared] at opened
    exact (holds_run ops).showsOpen_of_more after opened.1 opened.2 compact subset member expanded

/-- With `a:b:c` and `a:b:d` inserted and the row `a:b` opened, `a:b:e` leaves it open. -/
theorem showsOpen_after_sibling :
    let ops : List TreeOp := [.insertWithKind "a:b:c".toList none,
      .insertWithKind "a:b:d".toList none, .toggle "a:b".toList]
    let more : List (Str × Option Kind) := [("a:b:e".toList, none)]
    (run (ops ++ insertions more)).ShowsOpen "a:b".toList ∧
      ((run ops).view (inserted ops)).Kept (distinctKeys (inserted ops ++ more))
        ["a".toList, "b".toList] "a:b".toList := by
  intro ops more
  have rowOpen : ∃ line ∈ (run ops).lines, line.address = ["a".toList, "b".toList] ∧
      line.row.path = "a:b".toList ∧ line.row.expanded := by
    decide +kernel
  rcases rowOpen with ⟨line, member, addressEq, pathEq, expanded⟩
  have stillOpen : (run (ops ++ insertions more)).ShowsOpen "a:b".toList := by decide +kernel
  refine ⟨stillOpen, ?_⟩
  have kept := (showsOpen_after_insertions_iff ops rfl member expanded).1 more
  rw [pathEq, addressEq] at kept
  exact kept.mp stillOpen

/-- With `a:x` it is gone: `a` gets a row of its own, and nobody has opened that. -/
theorem new_key_closes_row :
    let ops : List TreeOp := [.insertWithKind "a:b:c".toList none,
      .insertWithKind "a:b:d".toList none, .toggle "a:b".toList]
    (run ops).compact = true ∧ (run ops).ShowsOpen "a:b".toList ∧
      ¬(run (ops ++ insertions [("a:x".toList, none)])).ShowsOpen "a:b".toList := by
  decide +kernel

end KeyTree

end Keylens.Ui
