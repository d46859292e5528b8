import Keylens.Ui.Shown

/-!
# What `expandAll` reveals

The paths that `collectBranches` opens are joined segment by segment, and they lose
the separator after an empty path.  The walk joins the links of a chain with their
separators.  The two differ where the chain begins at addresses of empty segments
only: there the paths of all rows below start with a separator, which no collected
path does.
-/

namespace Keylens.Ui

open Keylens.Library Keylens.Connection

/-! ## The collected paths -/

theorem collectChildren_eq (children : List (Str × Node)) (pre : Str) :
    collectChildren children pre = children.flatMap fun child =>
      if child.2.children.isEmpty then []
      else childPath pre child.1 :: collectBranches child.2 (childPath pre child.1) := by
  induction children with
  | nil => rfl
  | cons first rest ih =>
      rcases first with ⟨segment, child⟩
      rw [collectChildren, List.flatMap_cons, ih]
      split <;> rfl

theorem mem_collectBranches_iff {node : Node} {pre path : Str} :
    path ∈ collectBranches node pre ↔
      ∃ child ∈ node.children, child.2.children ≠ [] ∧
        (path = childPath pre child.1 ∨
          path ∈ collectBranches child.2 (childPath pre child.1)) := by
  rcases node with ⟨data, children⟩
  rw [collectBranches, collectChildren_eq, List.mem_flatMap, Trie.children_node]
  constructor
  · rintro ⟨child, member, place⟩
    by_cases leaf : child.2.children = []
    · simp [leaf] at place
    · refine ⟨child, member, leaf, ?_⟩
      simpa [leaf] using place
  · rintro ⟨child, member, branch, place⟩
    refine ⟨child, member, ?_⟩
    simpa [branch] using place

/-- A branch is collected under its address, joined segment by segment. -/
theorem foldl_childPath_mem_collectBranches {node target : Node} {address : List Str}
    (nonempty : address ≠ []) (found : node.descend address = some target)
    (branch : target.children ≠ []) (pre : Str) :
    address.foldl childPath pre ∈ collectBranches node pre := by
  induction address generalizing node pre with
  | nil => exact absurd rfl nonempty
  | cons segment rest ih =>
      rcases Option.bind_eq_some_iff.mp found with ⟨child, childFound, restFound⟩
      have childMem := Trie.mem_of_lookup childFound
      rw [mem_collectBranches_iff]
      cases rest with
      | nil =>
          cases restFound
          exact ⟨_, childMem, branch, .inl rfl⟩
      | cons next rest =>
          refine ⟨_, childMem, ?_, .inr (ih (List.cons_ne_nil _ _) restFound _)⟩
          rcases Option.bind_eq_some_iff.mp restFound with ⟨grandchild, grandchildFound, _⟩
          exact List.ne_nil_of_mem (Trie.mem_of_lookup grandchildFound)

/-- A path that does not begin with a separator. -/
def Unseparated (path : Str) : Prop :=
  path.head? ≠ some separator

theorem unseparated_childPath {pre segment : Str} (unseparated : Unseparated pre)
    (isSegment : IsSegment segment) : Unseparated (childPath pre segment) := by
  rw [childPath]
  split
  next =>
      intro first
      exact isSegment (List.mem_of_mem_head? first)
  next nonempty =>
      rcases List.exists_cons_of_ne_nil nonempty with ⟨head, tail, rfl⟩
      exact unseparated

/-- No collected path begins with a separator. -/
theorem unseparated_of_mem_collectBranches {node : Node} {pre path : Str}
    (wellFormed : node.WellFormed IsSegment) (unseparated : Unseparated pre)
    (member : path ∈ collectBranches node pre) : Unseparated path := by
  induction height : node.height using Nat.strong_induction_on generalizing node pre with
  | _ size ih =>
      rcases mem_collectBranches_iff.mp member with ⟨child, childMem, _, place⟩
      have childUnseparated := unseparated_childPath unseparated
        (wellFormed.segments child childMem)
      rcases place with rfl | below
      · exact childUnseparated
      · apply ih child.2.height _ (wellFormed.child child childMem) childUnseparated below rfl
        rw [← height]
        exact Trie.height_lt_of_mem childMem

/-! ## The paths of the ways -/

/-- The first chain of empty segments begins after `size` of them. -/
structure View.Strays (view : View) (size : Nat) : Prop where
  positive : 0 < size
  folds : view.Folds (List.replicate size [])
  first : ∀ shorter, 0 < shorter → shorter < size → ¬view.Folds (List.replicate shorter [])

/-- Below the first chain of empty segments, which no collected path reaches, every
branch row is open already. -/
def View.OpenBelowChain (view : View) : Prop :=
  ∀ size rest, view.Strays size → rest ≠ [] → ¬view.Folds (List.replicate size [] ++ rest) →
    view.Branches (List.replicate size [] ++ rest) → tailPath rest ∈ view.expanded

/-- One key alone is below the first chain of empty segments. -/
def View.OneBelowChain (view : View) : Prop :=
  ∀ size, view.Strays size → (keysBelow view.keys (List.replicate size [])).card = 1

theorem eq_replicate_of_foldl_childPath {address : List Str}
    (empty : address.foldl childPath [] = []) :
    address = List.replicate address.length [] := by
  induction address using List.reverseRecOn with
  | nil => rfl
  | append_singleton address segment ih =>
      rw [List.foldl_concat, childPath] at empty
      split at empty
      next before =>
          rw [List.length_append, List.length_singleton, List.replicate_succ', ← ih before, empty]
      next => simp at empty

namespace Way

variable {view : View} {address : List Str} {path : Str}

/-- The path of a way is its address joined segment by segment, or the way goes through
the first chain of empty segments and has all separators from there on. -/
theorem path_cases (way : Way view address path) :
    (path = address.foldl childPath [] ∧ (path = [] → ∀ size, 0 < size → size < address.length →
        ¬view.Folds (List.replicate size []))) ∨
      ∃ size rest, address = List.replicate size [] ++ rest ∧ rest ≠ [] ∧ view.Strays size ∧
        path = tailPath rest := by
  induction way with
  | top =>
      refine .inl ⟨rfl, fun _ size positive shorter => ?_⟩
      rw [List.length_singleton] at shorter
      omega
  | @fold address path segment way folds _ ih =>
      rcases ih with ⟨pathEq, before⟩ | ⟨size, rest, rfl, further, strays, rfl⟩
      · by_cases empty : path = []
        · have blank : address = List.replicate address.length [] :=
            eq_replicate_of_foldl_childPath (pathEq.symm.trans empty)
          refine .inr ⟨address.length, [segment], ?_, List.cons_ne_nil _ _, ?_, ?_⟩
          · rw [← blank]
          · refine ⟨List.length_pos_of_ne_nil way.ne_nil, ?_, before empty⟩
            rw [← blank]
            exact folds
          · rw [empty]
            simp [tailPath]
        · refine .inl ⟨?_, fun gone => ?_⟩
          · rw [List.foldl_concat, ← pathEq, childPath_of_ne_nil empty]
          · simp at gone
      · refine .inr ⟨size, rest ++ [segment], by simp, by simp, strays, ?_⟩
        rw [tailPath_concat]
  | @step address path segment way stops _ _ ih =>
      rcases ih with ⟨pathEq, before⟩ | ⟨size, rest, rfl, further, strays, rfl⟩
      · refine .inl ⟨?_, fun gone size positive shorter => ?_⟩
        · rw [List.foldl_concat, ← pathEq]
        · have empty : path = [] := by
            by_contra visible
            rw [childPath_of_ne_nil visible] at gone
            simp at gone
          rw [List.length_append, List.length_singleton] at shorter
          rcases Nat.lt_succ_iff_lt_or_eq.mp shorter with earlier | rfl
          · exact before empty size positive earlier
          · rw [← eq_replicate_of_foldl_childPath (pathEq.symm.trans empty)]
            exact stops
      · refine .inr ⟨size, rest ++ [segment], by simp, by simp, strays, ?_⟩
        rw [tailPath_concat, childPath_of_ne_nil (tailPath_ne_nil further)]

/-- Below the first chain of empty segments paths have all their separators. -/
theorem path_of_strays {size : Nat} {rest : List Str} (strays : view.Strays size)
    (further : rest ≠ []) (way : Way view (List.replicate size [] ++ rest) path) :
    path = tailPath rest := by
  have nonempty : List.replicate size ([] : Str) ≠ [] := by
    have positive := strays.positive
    simp only [ne_eq, List.replicate_eq_nil_iff]
    omega
  rcases way.front nonempty further with ⟨shown, shownWay, ⟨_, rfl⟩ | ⟨stops, _⟩⟩
  · have empty : shown = [] := by
      rcases shownWay.path_cases with ⟨shownEq, _⟩ | ⟨sooner, between, blank, some, earlier, _⟩
      · rw [shownEq]
        clear * -
        induction size with
        | zero => rfl
        | succ size ih =>
            rw [List.replicate_succ, List.foldl_cons]
            exact ih
      · have sizes := congrArg List.length blank
        have positive := List.length_pos_of_ne_nil some
        rw [List.length_append, List.length_replicate, List.length_replicate] at sizes
        exact absurd earlier.folds (strays.first sooner earlier.positive (by omega))
    rw [empty, List.nil_append]
  · exact absurd strays.folds stops

end Way

namespace KeyTree

variable {tree : KeyTree} {entries : List (Str × Option Kind)} {address : List Str}

/-- Every branch row is open, and there is a row for each key. -/
def Revealed (tree : KeyTree) : Prop :=
  (∀ row ∈ tree.rows, row.isBranch → row.expanded) ∧
    (tree.rows.filter Row.isKey).length = tree.len

instance (tree : KeyTree) : Decidable tree.Revealed :=
  inferInstanceAs (Decidable (_ ∧ _))

/-- When all branch rows are open there is a way to every node. -/
theorem Holds.exists_way (holds : tree.Holds entries)
    (allOpen : ∀ line ∈ tree.lines, line.row.isBranch → line.row.expanded)
    (nonempty : address ≠ []) (there : (keysBelow (distinctKeys entries) address).Nonempty) :
    ∃ path, Way (tree.view entries) address path := by
  induction address using List.reverseRecOn with
  | nil => exact absurd rfl nonempty
  | append_singleton address segment ih =>
      by_cases top : address = []
      · subst top
        exact ⟨segment, .top there⟩
      · rcases ih top (there.mono (keysBelow_append_subset ..)) with ⟨path, way⟩
        by_cases folds : (tree.view entries).Folds address
        · exact ⟨_, .fold way folds there⟩
        · rcases holds.exists_line_iff.mpr ⟨way, folds⟩ with ⟨line, member, rfl, rfl⟩
          rcases holds.row_of_mem_lines member with ⟨_, branches, isOpen⟩
          have expanded := allOpen line member (branches.mpr ⟨segment, there⟩)
          exact ⟨_, .step way folds (isOpen.mp expanded).2 there⟩

theorem splitPath_joinPath_of_mem_lines {line : Line} (member : line ∈ tree.lines) :
    splitPath (joinPath line.address) = line.address := by
  rcases descend_of_mem_lines member with ⟨nonempty, found⟩
  exact splitPath_joinPath (tree.wellFormed.admissible_of_descend found) nonempty

/-- No two lines stand for one key. -/
theorem nodup_joinPath_lines (tree : KeyTree) :
    (tree.lines.map fun line => joinPath line.address).Nodup := by
  have addresses : (tree.lines.map Line.address).Nodup := nodup_addresses_walk tree.wellFormed
  have splits : tree.lines.map Line.address =
      (tree.lines.map fun line => joinPath line.address).map splitPath := by
    rw [List.map_map]
    exact List.map_congr_left fun line member => (splitPath_joinPath_of_mem_lines member).symm
  rw [splits] at addresses
  exact addresses.of_map

/-- When all branch rows are open the rows of keys are those of the keys. -/
theorem Holds.exists_keyLine_iff (holds : tree.Holds entries)
    (allOpen : ∀ line ∈ tree.lines, line.row.isBranch → line.row.expanded) (key : Str) :
    (∃ line ∈ tree.lines, line.row.isKey ∧ joinPath line.address = key) ↔
      key ∈ distinctKeys entries := by
  constructor
  · rintro ⟨line, member, isKey, rfl⟩
    exact (holds.row_of_mem_lines member).1.mp isKey
  · intro isKey
    have nonempty : splitPath key ≠ [] := List.splitOn_ne_nil _ _
    rcases holds.exists_way allOpen nonempty ⟨key, mem_keysBelow_splitPath isKey⟩ with
      ⟨path, way⟩
    have stops : ¬(tree.view entries).Folds (splitPath key) :=
      fun folds => not_passes_splitPath isKey folds.2
    rcases holds.exists_line_iff.mpr ⟨way, stops⟩ with ⟨line, member, addressEq, _⟩
    have joined : joinPath line.address = key := by rw [addressEq, joinPath_splitPath]
    refine ⟨line, member, ?_, joined⟩
    rw [(holds.row_of_mem_lines member).1, joined]
    exact isKey

/-- When all branch rows are open there is a row for each key. -/
theorem Holds.count_keys (holds : tree.Holds entries)
    (allOpen : ∀ line ∈ tree.lines, line.row.isBranch → line.row.expanded) :
    (tree.rows.filter Row.isKey).length = tree.len := by
  let keyLines := tree.lines.filter fun line => line.row.isKey
  have rowCount : (tree.rows.filter Row.isKey).length = keyLines.length := by
    rw [rows, List.filter_map, List.length_map]
    rfl
  have distinct : (keyLines.map fun line => joinPath line.address).Nodup :=
    tree.nodup_joinPath_lines.sublist (List.filter_sublist.map _)
  have keys : (keyLines.map fun line => joinPath line.address).toFinset =
      distinctKeys entries := by
    ext key
    rw [← holds.exists_keyLine_iff allOpen, List.mem_toFinset, List.mem_map]
    simp only [keyLines, List.mem_filter, and_assoc]
  rw [rowCount, len, holds.total_eq, ← keys, List.toFinset_card_of_nodup distinct,
    List.length_map]

/-! ## After `expandAll` -/

/-- Every branch row has the path under which its branch is collected. -/
def NamesBranches (tree : KeyTree) : Prop :=
  ∀ row ∈ tree.rows, row.isBranch → row.path ∈ collectBranches tree.root []

instance (tree : KeyTree) : Decidable tree.NamesBranches :=
  inferInstanceAs (Decidable (∀ row ∈ tree.rows, _))

/-- Which chain is first depends on the keys, not on what is open. -/
theorem strays_expandAll {size : Nat} :
    (tree.expandAll.view entries).Strays size ↔ (tree.view entries).Strays size :=
  ⟨fun strays => ⟨strays.positive, strays.folds, strays.first⟩,
    fun strays => ⟨strays.positive, strays.folds, strays.first⟩⟩

/-- A branch row has a collected path, or it is below the first chain of empty segments. -/
theorem Holds.collected_or_strays (holds : tree.Holds entries) {line : Line}
    (member : line ∈ tree.lines) (isBranch : line.row.isBranch) :
    line.row.path ∈ collectBranches tree.root [] ∨
      ∃ size rest, line.address = List.replicate size [] ++ rest ∧ rest ≠ [] ∧
        (tree.view entries).Strays size ∧ line.row.path = tailPath rest := by
  rcases (holds.way_of_mem_lines member).1.path_cases with ⟨pathEq, _⟩ | strays
  · left
    rcases descend_of_mem_lines member with ⟨nonempty, found⟩
    rw [pathEq]
    apply foldl_childPath_mem_collectBranches nonempty found
    rcases (holds.row_of_mem_lines member).2.1.mp isBranch with ⟨next, there⟩
    rcases (holds.exists_child found next).mpr there with ⟨child, childMem⟩
    exact List.ne_nil_of_mem childMem
  · exact .inr strays

theorem tailPath_not_mem_collectBranches (tree : KeyTree) {rest : List Str} (further : rest ≠ []) :
    tailPath rest ∉ collectBranches tree.root [] := by
  intro collected
  have empty : Unseparated [] := by simp [Unseparated]
  have unseparated := unseparated_of_mem_collectBranches tree.wellFormed empty collected
  rcases List.exists_cons_of_ne_nil further with ⟨segment, others, rfl⟩
  exact unseparated rfl

/-- When all branch rows are open, a branch below the first chain of empty segments has a
row, with all its separators. -/
theorem Holds.line_of_strays (holds : tree.Holds entries)
    (allOpen : ∀ line ∈ tree.lines, line.row.isBranch → line.row.expanded) {size : Nat}
    {rest : List Str} (strays : (tree.view entries).Strays size) (further : rest ≠ [])
    (stops : ¬(tree.view entries).Folds (List.replicate size [] ++ rest))
    (branches : (tree.view entries).Branches (List.replicate size [] ++ rest)) :
    ∃ line ∈ tree.lines, line.row.isBranch ∧ line.row.path = tailPath rest := by
  have there : (keysBelow (distinctKeys entries) (List.replicate size [] ++ rest)).Nonempty := by
    rcases branches with ⟨next, there⟩
    exact there.mono (keysBelow_append_subset ..)
  have nonempty : List.replicate size ([] : Str) ++ rest ≠ [] :=
    List.append_ne_nil_of_right_ne_nil _ further
  rcases holds.exists_way allOpen nonempty there with ⟨path, way⟩
  rcases holds.exists_line_iff.mpr ⟨way, stops⟩ with ⟨line, member, addressEq, pathEq⟩
  have lineBranches := (holds.row_of_mem_lines member).2.1
  rw [addressEq] at lineBranches
  exact ⟨line, member, lineBranches.mpr branches, pathEq.trans (way.path_of_strays strays further)⟩

theorem forall_rows_iff (tree : KeyTree) (holdsOf : Row → Prop) :
    (∀ row ∈ tree.rows, holdsOf row) ↔ ∀ line ∈ tree.lines, holdsOf line.row := by
  rw [rows]
  exact List.forall_mem_map

/-- Every branch row is open after `expandAll`, and all keys have rows, exactly if the
branches below the first chain of empty segments were open already. -/
theorem Holds.revealed_expandAll_iff (holds : tree.Holds entries) :
    tree.expandAll.Revealed ↔ (tree.view entries).OpenBelowChain := by
  have after : tree.expandAll.Holds entries := holds.of_root_eq rfl rfl
  rw [Revealed, forall_rows_iff]
  constructor
  · rintro ⟨allOpen, _⟩ size rest strays further stops branches
    rcases after.line_of_strays allOpen (strays_expandAll.mpr strays) further stops branches with
      ⟨line, member, isBranch, pathEq⟩
    have expanded :=
      ((after.row_of_mem_lines member).2.2.mp (allOpen line member isBranch)).2
    rw [pathEq] at expanded
    rcases Finset.mem_union.mp expanded with before | collected
    · exact before
    · exact absurd (List.mem_toFinset.mp collected)
        (tree.tailPath_not_mem_collectBranches further)
  · intro openBelow
    have allOpen : ∀ line ∈ tree.expandAll.lines, line.row.isBranch → line.row.expanded := by
      intro line member isBranch
      rcases after.row_of_mem_lines member with ⟨_, branches, isOpen⟩
      have stops := (after.way_of_mem_lines member).2
      refine isOpen.mpr ⟨isBranch, Finset.mem_union.mpr ?_⟩
      rcases after.collected_or_strays member isBranch with
        collected | ⟨size, rest, addressEq, further, strays, pathEq⟩
      · exact .inr (List.mem_toFinset.mpr collected)
      · rw [addressEq] at stops branches
        rw [pathEq]
        left
        exact openBelow size rest (strays_expandAll.mp strays) further stops
          (branches.mp isBranch)
    exact ⟨allOpen, after.count_keys allOpen⟩

/-- Every branch is collected under the path of its row exactly if there is only one key
below the first chain of empty segments. -/
theorem Holds.namesBranches_expandAll_iff (holds : tree.Holds entries) :
    tree.expandAll.NamesBranches ↔ (tree.view entries).OneBelowChain := by
  have after : tree.expandAll.Holds entries := holds.of_root_eq rfl rfl
  rw [NamesBranches, forall_rows_iff]
  constructor
  · intro named size strays
    have allOpen : ∀ line ∈ tree.expandAll.lines, line.row.isBranch → line.row.expanded := by
      intro line member isBranch
      apply (after.row_of_mem_lines member).2.2.mpr
      refine ⟨isBranch, Finset.mem_union_right _ ?_⟩
      exact List.mem_toFinset.mpr (named line member isBranch)
    have there : (keysBelow (distinctKeys entries) (List.replicate size [])).Nonempty := by
      rcases strays.folds.2 with ⟨next, there, same⟩
      exact same ▸ there
    apply le_antisymm _ there.card_pos
    by_contra several
    rcases Finset.one_lt_card.mp (Nat.lt_of_not_le several) with
      ⟨key, below, other, otherBelow, different⟩
    rcases exists_fork below otherBelow different with ⟨rest, stops, branches⟩
    have further : rest ≠ [] := by
      rintro rfl
      rw [List.append_nil] at stops
      exact stops strays.folds.2
    rcases after.line_of_strays allOpen (strays_expandAll.mpr strays) further
        (fun folds => stops folds.2) branches with
      ⟨line, member, isBranch, pathEq⟩
    have collected := named line member isBranch
    rw [pathEq] at collected
    exact tree.expandAll.tailPath_not_mem_collectBranches further collected
  · intro single line member isBranch
    rcases after.collected_or_strays member isBranch with
      collected | ⟨size, rest, addressEq, further, strays, _⟩
    · exact collected
    · have one := single size (strays_expandAll.mp strays)
      have stops := (after.way_of_mem_lines member).2
      have branches := (after.row_of_mem_lines member).2.1.mp isBranch
      rw [addressEq] at stops branches
      exact absurd ⟨strays.folds.1, passes_of_card_eq_one one branches⟩ stops

/-- After any operations and then `expandAll`: what is revealed, and what is collected
under the path of its row. -/
theorem expandAll_reveals_iff (ops : List TreeOp) :
    ((run (ops ++ [.expandAll])).Revealed ↔ ((run ops).view (inserted ops)).OpenBelowChain) ∧
      ((run (ops ++ [.expandAll])).NamesBranches ↔
        ((run ops).view (inserted ops)).OneBelowChain) := by
  rw [run_append]
  exact ⟨(holds_run ops).revealed_expandAll_iff, (holds_run ops).namesBranches_expandAll_iff⟩

/-- With `:a:x` and `:a:y` inserted the row `:a` stays closed: the path `a` is opened
for it. -/
theorem expandAll_misses_chain :
    let tree := run [.insertWithKind ":a:x".toList none, .insertWithKind ":a:y".toList none,
      .expandAll]
    tree.rows.map Row.path = [":a".toList] ∧ tree.len = 2 ∧ ¬tree.Revealed := by
  decide +kernel

end KeyTree

end Keylens.Ui
