import Keylens.Ui.Tree

/-!
# The paths of the rows

A row carries the path of the node it is made from, joined from that node's
address.  The walk takes an empty prefix for the root, so it loses the leading
separator of what lies below the root's child `""` once that child has a row of
its own and the row is open.
-/

namespace Keylens.Ui

open Keylens.Library Keylens.Connection

/-- The path of an address. -/
def joinPath (address : List Str) : Str :=
  [separator].intercalate address

theorem joinPath_splitPath (path : Str) : joinPath (splitPath path) = path :=
  List.intercalate_splitOn separator

theorem splitPath_joinPath {address : List Str} (segments : ∀ segment ∈ address, IsSegment segment)
    (nonempty : address ≠ []) : splitPath (joinPath address) = address :=
  List.splitOn_intercalate separator segments nonempty

/-- Appending to a path as the walk does. -/
theorem joinPath_append_cons {address : List Str} (visible : address ≠ [] → joinPath address ≠ [])
    (segment : Str) (segments : List Str) :
    joinPath (address ++ segment :: segments) =
      childPath (joinPath address) segment ++
        segments.flatMap fun segment => separator :: segment := by
  cases address with
  | nil => simp [joinPath, childPath, intercalate_cons]
  | cons first rest =>
      have nonempty : first :: rest ≠ [] := List.cons_ne_nil _ _
      rw [childPath, if_neg (visible nonempty), joinPath, intercalate_append nonempty]
      simp [joinPath]

theorem eq_empty_of_joinPath_eq_nil {address : List Str} (nonempty : address ≠ [])
    (empty : joinPath address = []) : address = [[]] := by
  cases address with
  | nil => exact absurd rfl nonempty
  | cons first rest =>
      rw [joinPath, intercalate_cons, List.append_eq_nil_iff] at empty
      rcases empty with ⟨rfl, restEmpty⟩
      cases rest with
      | nil => rfl
      | cons second rest => simp at restEmpty

namespace KeyTree

/-- Every row carries the path of the very node it renders. -/
structure RowsFaithful (tree : KeyTree) : Prop where
  /-- Looking the path up walks down the address of the rendered node. -/
  find_path : ∀ line ∈ tree.lines,
    splitPath line.row.path = line.address ∧ tree.find line.row.path = some line.node
  contains_path : ∀ row ∈ tree.rows, row.isKey → tree.contains row.path
  distinct_paths : (tree.rows.map Row.path).Nodup

/-- The root's child `""` has a row of its own, not folded into its only child,
and that row is open. -/
def EmptyRowOpen (tree : KeyTree) : Prop :=
  [] ∈ tree.expanded ∧ ∃ node ∈ tree.find [], node.children ≠ [] ∧
    (tree.compact → node.label.isKey ∨ node.singleChild = none)

variable {tree : KeyTree} {node : Node} {pre : Str} {address : List Str} {depth fuel : Nat}

/-! ## Addresses -/

/-- The lines of a walk have the addresses of the nodes they render, all of them
below the node walked. -/
theorem address_of_mem_walk (wellFormed : node.WellFormed IsSegment) {line : Line}
    (member : line ∈ tree.walk fuel node pre depth address) :
    ∃ tail, tail ≠ [] ∧ line.address = address ++ tail ∧
      node.descend tail = some line.node := by
  induction fuel generalizing node pre depth address with
  | zero => cases member
  | succ fuel ih =>
      rcases mem_walk_succ.mp member with ⟨child, childMem, place⟩
      rcases foldedChild_spec tree pre address wellFormed childMem
        with ⟨segments, addressEq, _, found, _⟩
      rcases place with here | below
      · subst here
        exact ⟨child.1 :: segments, List.cons_ne_nil _ _, addressEq, found⟩
      · rcases ih (wellFormed.descend found) (mem_below.mp below).2
          with ⟨tail, _, lineEq, tailFound⟩
        refine ⟨child.1 :: segments ++ tail, List.cons_ne_nil _ _, ?_, ?_⟩
        · rw [lineEq, addressEq, List.append_assoc]
        · rw [Trie.descend_append, found]
          exact tailFound

theorem row_of_mem_walk {line : Line} (member : line ∈ tree.walk fuel node pre depth address) :
    line.row.isKey = line.node.label.isKey := by
  induction fuel generalizing node pre depth address with
  | zero => cases member
  | succ fuel ih =>
      rcases mem_walk_succ.mp member with ⟨child, childMem, here | below⟩
      · subst here
        rfl
      · exact ih (mem_below.mp below).2

/-- The addresses of a folded child and of everything below it begin with its
own. -/
theorem address_of_mem_block (wellFormed : node.WellFormed IsSegment) {child : Str × Node}
    (childMem : child ∈ node.children) {line : Line}
    (member : line ∈ tree.lineOf depth (tree.foldedChild pre address child) ::
      tree.below fuel depth (tree.foldedChild pre address child)) :
    ∃ tail, line.address = address ++ child.1 :: tail := by
  rcases foldedChild_spec tree pre address wellFormed childMem
    with ⟨segments, addressEq, _, found, _⟩
  rcases List.mem_cons.mp member with here | below
  · subst here
    exact ⟨segments, addressEq⟩
  · rcases address_of_mem_walk (wellFormed.descend found) (mem_below.mp below).2
      with ⟨tail, _, lineEq, _⟩
    refine ⟨segments ++ tail, ?_⟩
    rw [lineEq, addressEq]
    simp

/-- No node is rendered twice. -/
theorem nodup_addresses_walk (wellFormed : node.WellFormed IsSegment) :
    ((tree.walk fuel node pre depth address).map Line.address).Nodup := by
  induction fuel generalizing node pre depth address with
  | zero => exact List.nodup_nil
  | succ fuel ih =>
      rw [(walk_perm.map Line.address).nodup_iff, List.flatMap_map, List.map_flatMap,
        List.nodup_flatMap]
      constructor
      · intro child childMem
        rcases foldedChild_spec tree pre address wellFormed childMem
          with ⟨segments, _, _, found, _⟩
        have targetFormed := wellFormed.descend found
        rw [List.map_cons, List.nodup_cons]
        constructor
        · intro again
          rcases List.mem_map.mp again with ⟨line, below, sameAddress⟩
          rcases address_of_mem_walk targetFormed (mem_below.mp below).2
            with ⟨tail, nonempty, lineEq, _⟩
          rw [lineEq] at sameAddress
          exact nonempty (List.append_right_eq_self.mp sameAddress)
        · rw [below]
          split
          · exact ih targetFormed
          · exact List.nodup_nil
      · apply List.Pairwise.imp_of_mem _ wellFormed.increasing
        intro left right leftMem rightMem before address' inLeft inRight
        rcases List.mem_map.mp inLeft with ⟨leftLine, leftPlace, rfl⟩
        rcases List.mem_map.mp inRight with ⟨rightLine, rightPlace, sameAddress⟩
        rcases address_of_mem_block wellFormed leftMem leftPlace with ⟨leftTail, leftEq⟩
        rcases address_of_mem_block wellFormed rightMem rightPlace with ⟨rightTail, rightEq⟩
        rw [leftEq, rightEq, List.append_cancel_left_eq] at sameAddress
        exact before.ne (List.cons.inj sameAddress).1.symm

/-! ## Paths -/

/-- Unless the row of the root's child `""` is open, paths are joined
addresses. -/
theorem path_of_mem_walk (shut : ¬tree.EmptyRowOpen) (found : tree.root.descend address = some node)
    (visible : address ≠ [] → joinPath address ≠ []) {line : Line}
    (member : line ∈ tree.walk fuel node (joinPath address) depth address) :
    line.row.path = joinPath line.address := by
  induction fuel generalizing node depth address with
  | zero => cases member
  | succ fuel ih =>
      have wellFormed := tree.wellFormed.descend found
      rcases mem_walk_succ.mp member with ⟨child, childMem, place⟩
      rcases foldedChild_spec tree (joinPath address) address wellFormed childMem
        with ⟨segments, addressEq, pathEq, childFound, stops⟩
      rw [← joinPath_append_cons visible, ← addressEq] at pathEq
      rcases place with here | below
      · subst here
        exact pathEq
      · rcases mem_below.mp below with ⟨isOpen, walked⟩
        generalize tree.foldedChild (joinPath address) address child = entry at *
        have targetFound : tree.root.descend entry.address = some entry.target := by
          rw [addressEq, Trie.descend_append, found]
          exact childFound
        rw [pathEq] at walked
        apply ih targetFound _ walked
        intro nonempty empty
        have single := eq_empty_of_joinPath_eq_nil nonempty empty
        rw [rowOf, Bool.and_eq_true, decide_eq_true_iff, pathEq, empty] at isOpen
        rw [single] at targetFound
        refine shut ⟨isOpen.2, entry.target, targetFound, ?_, stops⟩
        simpa using isOpen.1

/-- Unless the row of the root's child `""` is open, the rows are faithful. -/
theorem rowsFaithful_of_not_emptyRowOpen (shut : ¬tree.EmptyRowOpen) : tree.RowsFaithful := by
  have located : ∀ line ∈ tree.lines,
      line.address ≠ [] ∧ tree.root.descend line.address = some line.node ∧
        line.row.path = joinPath line.address := by
    intro line member
    rcases address_of_mem_walk tree.wellFormed member with ⟨tail, nonempty, addressEq, found⟩
    rw [List.nil_append] at addressEq
    rw [addressEq]
    refine ⟨nonempty, found, ?_⟩
    rw [← addressEq]
    exact path_of_mem_walk shut rfl (absurd rfl) member
  have findPath : ∀ line ∈ tree.lines,
      splitPath line.row.path = line.address ∧ tree.find line.row.path = some line.node := by
    intro line member
    rcases located line member with ⟨nonempty, found, pathEq⟩
    have split : splitPath line.row.path = line.address := by
      rw [pathEq]
      exact splitPath_joinPath (tree.wellFormed.admissible_of_descend found) nonempty
    exact ⟨split, by rw [find, split, found]⟩
  constructor
  · exact findPath
  · intro row member isKey
    rcases List.mem_map.mp member with ⟨line, lineMem, rfl⟩
    rw [row_of_mem_walk lineMem] at isKey
    rw [contains, (findPath line lineMem).2]
    exact isKey
  · have addresses : (tree.lines.map Line.address).Nodup := nodup_addresses_walk tree.wellFormed
    have splits : tree.lines.map Line.address = (tree.rows.map Row.path).map splitPath := by
      rw [rows, List.map_map, List.map_map]
      exact List.map_congr_left fun line member => (findPath line member).1.symm
    rw [splits] at addresses
    exact addresses.of_map

/-- Below the open row of the root's child `""`, paths lack their leading
separator. -/
theorem not_rowsFaithful_of_emptyRowOpen (emptyOpen : tree.EmptyRowOpen) :
    ¬tree.RowsFaithful := by
  rcases emptyOpen with ⟨expanded, node, found, nonempty, stops⟩
  have emptyMem : ([], node) ∈ tree.root.children := by
    apply Trie.mem_of_lookup
    simpa [find, splitPath, Trie.descend] using found
  have emptyRow : tree.foldedChild [] [] ([], node) =
      { label := [], path := [], target := node, address := [[]] } := by
    rw [foldedChild]
    split
    next compact => exact foldChain_of_stop (stops compact) ..
    next => rfl
  rcases List.exists_cons_of_ne_nil nonempty with ⟨child, rest, childrenEq⟩
  have childMem : child ∈ node.children := childrenEq ▸ List.mem_cons_self ..
  -- The two levels that the lines below need.
  have height : ∃ fuel, tree.root.height = fuel + 2 := by
    have below : node.height < tree.root.height := Trie.height_lt_of_mem emptyMem
    have positive := node.height_pos
    exact ⟨tree.root.height - 2, by omega⟩
  rcases height with ⟨fuel, height⟩
  have member : tree.lineOf 1 (tree.foldedChild [] [[]] child) ∈ tree.lines := by
    rw [lines, height, mem_walk_succ]
    refine ⟨([], node), emptyMem, .inr ?_⟩
    rw [emptyRow, mem_below]
    refine ⟨by simp [rowOf, nonempty, expanded], ?_⟩
    exact mem_walk_succ.mpr ⟨child, childMem, .inl rfl⟩
  intro faithful
  rcases foldedChild_spec tree [] [[]] (tree.wellFormed.child _ emptyMem) childMem
    with ⟨segments, addressEq, pathEq, _, _⟩
  have split := (faithful.find_path _ member).1
  have joined := congrArg joinPath split
  rw [joinPath_splitPath] at joined
  -- The path lacks the separator with which the joined address begins.
  have shorter : (tree.foldedChild [] [[]] child).path =
      separator :: (tree.foldedChild [] [[]] child).path := by
    calc (tree.foldedChild [] [[]] child).path
        = joinPath (tree.foldedChild [] [[]] child).address := joined
      _ = separator :: (tree.foldedChild [] [[]] child).path := by
          rw [addressEq, pathEq]
          simp [joinPath, childPath, intercalate_cons]
  exact (List.cons_ne_self _ _) shorter.symm

end KeyTree

/-! ## Runs -/

/-- An operation on a tree. -/
inductive TreeOp where
  | insertWithKind (key : Str) (kind : Option Kind)
  | clearKeys
  | reset
  | toggle (path : Str)
  | expandAll
  | collapseAll
  | setCompact (compact : Bool)
  deriving DecidableEq, Repr

def TreeOp.apply (tree : KeyTree) : TreeOp → KeyTree
  | insertWithKind key kind => tree.insertWithKind key kind
  | clearKeys => tree.clearKeys
  | reset => tree.reset
  | toggle path => (tree.toggle path).1
  | expandAll => tree.expandAll
  | collapseAll => tree.collapseAll
  | setCompact compact => tree.setCompact compact

/-- The tree after some operations on a new one. -/
def KeyTree.run (ops : List TreeOp) : KeyTree :=
  ops.foldl TreeOp.apply {}

/-- After any operations the rows carry the paths of the nodes they render,
exactly unless the row of the root's child `""` is open. -/
theorem KeyTree.rowsFaithful_run_iff (ops : List TreeOp) :
    (KeyTree.run ops).RowsFaithful ↔ ¬(KeyTree.run ops).EmptyRowOpen := by
  constructor
  · intro faithful emptyOpen
    exact not_rowsFaithful_of_emptyRowOpen emptyOpen faithful
  · exact rowsFaithful_of_not_emptyRowOpen

/-- With `:a` and `:b` inserted and the row `""` opened, the rows of the two keys
carry the paths `a` and `b`, at which there is no key. -/
theorem KeyTree.rows_below_empty_segment :
    let tree := KeyTree.run [.insertWithKind ":a".toList none, .insertWithKind ":b".toList none,
      .toggle []]
    tree.rows.map Row.path = [[], "a".toList, "b".toList] ∧
      (∃ row ∈ tree.rows, row.isKey ∧ ¬tree.contains row.path) ∧
      ¬∀ ops, (KeyTree.run ops).RowsFaithful := by
  intro tree
  have missing : ∃ row ∈ tree.rows, row.isKey ∧ ¬tree.contains row.path := by decide
  refine ⟨by decide, missing, ?_⟩
  intro faithful
  rcases missing with ⟨row, member, isKey, absent⟩
  exact absent ((faithful _).contains_path row member isKey)

end Keylens.Ui
