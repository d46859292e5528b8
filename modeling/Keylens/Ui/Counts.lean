import Keylens.Ui.KeySet
import Keylens.Ui.RowListing

/-!
# The counts of the rows

What a row counts is the keys of its node, and folding a chain loses none of them.
So the counts of the rows below an open row add up to its own, and a compact tree
has fewer rows without a key than keys.
-/

namespace Keylens.Ui

open Keylens.Library Keylens.Connection

theorem keyCount_eq (node : Node) :
    keyCount node =
      node.label.isKey.toNat + (node.children.map fun child => keyCount child.2).sum := by
  rcases node with ⟨data, children⟩
  rw [keyCount, Trie.sum, Trie.sums_eq_sum_map]
  rfl

/-- The links of a chain are no keys. -/
theorem keyCount_foldChain (child : Node) (label path : Str) (address : List Str) :
    keyCount (foldChain child label path address).target = keyCount child := by
  fun_induction foldChain child label path address with
  | case1 data label path address segment only passThrough ih =>
      rw [ih, keyCount_eq (.node data [(segment, only)])]
      simp [passThrough]
  | case2 => rfl

namespace KeyTree

variable {tree : KeyTree} {entries : List (Str × Option Kind)}
variable {node : Node} {pre : Str} {address : List Str}

theorem keyCount_foldedChild (child : Str × Node) :
    keyCount (tree.foldedChild pre address child).target = keyCount child.2 := by
  rw [foldedChild]
  split
  · exact keyCount_foldChain ..
  · rfl

theorem stops_foldedChild (compact : tree.compact) (child : Str × Node) :
    (tree.foldedChild pre address child).target.label.isKey ∨
      (tree.foldedChild pre address child).target.singleChild = none := by
  rw [foldedChild, if_pos compact]
  rcases foldChain_spec child.2 child.1 (childPath pre child.1) (address ++ [child.1])
    with ⟨_, _, _, _, stops⟩
  exact stops

/-- A folded child counts the keys of the child. -/
theorem Holds.subtreeKeys_foldedChild (holds : tree.Holds entries) {place : List Str}
    (found : tree.root.descend place = some node) {child : Str × Node}
    (member : child ∈ node.children) :
    (tree.foldedChild pre address child).target.label.subtreeKeys = keyCount child.2 := by
  rcases foldedChild_spec tree pre address (tree.wellFormed.descend found) member
    with ⟨segments, _, _, childFound, _⟩
  have targetFound : tree.root.descend (place ++ child.1 :: segments) =
      some (tree.foldedChild pre address child).target := by
    rw [Trie.descend_append, found]
    exact childFound
  rw [holds.counted _ _ targetFound, keyCount_foldedChild]

/-- The children of a node count its keys, the node itself apart. -/
theorem Holds.sum_ordered (holds : tree.Holds entries) {place : List Str}
    (found : tree.root.descend place = some node) :
    ((tree.ordered node pre address).map fun entry => entry.target.label.subtreeKeys).sum +
      node.label.isKey.toNat = node.label.subtreeKeys := by
  have children : (tree.ordered node pre address).map
      (fun entry => entry.target.label.subtreeKeys) |>.Perm
        (node.children.map fun child => keyCount child.2) := by
    apply (ordered_perm.map _).trans
    rw [List.map_map]
    apply List.Perm.of_eq
    exact List.map_congr_left fun child member => holds.subtreeKeys_foldedChild found member
  rw [children.sum_eq, holds.counted _ _ found, keyCount_eq, Nat.add_comm]

theorem Holds.sum_childLines (holds : tree.Holds entries) {line : Line}
    (member : line ∈ tree.lines) (isOpen : line.row.expanded) :
    (((tree.childLines line).map Line.row).map Row.subtreeKeys).sum + line.row.isKey.toNat =
      line.row.subtreeKeys := by
  have found := (descend_of_mem_lines member).2
  rcases exists_lineOf member with ⟨depth, pre, address, child, rfl⟩
  rw [childLines, if_pos isOpen, List.map_map, List.map_map]
  exact holds.sum_ordered found

/-- The root is no key, and it counts all of them. -/
theorem Holds.root_label (holds : tree.Holds entries) :
    tree.root.label.isKey = false ∧ tree.root.label.subtreeKeys = tree.len := by
  have label := holds.label_eq []
  rw [labelAt, if_pos (.inl rfl), Trie.descend_nil, Option.map_some, Option.some_inj] at label
  refine ⟨?_, holds.faithful.root_eq⟩
  rw [label]
  rfl

theorem Holds.sum_tops (holds : tree.Holds entries) :
    ((tree.rows.filter fun row => row.depth = 0).map Row.subtreeKeys).sum = tree.len := by
  have sum := @sum_ordered tree entries tree.root [] [] holds [] (Trie.descend_nil tree.root)
  rw [holds.root_label.1, holds.root_label.2] at sum
  rw [filter_rows_eq, List.map_map]
  exact sum

/-- The counts add up, whatever is open and whether or not chains are folded: the
rows at the top count all keys, those below an open row count its keys, and a
folded chain counts what its first link counts. -/
theorem counts_add_up (ops : List TreeOp) (expanded : Finset Str) (compact : Bool) :
    let tree : KeyTree := { run ops with expanded, compact }
    ((tree.rows.filter fun row => row.depth = 0).map Row.subtreeKeys).sum = tree.len ∧
      (∀ before row after, tree.rows = before ++ row :: after → row.expanded →
        ((childRows row after).map Row.subtreeKeys).sum + row.isKey.toNat = row.subtreeKeys) ∧
      ∀ place node child pre address, tree.root.descend place = some node →
        child ∈ node.children →
          (tree.foldedChild pre address child).target.label.subtreeKeys =
            child.2.label.subtreeKeys := by
  intro tree
  have holds : tree.Holds (inserted ops) := (holds_run ops).of_root_eq rfl rfl
  refine ⟨holds.sum_tops, ?_, ?_⟩
  · intro before row after split isOpen
    rcases rows_split split with ⟨above, line, under, linesEq, _, rfl, rfl⟩
    rw [childRows_eq linesEq]
    have member : line ∈ tree.lines := by simp [linesEq]
    exact holds.sum_childLines member isOpen
  · intro place node child pre address found member
    have childFound : tree.root.descend (place ++ [child.1]) = some child.2 := by
      rw [Trie.descend_append, found]
      simp [Trie.descend, (tree.wellFormed.descend found).lookup_of_mem member]
    rw [holds.subtreeKeys_foldedChild found member, holds.counted _ _ childFound]

/-! ## The number of rows -/

/-- Below every node but the root there is a key. -/
theorem Holds.keyCount_pos (holds : tree.Holds entries)
    (found : tree.root.descend address = some node) (nonempty : address ≠ []) :
    0 < keyCount node := by
  have label := holds.label_eq address
  rw [found, Option.map_some, labelAt] at label
  split at label
  next there =>
      rw [← holds.counted _ _ found, Option.some.inj label]
      exact Finset.card_pos.mpr (there.resolve_left nonempty)
  next => cases label

/-- In a compact tree a row without a key is a fork. -/
theorem Holds.fork_of_mem_lines (holds : tree.Holds entries) (compact : tree.compact) {line : Line}
    (member : line ∈ tree.lines) (noKey : ¬line.row.isKey) :
    line.row.isBranch ∧ 2 ≤ line.node.children.length := by
  rcases descend_of_mem_lines member with ⟨nonempty, found⟩
  have stops : line.node.label.isKey ∨ line.node.singleChild = none := by
    rcases exists_lineOf member with ⟨depth, pre, address, child, rfl⟩
    exact stops_foldedChild compact child
  have isBranch : line.row.isBranch = !line.node.children.isEmpty := by
    rcases exists_lineOf member with ⟨depth, pre, address, child, rfl⟩
    rfl
  rw [row_of_mem_walk member] at noKey
  rw [isBranch]
  have forked := stops.resolve_left noKey
  rw [Trie.singleChild] at forked
  cases childrenEq : line.node.children with
  | nil => exact absurd (holds.leaf_isKey found nonempty childrenEq) noKey
  | cons first rest =>
      cases rest with
      | nil => simp [childrenEq] at forked
      | cons second rest => simp

theorem length_ordered : (tree.ordered node pre address).length = node.children.length := by
  rw [ordered_perm.length_eq, List.length_map]

theorem sum_keyCount_ordered (depth : Nat) :
    (((tree.ordered node pre address).map (tree.lineOf depth)).map
      fun line => keyCount line.node).sum =
        (node.children.map fun child => keyCount child.2).sum := by
  rw [List.map_map, (ordered_perm.map _).sum_eq, List.map_map]
  congr 1
  exact List.map_congr_left fun child _ => keyCount_foldedChild child

/-- What stands below a row without a key are at least two rows. -/
theorem Holds.branching (holds : tree.Holds entries) (compact : tree.compact) {line : Line}
    (member : line ∈ tree.lines) :
    2 + 2 * ((tree.childLines line).map fun line => keyCount line.node).sum ≤
      2 * keyCount line.node + (tree.childLines line).length := by
  rcases descend_of_mem_lines member with ⟨nonempty, found⟩
  rw [childLines]
  split
  next isOpen =>
      rw [sum_keyCount_ordered, List.length_map, length_ordered, keyCount_eq line.node]
      cases key : line.node.label.isKey with
      | true =>
          rw [Bool.toNat_true]
          omega
      | false =>
          have noKey : ¬line.row.isKey := by
            rw [row_of_mem_walk member, key]
            exact Bool.false_ne_true
          have forked := (holds.fork_of_mem_lines compact member noKey).2
          omega
  next =>
      have positive := holds.keyCount_pos found nonempty
      rw [List.map_nil, List.sum_nil, List.length_nil]
      omega

theorem Holds.length_rows_add_le (holds : tree.Holds entries) (compact : tree.compact) :
    tree.rows.length + tree.root.children.length ≤ 2 * tree.len := by
  have bound := tree.listing_lines.length_add_length_le (fun line => keyCount line.node)
    fun line member => holds.branching compact member
  have rootCount := keyCount_eq tree.root
  rw [← holds.counted [] tree.root rfl, holds.root_label.1, holds.root_label.2, Bool.toNat_false,
    Nat.zero_add] at rootCount
  rw [rows, List.length_map, rootCount]
  rwa [sum_keyCount_ordered, List.length_map, length_ordered] at bound

/-- A compact tree has fewer rows without a key than keys. -/
theorem Holds.length_rows_le (holds : tree.Holds entries) (compact : tree.compact) :
    tree.rows.length ≤ 2 * tree.len - 1 := by
  have bound := holds.length_rows_add_le compact
  cases childrenEq : tree.root.children with
  | nil =>
      have rootCount := keyCount_eq tree.root
      rw [← holds.counted [] tree.root rfl, holds.root_label.1, holds.root_label.2, childrenEq]
        at rootCount
      simp only [Bool.toNat_false, List.map_nil, List.sum_nil] at rootCount
      omega
  | cons child rest =>
      rw [childrenEq, List.length_cons] at bound
      omega

end KeyTree

end Keylens.Ui
