import Keylens.Ui.Ways

/-!
# A tree shows its ways

The walk folds chains and descends into open rows; the lines it lists are the ways
that the keys of the tree have, to addresses at which no chain goes on.
-/

namespace Keylens.Ui.KeyTree

open Keylens.Library Keylens.Connection

/-- A tree as the keys it holds and what is open. -/
def view (tree : KeyTree) (entries : List (Str × Option Kind)) : View where
  keys := distinctKeys entries
  compact := tree.compact
  expanded := tree.expanded

/-- A node with the chain below it folded. -/
def folding (tree : KeyTree) (node : Node) (label path : Str) (address : List Str) : Folded :=
  if tree.compact then foldChain node label path address
  else { label, path, target := node, address }

theorem foldedChild_eq (tree : KeyTree) (pre : Str) (address : List Str) (child : Str × Node) :
    tree.foldedChild pre address child =
      tree.folding child.2 child.1 (childPath pre child.1) (address ++ [child.1]) :=
  rfl

variable {tree : KeyTree} {entries : List (Str × Option Kind)}
variable {node : Node} {address : List Str} {path : Str}

/-! ## The nodes from the keys -/

/-- Apart from the root a node is there for the keys below it. -/
theorem Holds.isSome_descend (holds : tree.Holds entries) (nonempty : address ≠ []) :
    (tree.root.descend address).isSome ↔ (keysBelow (distinctKeys entries) address).Nonempty := by
  have label := congrArg Option.isSome (holds.label_eq address)
  rw [Option.isSome_map, labelAt] at label
  rw [label]
  split
  next there => simpa [nonempty] using there
  next absent => simpa [nonempty] using absent

theorem Holds.exists_child (holds : tree.Holds entries)
    (found : tree.root.descend address = some node) (segment : Str) :
    (∃ child, (segment, child) ∈ node.children) ↔
      (keysBelow (distinctKeys entries) (address ++ [segment])).Nonempty := by
  have longer : address ++ [segment] ≠ [] :=
    List.append_ne_nil_of_right_ne_nil _ (List.cons_ne_nil _ _)
  rw [← holds.isSome_descend longer, Trie.descend_concat found, Option.isSome_iff_exists]
  constructor
  · rintro ⟨child, member⟩
    exact ⟨child, (tree.wellFormed.descend found).lookup_of_mem member⟩
  · rintro ⟨child, isChild⟩
    exact ⟨child, Trie.mem_of_lookup isChild⟩

theorem Holds.isKey_iff (holds : tree.Holds entries) (nonempty : address ≠ [])
    (found : tree.root.descend address = some node) :
    node.label.isKey ↔ joinPath address ∈ distinctKeys entries := by
  have there := (holds.isSome_descend nonempty).mp (by rw [found]; rfl)
  have label := holds.label_eq address
  rw [found, labelAt, if_pos (.inr there), Option.map_some, Option.some_inj] at label
  rw [label, ← isSome_firstKind]
  rfl

/-- Where keys go on from a node it has a child. -/
theorem Holds.child_of_there (holds : tree.Holds entries)
    (found : tree.root.descend address = some node) {segment : Str}
    (there : (keysBelow (distinctKeys entries) (address ++ [segment])).Nonempty) :
    ∃ child, (segment, child) ∈ node.children ∧
      tree.root.descend (address ++ [segment]) = some child := by
  rcases (holds.exists_child found segment).mpr there with ⟨child, member⟩
  refine ⟨child, member, ?_⟩
  rw [Trie.descend_concat found]
  exact (tree.wellFormed.descend found).lookup_of_mem member

/-- The children of a node at which the keys pass are the one child they pass to. -/
theorem Holds.children_of_passes (holds : tree.Holds entries)
    (found : tree.root.descend address = some node)
    (passes : Passes (distinctKeys entries) address) : ∃ only, node.children = [only] := by
  rcases passes with ⟨next, there, same⟩
  have onlyNext : ∀ entry ∈ node.children, entry.1 = next := by
    intro entry member
    rcases (holds.exists_child found entry.1).mp ⟨entry.2, member⟩ with ⟨key, below⟩
    have alsoBelow := keysBelow_append_subset _ _ _ below
    rw [← same] at alsoBelow
    have bothPrefix := List.prefix_of_prefix_length_le (mem_keysBelow.mp below).2
      (mem_keysBelow.mp alsoBelow).2 (by simp)
    have equal := bothPrefix.eq_of_length (by simp)
    exact (List.cons.inj (List.append_cancel_left equal)).1
  rcases (holds.exists_child found next).mpr there with ⟨child, member⟩
  have increasing := (tree.wellFormed.descend found).increasing
  cases children : node.children with
  | nil => simp [children] at member
  | cons first rest =>
      rw [children] at onlyNext increasing
      have noMore : rest = [] := by
        apply List.eq_nil_iff_forall_not_mem.mpr
        intro entry later
        have before := (List.pairwise_cons.mp increasing).1 entry later
        rw [onlyNext first (List.mem_cons_self ..),
          onlyNext entry (List.mem_cons_of_mem _ later)] at before
        exact lt_irrefl _ before
      exact ⟨first, by rw [noMore]⟩

/-- The keys pass to the only child of a node that is no key. -/
theorem Holds.passes_of_children (holds : tree.Holds entries) (nonempty : address ≠ [])
    (found : tree.root.descend address = some node) (noKey : node.label.isKey = false)
    {only : Str × Node} (children : node.children = [only]) :
    Passes (distinctKeys entries) address := by
  have onlyThere : (keysBelow (distinctKeys entries) (address ++ [only.1])).Nonempty := by
    apply (holds.exists_child found only.1).mp
    exact ⟨only.2, by simp [children]⟩
  refine ⟨only.1, onlyThere, (keysBelow_append_subset ..).antisymm ?_⟩
  intro key below
  have isKey := (mem_keysBelow.mp below).1
  have further : splitPath key ≠ address := by
    rintro rfl
    rw [← Bool.not_eq_true, holds.isKey_iff nonempty found, joinPath_splitPath] at noKey
    exact noKey isKey
  rcases goesOn_of_ne below further with ⟨segment, starts⟩
  have there : (keysBelow (distinctKeys entries) (address ++ [segment])).Nonempty :=
    ⟨key, mem_keysBelow.mpr ⟨isKey, starts⟩⟩
  rcases (holds.exists_child found segment).mpr there with ⟨child, member⟩
  rw [children, List.mem_singleton] at member
  rw [← member]
  exact mem_keysBelow.mpr ⟨isKey, starts⟩

/-- A node is a link of a chain exactly if its keys pass. -/
theorem Holds.passes_iff (holds : tree.Holds entries) (nonempty : address ≠ [])
    (found : tree.root.descend address = some node) :
    Passes (distinctKeys entries) address ↔
      node.label.isKey = false ∧ ∃ only, node.children = [only] := by
  have segments := tree.wellFormed.admissible_of_descend found
  constructor
  · intro passes
    refine ⟨?_, holds.children_of_passes found passes⟩
    rw [← Bool.not_eq_true, holds.isKey_iff nonempty found]
    intro isKey
    apply not_passes_splitPath isKey
    rw [splitPath_joinPath segments nonempty]
    exact passes
  · rintro ⟨noKey, only, children⟩
    exact holds.passes_of_children nonempty found noKey children

/-! ## The lines are ways -/

/-- Where a fold of a compact tree ends, no chain goes on. -/
theorem Holds.way_foldChain (holds : tree.Holds entries) (compact : tree.compact)
    (way : Way (tree.view entries) address path)
    (found : tree.root.descend address = some node) (label : Str) :
    Way (tree.view entries) (foldChain node label path address).address
        (foldChain node label path address).path ∧
      ¬(tree.view entries).Folds (foldChain node label path address).address ∧
      tree.root.descend (foldChain node label path address).address =
        some (foldChain node label path address).target := by
  fun_induction foldChain node label path address with
  | case1 data label path address segment only noKey ih =>
      have passes : Passes (distinctKeys entries) address :=
        (holds.passes_iff way.ne_nil found).mpr ⟨noKey, _, rfl⟩
      have onlyFound : tree.root.descend (address ++ [segment]) = some only := by
        rw [Trie.descend_concat found]
        simp
      have there : (keysBelow (distinctKeys entries) (address ++ [segment])).Nonempty :=
        (holds.exists_child found segment).mp ⟨only, List.mem_singleton.mpr rfl⟩
      exact ih (.fold way ⟨compact, passes⟩ there) onlyFound
  | case2 data children label path address stops =>
      refine ⟨way, ?_, found⟩
      rintro ⟨_, passes⟩
      rcases (holds.passes_iff way.ne_nil found).mp passes with ⟨noKey, only, childrenEq⟩
      exact stops only.1 only.2 noKey childrenEq

theorem Holds.way_folding (holds : tree.Holds entries)
    (way : Way (tree.view entries) address path)
    (found : tree.root.descend address = some node) (label : Str) :
    Way (tree.view entries) (tree.folding node label path address).address
        (tree.folding node label path address).path ∧
      ¬(tree.view entries).Folds (tree.folding node label path address).address ∧
      tree.root.descend (tree.folding node label path address).address =
        some (tree.folding node label path address).target := by
  rw [folding]
  split
  next compact => exact holds.way_foldChain compact way found label
  next flat => exact ⟨way, fun folds => flat folds.1, found⟩

/-- The lines of a walk are ways when its tops are. -/
theorem Holds.way_of_mem_walk (holds : tree.Holds entries) {pre : Str} {depth fuel : Nat}
    (found : tree.root.descend address = some node)
    (tops : ∀ child ∈ node.children,
      Way (tree.view entries) (address ++ [child.1]) (childPath pre child.1))
    {line : Line} (member : line ∈ tree.walk fuel node pre depth address) :
    Way (tree.view entries) line.address line.row.path ∧
      ¬(tree.view entries).Folds line.address := by
  induction fuel generalizing node pre depth address with
  | zero => cases member
  | succ fuel ih =>
      rcases mem_walk_succ.mp member with ⟨child, childMem, place⟩
      have childFound : tree.root.descend (address ++ [child.1]) = some child.2 := by
        rw [Trie.descend_concat found]
        exact (tree.wellFormed.descend found).lookup_of_mem childMem
      rcases holds.way_folding (tops child childMem) childFound child.1 with
        ⟨way, stops, targetFound⟩
      rw [← foldedChild_eq] at way stops targetFound
      rcases place with rfl | below
      · exact ⟨way, stops⟩
      · rcases mem_below.mp below with ⟨expanded, walked⟩
        rw [rowOf, Bool.and_eq_true, decide_eq_true_iff] at expanded
        apply ih targetFound _ walked
        intro grandchild grandchildMem
        apply Way.step way stops expanded.2
        exact (holds.exists_child targetFound grandchild.1).mp ⟨grandchild.2, grandchildMem⟩

/-- Every line is a way to an address at which no chain goes on. -/
theorem Holds.way_of_mem_lines (holds : tree.Holds entries) {line : Line}
    (member : line ∈ tree.lines) :
    Way (tree.view entries) line.address line.row.path ∧
      ¬(tree.view entries).Folds line.address := by
  have found : tree.root.descend [] = some tree.root := rfl
  apply holds.way_of_mem_walk found _ member
  intro child childMem
  exact .top ((holds.exists_child found child.1).mp ⟨child.2, childMem⟩)

/-! ## The ways have lines -/

theorem Holds.folding_of_stops (holds : tree.Holds entries) (nonempty : address ≠ [])
    (found : tree.root.descend address = some node) (stops : ¬(tree.view entries).Folds address)
    (label path : Str) :
    tree.folding node label path address = { label, path, target := node, address } := by
  rw [folding]
  split
  next compact =>
      apply foldChain_of_stop
      by_contra link
      rcases not_or.mp link with ⟨noKey, single⟩
      refine stops ⟨compact, (holds.passes_iff nonempty found).mpr ⟨?_, ?_⟩⟩
      · exact Bool.not_eq_true _ |>.mp noKey
      · rw [Trie.singleChild] at single
        split at single
        next only children => exact ⟨only, children⟩
        next => exact absurd rfl single
  next => rfl

/-- On every way there is the line of the node reached, or of the one at which the chain
from there ends. -/
theorem Holds.exists_folding (holds : tree.Holds entries)
    (way : Way (tree.view entries) address path) :
    ∃ node, tree.root.descend address = some node ∧
      ∃ depth label, tree.lineOf depth (tree.folding node label path address) ∈ tree.lines := by
  induction way with
  | @top segment there =>
      have found : tree.root.descend [] = some tree.root := rfl
      rcases holds.child_of_there found there with ⟨child, childMem, childFound⟩
      refine ⟨child, childFound, 0, segment, ?_⟩
      apply tree.listing_lines.mem_of_top
      apply List.mem_map_of_mem
      exact mem_ordered.mpr ⟨(segment, child), childMem, rfl⟩
  | @fold address path segment way folds there ih =>
      rcases ih with ⟨node, found, depth, label, member⟩
      rcases (holds.passes_iff way.ne_nil found).mp folds.2 with ⟨noKey, only, children⟩
      rcases holds.child_of_there found there with ⟨child, childMem, childFound⟩
      have isOnly : (segment, child) = only := by
        rw [children] at childMem
        exact List.mem_singleton.mp childMem
      subst isOnly
      refine ⟨child, childFound, depth, label ++ separator :: segment, ?_⟩
      have compact : tree.compact = true := folds.1
      rcases node with ⟨data, nodeChildren⟩
      rw [Trie.children_node] at children
      rw [Trie.label_node] at noKey
      subst children
      rw [folding, if_pos compact] at member ⊢
      rw [foldChain_of_link noKey] at member
      exact member
  | @step address path segment way stops isOpen there ih =>
      rcases ih with ⟨node, found, depth, label, member⟩
      rcases holds.child_of_there found there with ⟨child, childMem, childFound⟩
      refine ⟨child, childFound, depth + 1, segment, ?_⟩
      rw [holds.folding_of_stops way.ne_nil found stops] at member
      apply tree.listing_lines.mem_of_child member
      have isBranch : node.children ≠ [] := List.ne_nil_of_mem childMem
      have expanded : (tree.rowOf depth { label, path, target := node, address }).expanded := by
        rw [rowOf, Bool.and_eq_true, decide_eq_true_iff]
        exact ⟨by simpa using isBranch, isOpen⟩
      rw [childLines, lineOf, if_pos expanded]
      apply List.mem_map_of_mem
      exact mem_ordered.mpr ⟨(segment, child), childMem, rfl⟩

/-- The lines of a tree are the ways of its keys that end where no chain goes on. -/
theorem Holds.exists_line_iff (holds : tree.Holds entries) :
    (∃ line ∈ tree.lines, line.address = address ∧ line.row.path = path) ↔
      Way (tree.view entries) address path ∧ ¬(tree.view entries).Folds address := by
  constructor
  · rintro ⟨line, member, rfl, rfl⟩
    exact holds.way_of_mem_lines member
  · rintro ⟨way, stops⟩
    rcases holds.exists_folding way with ⟨node, found, depth, label, member⟩
    rw [holds.folding_of_stops way.ne_nil found stops] at member
    exact ⟨_, member, rfl, rfl⟩

/-- What a row says of its node, from the keys. -/
theorem Holds.row_of_mem_lines (holds : tree.Holds entries) {line : Line}
    (member : line ∈ tree.lines) :
    (line.row.isKey ↔ joinPath line.address ∈ distinctKeys entries) ∧
      (line.row.isBranch ↔ (tree.view entries).Branches line.address) ∧
      (line.row.expanded ↔ line.row.isBranch ∧ line.row.path ∈ tree.expanded) := by
  rcases descend_of_mem_lines member with ⟨nonempty, found⟩
  rcases exists_lineOf member with ⟨depth, pre, address, child, rfl⟩
  refine ⟨holds.isKey_iff nonempty found, ?_, ?_⟩
  · change (!(tree.foldedChild pre address child).target.children.isEmpty) = true ↔ _
    rw [Bool.not_eq_true', List.isEmpty_eq_false_iff]
    constructor
    · intro nonempty
      rcases List.exists_mem_of_ne_nil _ nonempty with ⟨grandchild, grandchildMem⟩
      exact ⟨grandchild.1,
        (holds.exists_child found grandchild.1).mp ⟨grandchild.2, grandchildMem⟩⟩
    · rintro ⟨next, there⟩
      rcases (holds.exists_child found next).mpr there with ⟨grandchild, grandchildMem⟩
      exact List.ne_nil_of_mem grandchildMem
  · change (_ && decide _) = true ↔ _
    rw [Bool.and_eq_true, decide_eq_true_iff]
    rfl

/-- The open rows of a tree, from the keys. -/
theorem Holds.exists_open_iff (holds : tree.Holds entries) :
    (∃ line ∈ tree.lines, line.address = address ∧ line.row.path = path ∧ line.row.expanded) ↔
      (tree.view entries).Opens address path := by
  constructor
  · rintro ⟨line, member, rfl, rfl, expanded⟩
    rcases holds.row_of_mem_lines member with ⟨_, branches, isOpen⟩
    rcases holds.way_of_mem_lines member with ⟨way, stops⟩
    rcases isOpen.mp expanded with ⟨isBranch, inExpanded⟩
    exact ⟨way, stops, branches.mp isBranch, inExpanded⟩
  · rintro ⟨way, stops, isBranch, inExpanded⟩
    rcases holds.exists_line_iff.mpr ⟨way, stops⟩ with ⟨line, member, rfl, rfl⟩
    rcases holds.row_of_mem_lines member with ⟨_, branches, isOpen⟩
    exact ⟨line, member, rfl, rfl, isOpen.mpr ⟨branches.mpr isBranch, inExpanded⟩⟩

end Keylens.Ui.KeyTree
