import Keylens.Connection.Kind
import Keylens.Library.Text
import Keylens.Library.Trie
import Mathlib.Data.Finset.Union
import Mathlib.Data.List.Lex
import Mathlib.Data.Char

/-!
# The key tree

Redis keyspaces are flat; the browser splits keys on `:` and shows a tree.  Keys
go in through `insertWithKind`, and `rows` flattens the tree to the lines that
are visible.
-/

namespace Keylens.Ui

open Keylens.Library Keylens.Connection

def separator : Char := ':'

/-- What a node holds beside its children. -/
structure NodeData where
  /-- A key terminates exactly here. -/
  isKey : Bool := false
  kind : Option Kind := none
  /-- Keys in this subtree, the node itself included when it is one. -/
  subtreeKeys : Nat := 0
  deriving DecidableEq, Repr

/-- A node of the tree; its children are a `BTreeMap` by segment. -/
abbrev Node := Trie Str NodeData

/-- A segment is what `split(':')` yields: a text without the separator. -/
def IsSegment (segment : Str) : Prop :=
  separator ∉ segment

/-- One rendered line. -/
structure Row where
  depth : Nat
  /-- The segment shown, not the whole key. -/
  label : Str
  /-- Full key path from the root, joined with `:`. -/
  path : Str
  isKey : Bool
  isBranch : Bool
  expanded : Bool
  subtreeKeys : Nat
  kind : Option Kind
  deriving DecidableEq, Repr

/-- A row together with the node it is made from and that node's address, which
the source does not keep. -/
structure Line where
  row : Row
  node : Node
  address : List Str

theorem emptyRoot_wellFormed : (.node {} [] : Node).WellFormed IsSegment :=
  .leaf _

/-- The tree.  Siblings are sorted by segment, and no segment holds a
separator. -/
structure KeyTree where
  root : Node := .node {} []
  expanded : Finset Str := ∅
  total : Nat := 0
  compact : Bool := true
  wellFormed : root.WellFormed IsSegment := by exact emptyRoot_wellFormed

/-- `str::split(SEPARATOR)`. -/
def splitPath (path : Str) : List Str :=
  path.splitOn separator

theorem isSegment_of_mem_splitPath {path segment : Str} (member : segment ∈ splitPath path) :
    IsSegment segment :=
  not_mem_of_mem_splitOn member

/-- The path of a child: at the root there is nothing to prepend. -/
def childPath (pre segment : Str) : Str :=
  if pre = [] then segment else pre ++ separator :: segment

mutual

/-- The paths of the branches below a node. -/
def collectBranches : Node → Str → List Str
  | .node _ children, pre => collectChildren children pre

/-- The loop of `collect_branches` over some children. -/
def collectChildren : List (Str × Node) → Str → List Str
  | [], _ => []
  | (segment, child) :: rest, pre =>
      if child.children.isEmpty then collectChildren rest pre
      else
        childPath pre segment ::
          (collectBranches child (childPath pre segment) ++ collectChildren rest pre)

end

/-- A child with the chain below it folded. -/
structure Folded where
  label : Str
  path : Str
  target : Node
  address : List Str

/-- Fold `a` → `b` → `c` into one `a:b:c` row while each link is a pure
pass-through.  A node that is itself a key stops the fold. -/
def foldChain : Node → Str → Str → List Str → Folded
  | .node data children, label, path, address =>
      match data.isKey, children with
      | false, [(segment, only)] =>
          foldChain only (label ++ separator :: segment) (path ++ separator :: segment)
            (address ++ [segment])
      | _, _ => { label, path, target := .node data children, address }

namespace KeyTree

/-- Drop all keys but keep the expansion state. -/
def clearKeys (tree : KeyTree) : KeyTree :=
  { tree with root := .node {} [], total := 0, wellFormed := emptyRoot_wellFormed }

def reset (tree : KeyTree) : KeyTree :=
  { tree.clearKeys with expanded := ∅ }

def setCompact (tree : KeyTree) (compact : Bool) : KeyTree :=
  { tree with compact }

/-- Total keys inserted. -/
def len (tree : KeyTree) : Nat :=
  tree.total

/-- The node at a path. -/
def find (tree : KeyTree) (path : Str) : Option Node :=
  tree.root.descend (splitPath path)

def contains (tree : KeyTree) (key : Str) : Bool :=
  (tree.find key).any fun node => node.label.isKey

/-- Insert a key; the empty key and a key already present change nothing. -/
def insertWithKind (tree : KeyTree) (key : Str) (kind : Option Kind) : KeyTree :=
  if key = [] then tree
  else if tree.contains key then tree
  else
    let visit (data : NodeData) := { data with subtreeKeys := data.subtreeKeys + 1 }
    let arrive (data : NodeData) := { visit data with isKey := true, kind := kind }
    { tree with
      root := tree.root.updateAlong visit arrive {} (splitPath key)
      total := tree.total + 1
      wellFormed := tree.wellFormed.updateAlong _ _ _ fun _ => isSegment_of_mem_splitPath }

/-- Flip a branch; the answer is the new expanded state, or `none` for a path
that is no branch. -/
def toggle (tree : KeyTree) (path : Str) : KeyTree × Option Bool :=
  let isBranch := (tree.find path).any fun node => !node.children.isEmpty
  if !isBranch then (tree, none)
  else if path ∈ tree.expanded then
    ({ tree with expanded := tree.expanded.erase path }, some false)
  else ({ tree with expanded := insert path tree.expanded }, some true)

def collapseAll (tree : KeyTree) : KeyTree :=
  { tree with expanded := ∅ }

/-- Expand every branch. -/
def expandAll (tree : KeyTree) : KeyTree :=
  { tree with expanded := tree.expanded ∪ (collectBranches tree.root []).toFinset }

/-- One round of the first loop of `walk`: a child with the chain below it
folded. -/
def foldedChild (tree : KeyTree) (pre : Str) (address : List Str) : Str × Node → Folded
  | (segment, child) =>
      let path := childPath pre segment
      let address := address ++ [segment]
      if tree.compact then foldChain child segment path address
      else { label := segment, path, target := child, address }

/-- The row of a folded child. -/
def rowOf (tree : KeyTree) (depth : Nat) (entry : Folded) : Row :=
  let isBranch := !entry.target.children.isEmpty
  { depth
    label := entry.label
    path := entry.path
    isKey := entry.target.label.isKey
    isBranch
    expanded := isBranch && entry.path ∈ tree.expanded
    subtreeKeys := entry.target.label.subtreeKeys
    kind := entry.target.label.kind }

/-- The lines below a node, branches before leaves.  `fuel` bounds the depth; the
height of the node is enough. -/
def walk (tree : KeyTree) : Nat → Node → Str → Nat → List Str → List Line
  | 0, _, _, _, _ => []
  | fuel + 1, node, pre, depth, address =>
      let folded := node.children.map (tree.foldedChild pre address)
      let (branches, leaves) := folded.partition fun entry => !entry.target.children.isEmpty
      (branches ++ leaves).flatMap fun entry =>
        let row := tree.rowOf depth entry
        { row, node := entry.target, address := entry.address } ::
          if row.expanded then
            walk tree fuel entry.target entry.path (depth + 1) entry.address
          else []

/-- The visible lines. -/
def lines (tree : KeyTree) : List Line :=
  tree.walk tree.root.height tree.root [] 0 []

/-- The visible rows. -/
def rows (tree : KeyTree) : List Row :=
  tree.lines.map Line.row

/-! ## Unfolding the walk -/

/-- The line of a folded child. -/
def lineOf (tree : KeyTree) (depth : Nat) (entry : Folded) : Line :=
  { row := tree.rowOf depth entry, node := entry.target, address := entry.address }

/-- The lines below a folded child. -/
def below (tree : KeyTree) (fuel depth : Nat) (entry : Folded) : List Line :=
  if (tree.rowOf depth entry).expanded then
    tree.walk fuel entry.target entry.path (depth + 1) entry.address
  else []

variable {tree : KeyTree} {node : Node} {pre : Str} {address : List Str} {depth fuel : Nat}

/-- The walk lists the folded children with what is below them, in some order. -/
theorem walk_perm :
    (tree.walk (fuel + 1) node pre depth address).Perm
      ((node.children.map (tree.foldedChild pre address)).flatMap
        fun entry => tree.lineOf depth entry :: tree.below fuel depth entry) := by
  simp only [walk, List.partition_eq_filter_filter]
  apply List.Perm.flatMap_right
  exact List.filter_append_perm _ _

theorem mem_walk_succ {line : Line} :
    line ∈ tree.walk (fuel + 1) node pre depth address ↔
      ∃ child ∈ node.children,
        line = tree.lineOf depth (tree.foldedChild pre address child) ∨
          line ∈ tree.below fuel depth (tree.foldedChild pre address child) := by
  rw [walk_perm.mem_iff, List.flatMap_map, List.mem_flatMap]
  simp only [List.mem_cons]

theorem mem_below {entry : Folded} {line : Line} :
    line ∈ tree.below fuel depth entry ↔
      (tree.rowOf depth entry).expanded ∧
        line ∈ tree.walk fuel entry.target entry.path (depth + 1) entry.address := by
  rw [below]
  split
  next isOpen => simp [isOpen]
  next shut => simp [shut]

/-- A chain folds along an address to a node at which the fold stops. -/
theorem foldChain_spec (child : Node) (label path : Str) (address : List Str) :
    ∃ segments,
      (foldChain child label path address).address = address ++ segments ∧
      (foldChain child label path address).path =
        path ++ segments.flatMap (fun segment => separator :: segment) ∧
      child.descend segments = some (foldChain child label path address).target ∧
      ((foldChain child label path address).target.label.isKey ∨
        (foldChain child label path address).target.singleChild = none) := by
  fun_induction foldChain child label path address with
  | case1 data label path address segment only passThrough ih =>
      rcases ih with ⟨segments, addressEq, pathEq, found, stops⟩
      refine ⟨segment :: segments, ?_, ?_, ?_, stops⟩
      · simpa using addressEq
      · simpa using pathEq
      · simpa [Trie.descend] using found
  | case2 data children label path address stops =>
      refine ⟨[], by simp, by simp, rfl, ?_⟩
      cases key : data.isKey with
      | true => exact .inl key
      | false =>
          right
          rcases children with _ | ⟨⟨segment, only⟩, _ | ⟨second, rest⟩⟩
          · rfl
          · exact absurd rfl (stops segment only key)
          · rfl

theorem foldChain_of_stop {child : Node}
    (stops : child.label.isKey ∨ child.singleChild = none) (label path : Str)
    (address : List Str) :
    foldChain child label path address = { label, path, target := child, address } := by
  rcases child with ⟨data, children⟩
  rw [foldChain]
  rintro segment only noKey rfl
  rcases stops with key | several
  · exact absurd (noKey.symm.trans key) Bool.false_ne_true
  · cases several

theorem foldChain_of_link {data : NodeData} (noKey : data.isKey = false) (segment : Str)
    (only : Node) (label path : Str) (address : List Str) :
    foldChain (.node data [(segment, only)]) label path address =
      foldChain only (label ++ separator :: segment) (path ++ separator :: segment)
        (address ++ [segment]) :=
  foldChain.eq_1 label path address data segment only noKey

/-- Where the chain of a child ends. -/
theorem foldedChild_spec (tree : KeyTree) (pre : Str) (address : List Str)
    (wellFormed : node.WellFormed IsSegment) {child : Str × Node}
    (member : child ∈ node.children) :
    ∃ segments,
      (tree.foldedChild pre address child).address = address ++ child.1 :: segments ∧
      (tree.foldedChild pre address child).path =
        childPath pre child.1 ++ segments.flatMap (fun segment => separator :: segment) ∧
      node.descend (child.1 :: segments) = some (tree.foldedChild pre address child).target ∧
      (tree.compact → (tree.foldedChild pre address child).target.label.isKey ∨
        (tree.foldedChild pre address child).target.singleChild = none) := by
  rcases child with ⟨segment, child⟩
  have childFound := wellFormed.lookup_of_mem member
  by_cases compact : tree.compact
  · rcases foldChain_spec child segment (childPath pre segment) (address ++ [segment])
      with ⟨segments, addressEq, pathEq, found, stops⟩
    refine ⟨segments, ?_⟩
    simp only [foldedChild, compact, if_true]
    refine ⟨?_, pathEq, ?_, fun _ => stops⟩
    · simpa using addressEq
    · simpa [Trie.descend, childFound] using found
  · refine ⟨[], ?_⟩
    simp [foldedChild, compact, Trie.descend, childFound]

theorem height_foldChain_le (child : Node) (label path : Str) (address : List Str) :
    (foldChain child label path address).target.height ≤ child.height := by
  fun_induction foldChain child label path address with
  | case1 data label path address segment only passThrough ih =>
      apply ih.trans
      have member : (segment, only) ∈ (Trie.node data [(segment, only)]).children :=
        List.mem_singleton.mpr rfl
      exact (Trie.height_lt_of_mem member).le
  | case2 => exact le_rfl

theorem height_foldedChild_lt {child : Str × Node} (member : child ∈ node.children) :
    (tree.foldedChild pre address child).target.height < node.height := by
  apply lt_of_le_of_lt _ (Trie.height_lt_of_mem member)
  rw [foldedChild]
  split
  · exact height_foldChain_le ..
  · exact le_rfl

/-- Fuel beyond the height of the node changes nothing. -/
theorem walk_of_height_le {more : Nat} (enough : node.height ≤ fuel)
    (enoughMore : node.height ≤ more) :
    tree.walk fuel node pre depth address = tree.walk more node pre depth address := by
  induction fuel generalizing more node pre depth address with
  | zero => exact absurd enough (Nat.not_le_of_lt node.height_pos)
  | succ fuel ih =>
      cases more with
      | zero => exact absurd enoughMore (Nat.not_le_of_lt node.height_pos)
      | succ more =>
          have below : ∀ entry ∈ node.children.map (tree.foldedChild pre address),
              tree.walk fuel entry.target entry.path (depth + 1) entry.address =
                tree.walk more entry.target entry.path (depth + 1) entry.address := by
            intro entry member
            rcases List.mem_map.mp member with ⟨child, childMem, rfl⟩
            have shorter : (tree.foldedChild pre address child).target.height < node.height :=
              height_foldedChild_lt childMem
            apply ih
            · exact Nat.le_of_lt_succ (shorter.trans_le enough)
            · exact Nat.le_of_lt_succ (shorter.trans_le enoughMore)
          simp only [walk, List.partition_eq_filter_filter]
          apply List.flatMap_congr
          intro entry member
          have original : entry ∈ node.children.map (tree.foldedChild pre address) := by
            rcases List.mem_append.mp member with branch | leaf
            · exact List.mem_of_mem_filter branch
            · exact List.mem_of_mem_filter leaf
          rw [below entry original]

end KeyTree

end Keylens.Ui
