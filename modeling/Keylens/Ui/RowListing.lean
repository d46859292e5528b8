import Keylens.Library.Listing
import Keylens.Ui.RowPaths

/-!
# The rows as a listing

The walk lists a forest: below an expanded line stand the folded children of the
node that the line renders.  What is said about the rows after one another is read
off this listing.
-/

namespace Keylens.Ui

open Keylens.Library Keylens.Connection

/-- The rows one level below a row, among the rows after it. -/
def childRows (row : Row) (after : List Row) : List Row :=
  (after.takeWhile fun other => row.depth < other.depth).filter
    fun other => other.depth = row.depth + 1

namespace KeyTree

variable {tree : KeyTree} {node : Node} {pre : Str} {address : List Str} {depth fuel : Nat}

/-- The folded children of a node as the walk orders them. -/
def ordered (tree : KeyTree) (node : Node) (pre : Str) (address : List Str) : List Folded :=
  let folded := node.children.map (tree.foldedChild pre address)
  folded.filter (fun entry => !entry.target.children.isEmpty) ++
    folded.filter (not ∘ fun entry => !entry.target.children.isEmpty)

/-- The lines of the children of the node that a line renders. -/
def childLines (tree : KeyTree) (line : Line) : List Line :=
  if line.row.expanded then
    (tree.ordered line.node line.row.path line.address).map (tree.lineOf (line.row.depth + 1))
  else []

theorem walk_succ :
    tree.walk (fuel + 1) node pre depth address =
      (tree.ordered node pre address).flatMap fun entry =>
        tree.lineOf depth entry :: tree.below fuel depth entry := by
  simp only [walk, List.partition_eq_filter_filter, ordered]
  rfl

theorem ordered_perm :
    (tree.ordered node pre address).Perm (node.children.map (tree.foldedChild pre address)) :=
  List.filter_append_perm _ _

theorem mem_ordered {entry : Folded} :
    entry ∈ tree.ordered node pre address ↔
      ∃ child ∈ node.children, tree.foldedChild pre address child = entry := by
  rw [ordered_perm.mem_iff, List.mem_map]

theorem depth_of_mem_childLines {line child : Line} (member : child ∈ tree.childLines line) :
    child.row.depth = line.row.depth + 1 := by
  rw [childLines] at member
  split at member
  · rcases List.mem_map.mp member with ⟨entry, _, rfl⟩
    rfl
  · cases member

/-- A child of a line is made from a child of its node. -/
theorem mem_childLines {line child : Line} (member : child ∈ tree.childLines line) :
    line.row.expanded ∧ ∃ entry ∈ line.node.children,
      child = tree.lineOf (line.row.depth + 1)
        (tree.foldedChild line.row.path line.address entry) := by
  rw [childLines] at member
  split at member
  next isOpen =>
      rcases List.mem_map.mp member with ⟨folded, foldedMem, rfl⟩
      rcases mem_ordered.mp foldedMem with ⟨entry, entryMem, rfl⟩
      exact ⟨isOpen, entry, entryMem, rfl⟩
  next => cases member

/-- The walk lists the lines of the folded children with all that is below. -/
theorem listing_walk (enough : node.height ≤ fuel) :
    Listing tree.childLines ((tree.ordered node pre address).map (tree.lineOf depth))
      (tree.walk fuel node pre depth address) := by
  induction fuel generalizing node pre depth address with
  | zero => exact absurd enough (Nat.not_le_of_lt node.height_pos)
  | succ fuel ih =>
      rw [walk_succ]
      apply Listing.flatMap
      intro entry member
      rcases mem_ordered.mp member with ⟨child, childMem, rfl⟩
      have shorter : (tree.foldedChild pre address child).target.height < node.height :=
        height_foldedChild_lt childMem
      cases isOpen : (tree.rowOf depth (tree.foldedChild pre address child)).expanded with
      | true =>
          simp only [childLines, below, lineOf, isOpen, if_true]
          exact ih (Nat.le_of_lt_succ (shorter.trans_le enough))
      | false =>
          simp only [childLines, below, lineOf, isOpen, Bool.false_eq_true, if_false]
          exact .nil

theorem listing_lines (tree : KeyTree) :
    Listing tree.childLines ((tree.ordered tree.root [] []).map (tree.lineOf 0)) tree.lines :=
  listing_walk le_rfl

theorem depth_of_mem_top {line : Line}
    (member : line ∈ (tree.ordered node pre address).map (tree.lineOf depth)) :
    line.row.depth = depth := by
  rcases List.mem_map.mp member with ⟨entry, _, rfl⟩
  rfl

/-- Every line is that of a folded child. -/
theorem exists_lineOf {line : Line} (member : line ∈ tree.walk fuel node pre depth address) :
    ∃ depth pre address child, line = tree.lineOf depth (tree.foldedChild pre address child) := by
  induction fuel generalizing node pre depth address with
  | zero => cases member
  | succ fuel ih =>
      rcases mem_walk_succ.mp member with ⟨child, _, here | below⟩
      · exact ⟨depth, pre, address, child, here⟩
      · exact ih (mem_below.mp below).2

/-- A line stands for the node at its address. -/
theorem descend_of_mem_lines {line : Line} (member : line ∈ tree.lines) :
    line.address ≠ [] ∧ tree.root.descend line.address = some line.node := by
  rcases address_of_mem_walk tree.wellFormed member with ⟨tail, nonempty, addressEq, found⟩
  rw [List.nil_append] at addressEq
  rw [addressEq]
  exact ⟨nonempty, found⟩

/-! ## Rows after one another -/

theorem rows_split {before after : List Row} {row : Row}
    (split : tree.rows = before ++ row :: after) :
    ∃ above line under, tree.lines = above ++ line :: under ∧ above.map Line.row = before ∧
      line.row = row ∧ under.map Line.row = after := by
  rcases List.map_eq_append_iff.mp split with ⟨above, rest, linesEq, aboveEq, restEq⟩
  rcases List.map_eq_cons_iff.mp restEq with ⟨line, under, rfl, rowEq, underEq⟩
  exact ⟨above, line, under, linesEq, aboveEq, rowEq, underEq⟩

/-- The rows below a row are those of the children of its line. -/
theorem childRows_eq {above under : List Line} {line : Line}
    (split : tree.lines = above ++ line :: under) :
    childRows line.row (under.map Line.row) = (tree.childLines line).map Line.row := by
  have children := tree.listing_lines.children_eq (fun _ _ => depth_of_mem_childLines)
    (fun _ => depth_of_mem_top) split
  rw [← children, childRows, List.takeWhile_map, List.filter_map]
  rfl

/-- The rows at the top are those of the children of the root. -/
theorem filter_rows_eq (tree : KeyTree) :
    tree.rows.filter (fun row => row.depth = 0) =
      (tree.ordered tree.root [] []).map (tree.rowOf 0) := by
  have tops := tree.listing_lines.filter_eq_tops (fun _ _ => depth_of_mem_childLines)
    (fun _ => depth_of_mem_top)
  rw [rows, List.filter_map]
  change (tree.lines.filter fun line => line.row.depth = 0).map Line.row = _
  rw [tops, List.map_map]
  rfl

theorem childPath_append (pre label suffix : Str) :
    childPath pre (label ++ suffix) = childPath pre label ++ suffix := by
  rw [childPath, childPath]
  split <;> simp

/-- A fold lengthens the path by what it lengthens the label. -/
theorem path_foldChain {pre label path : Str} (joined : path = childPath pre label) (child : Node)
    (address : List Str) :
    (foldChain child label path address).path =
      childPath pre (foldChain child label path address).label := by
  fun_induction foldChain child label path address with
  | case1 data label path address segment only passThrough ih =>
      apply ih
      rw [childPath_append, joined]
  | case2 => exact joined

theorem path_foldedChild (tree : KeyTree) (pre : Str) (address : List Str) (child : Str × Node) :
    (tree.foldedChild pre address child).path =
      childPath pre (tree.foldedChild pre address child).label := by
  rw [foldedChild]
  split
  · exact path_foldChain rfl child.2 _
  · rfl

/-- Every row below the top has a parent: the nearest row above it that is less
deep, from whose path its own goes on with its label. -/
theorem exists_parent {before after : List Row} {row : Row}
    (split : tree.rows = before ++ row :: after) (deep : 0 < row.depth) :
    ∃ front parent between, before = front ++ parent :: between ∧ parent.depth + 1 = row.depth ∧
      (∀ other ∈ between, row.depth ≤ other.depth) ∧
      row.path = childPath parent.path row.label := by
  rcases rows_split split with ⟨above, line, under, linesEq, rfl, rfl, rfl⟩
  rcases tree.listing_lines.mem_tops_or_child (fun _ _ => depth_of_mem_childLines)
    (fun _ => depth_of_mem_top) linesEq with top | ⟨front, parent, between, rfl, child, deeper⟩
  · rw [depth_of_mem_top top] at deep
    cases deep
  · refine ⟨front.map Line.row, parent.row, between.map Line.row, by simp, ?_, ?_, ?_⟩
    · exact (depth_of_mem_childLines child).symm
    · intro other member
      rcases List.mem_map.mp member with ⟨otherLine, otherMem, rfl⟩
      exact deeper otherLine otherMem
    · rcases mem_childLines child with ⟨_, entry, _, rfl⟩
      exact tree.path_foldedChild parent.row.path parent.address entry

end KeyTree

end Keylens.Ui
