import Keylens.Ui.RowListing

/-!
# The order of siblings

Branches come before leaves, and each group is listed in the order of the map, which
sorts by segment.  The labels are in that order too, unless a label that is folded is
followed by one that goes on, where the fold has its separator, with a character before
the separator.
-/

namespace Keylens.Ui

open Keylens.Library Keylens.Connection

/-- Branches before leaves, and the labels of each group strictly increasing. -/
def SortedRows (rows : List Row) : Prop :=
  rows.Pairwise fun above below =>
    (below.isBranch → above.isBranch) ∧
      (above.isBranch = below.isBranch → above.label < below.label)

instance (rows : List Row) : Decidable (SortedRows rows) :=
  inferInstanceAs (Decidable (rows.Pairwise _))

namespace KeyTree

/-- Among the rows at the top, and among the rows below every row, siblings are
sorted. -/
def SiblingsSorted (tree : KeyTree) : Prop :=
  SortedRows (tree.rows.filter fun row => row.depth = 0) ∧
    ∀ before row after, tree.rows = before ++ row :: after → SortedRows (childRows row after)

/-! ## The condition -/

/-- A node whose children are listed, with the path and the address it is reached by:
the root, or the end of an expanded chain. -/
inductive Listed (tree : KeyTree) : Node → Str → List Str → Prop where
  | root : Listed tree tree.root [] []
  | opened {node : Node} {pre : Str} {address : List Str} {child : Str × Node} :
      Listed tree node pre address → child ∈ node.children →
      (tree.foldedChild pre address child).target.children ≠ [] →
      (tree.foldedChild pre address child).path ∈ tree.expanded →
      Listed tree (tree.foldedChild pre address child).target
        (tree.foldedChild pre address child).path (tree.foldedChild pre address child).address

/-- The fold goes on from a node: it is no key and has one child. -/
def LinksOn (tree : KeyTree) (node : Node) : Prop :=
  tree.compact ∧ node.label.isKey = false ∧ node.singleChild.isSome

/-- Two children of one group whose labels are the other way round than their segments:
the first is folded, and where the second goes on from it, it has a character before
the separator. -/
structure Crosses (tree : KeyTree) (pre : Str) (address : List Str)
    (first second : Str × Node) : Prop where
  linksOn : tree.LinksOn first.2
  goesOn : ∃ c rest, second.1 = first.1 ++ c :: rest ∧ c < separator
  sameGroup : (tree.foldedChild pre address first).target.children.isEmpty =
    (tree.foldedChild pre address second).target.children.isEmpty

/-! ## Labels and segments -/

variable {tree : KeyTree} {node : Node} {pre : Str} {address : List Str} {depth : Nat}

/-- A fold lengthens the label. -/
theorem label_foldChain (child : Node) (label path : Str) (address : List Str) :
    ∃ tail, (foldChain child label path address).label = label ++ tail := by
  fun_induction foldChain child label path address with
  | case1 data label path address segment only passThrough ih =>
      rcases ih with ⟨tail, labelEq⟩
      exact ⟨separator :: (segment ++ tail), by simp [labelEq]⟩
  | case2 => exact ⟨[], by simp⟩

/-- The label of a child is its segment, or goes on with a separator where the fold
goes on. -/
theorem label_foldedChild (tree : KeyTree) (pre : Str) (address : List Str)
    (child : Str × Node) :
    (¬tree.LinksOn child.2 ∧ (tree.foldedChild pre address child).label = child.1) ∨
      (tree.LinksOn child.2 ∧
        ∃ tail, (tree.foldedChild pre address child).label = child.1 ++ separator :: tail) := by
  rcases child with ⟨segment, child⟩
  by_cases compact : tree.compact
  · simp only [foldedChild, compact, if_true, LinksOn, true_and]
    by_cases stops : child.label.isKey ∨ child.singleChild = none
    · left
      rw [foldChain_of_stop stops]
      refine ⟨?_, rfl⟩
      rintro ⟨noKey, single⟩
      rcases stops with key | several
      · exact absurd (noKey.symm.trans key) Bool.false_ne_true
      · simp [several] at single
    · right
      rcases not_or.mp stops with ⟨noKey, single⟩
      have unkeyed : child.label.isKey = false := by simpa using noKey
      refine ⟨⟨unkeyed, Option.isSome_iff_ne_none.mpr single⟩, ?_⟩
      rcases child with ⟨data, children⟩
      rcases children with _ | ⟨⟨other, only⟩, _ | ⟨another, rest⟩⟩
      · exact absurd rfl single
      · have dataUnkeyed : data.isKey = false := unkeyed
        rw [foldChain_of_link dataUnkeyed]
        rcases label_foldChain only (segment ++ separator :: other) _ _ with ⟨tail, labelEq⟩
        exact ⟨other ++ tail, by rw [labelEq, List.append_assoc, List.cons_append]⟩
      · exact absurd rfl single
  · left
    simp [foldedChild, compact, LinksOn]

theorem label_eq_append (tree : KeyTree) (pre : Str) (address : List Str) (child : Str × Node) :
    ∃ tail, (tree.foldedChild pre address child).label = child.1 ++ tail := by
  rcases tree.label_foldedChild pre address child with ⟨_, same⟩ | ⟨_, tail, longer⟩
  · exact ⟨[], by rw [same, List.append_nil]⟩
  · exact ⟨separator :: tail, longer⟩

/-- Of two children the labels are in the order of the segments, unless the first is
folded and the second goes on from it with a character before the separator. -/
theorem label_lt_iff {first second : Str × Node} (before : first.1 < second.1)
    (segment : IsSegment second.1) :
    (tree.foldedChild pre address first).label < (tree.foldedChild pre address second).label ↔
      ¬(tree.LinksOn first.2 ∧ ∃ c rest, second.1 = first.1 ++ c :: rest ∧ c < separator) := by
  rcases tree.label_eq_append pre address second with ⟨secondTail, secondLabel⟩
  by_cases isPrefix : first.1 <+: second.1
  · rcases isPrefix with ⟨_ | ⟨c, rest⟩, split⟩
    · exact absurd (by simpa using split) before.ne
    · have different : separator ≠ c := by
        rintro rfl
        exact segment (by simp [← split])
      have goesOn : (∃ c rest, second.1 = first.1 ++ c :: rest ∧ c < separator) ↔
          c < separator := by
        simp [← split]
      rw [secondLabel, goesOn, ← split, List.append_assoc, List.cons_append]
      rcases tree.label_foldedChild pre address first with ⟨stops, same⟩ | ⟨links, tail, longer⟩
      · have less : first.1 ++ [] < first.1 ++ c :: (rest ++ secondTail) :=
          List.append_left_lt (List.nil_lt_cons _ _)
        rw [List.append_nil] at less
        rw [same]
        exact iff_of_true less fun crossed => stops crossed.1
      · rw [longer, append_cons_lt_append_cons _ different]
        constructor
        · exact fun less crossed => less.asymm crossed.2
        · intro uncrossed
          exact lt_of_le_of_ne (not_lt.mp fun less => uncrossed ⟨links, less⟩) different
  · rcases tree.label_eq_append pre address first with ⟨firstTail, firstLabel⟩
    rw [firstLabel, secondLabel]
    apply iff_of_true (append_lt_append before isPrefix)
    rintro ⟨_, c, rest, split, _⟩
    exact isPrefix ⟨c :: rest, split.symm⟩

/-! ## One group of siblings -/

theorem Crosses.before {first second : Str × Node}
    (crosses : tree.Crosses pre address first second) : first.1 < second.1 := by
  rcases crosses.goesOn with ⟨c, rest, split, _⟩
  have less : first.1 ++ [] < first.1 ++ c :: rest := List.append_left_lt (List.nil_lt_cons _ _)
  rwa [List.append_nil, ← split] at less

/-- Where the segments are in order, so are the labels within a group unless the two
cross. -/
theorem not_crosses_iff {first second : Str × Node} (before : first.1 < second.1)
    (segment : IsSegment second.1) :
    ¬tree.Crosses pre address first second ↔
      ((tree.rowOf depth (tree.foldedChild pre address first)).isBranch =
          (tree.rowOf depth (tree.foldedChild pre address second)).isBranch →
        (tree.foldedChild pre address first).label <
          (tree.foldedChild pre address second).label) := by
  rw [label_lt_iff before segment]
  constructor
  · intro uncrossed sameGroup goesOn
    exact uncrossed ⟨goesOn.1, goesOn.2, Bool.not_inj sameGroup⟩
  · intro sorted crosses
    exact sorted (congrArg not crosses.sameGroup) ⟨crosses.linksOn, crosses.goesOn⟩

/-- The rows of a node's children are sorted exactly when no two of them cross. -/
theorem sortedRows_ordered_iff (wellFormed : node.WellFormed IsSegment) :
    SortedRows ((tree.ordered node pre address).map (tree.rowOf depth)) ↔
      ∀ first ∈ node.children, ∀ second ∈ node.children,
        ¬tree.Crosses pre address first second := by
  have increasing := wellFormed.increasing
  have segments := wellFormed.segments
  rw [← increasing.pairwise_not_iff fun _ _ => Crosses.before, SortedRows, List.pairwise_map]
  -- The partition keeps the order of the map in each group.
  apply (pairwise_partition_iff _ fun above below : Folded => above.label < below.label).trans
  rw [List.pairwise_map]
  constructor
  · intro sorted
    apply (increasing.and sorted).imp_of_mem
    intro first second _ member ordered
    exact (not_crosses_iff ordered.1 (segments second member)).mpr ordered.2
  · intro uncrossed
    apply (increasing.and uncrossed).imp_of_mem
    intro first second _ member ordered
    exact (not_crosses_iff ordered.1 (segments second member)).mp ordered.2

/-! ## The whole tree -/

variable {fuel : Nat}

theorem expanded_rowOf {entry : Folded} :
    (tree.rowOf depth entry).expanded ↔
      entry.target.children ≠ [] ∧ entry.path ∈ tree.expanded := by
  simp [rowOf]

/-- Below a listed node, the ends of the lines that are expanded are listed. -/
theorem Listed.of_mem_walk (listed : tree.Listed node pre address) {line : Line}
    (member : line ∈ tree.walk fuel node pre depth address) (isOpen : line.row.expanded) :
    tree.Listed line.node line.row.path line.address := by
  induction fuel generalizing node pre depth address with
  | zero => cases member
  | succ fuel ih =>
      rcases mem_walk_succ.mp member with ⟨child, childMem, rfl | deeper⟩
      · have opened := expanded_rowOf.mp isOpen
        exact listed.opened childMem opened.1 opened.2
      · rcases mem_below.mp deeper with ⟨shown, inside⟩
        have opened := expanded_rowOf.mp shown
        exact ih (listed.opened childMem opened.1 opened.2) inside

/-- What is listed is the root, or the end of a line that is expanded. -/
theorem Listed.root_or_line (listed : tree.Listed node pre address) :
    node = tree.root ∧ pre = [] ∧ address = [] ∨
      ∃ line ∈ tree.lines, line.row.expanded ∧ line.node = node ∧ line.row.path = pre ∧
        line.address = address := by
  induction listed with
  | root => exact .inl ⟨rfl, rfl, rfl⟩
  | @opened node pre address child _ childMem inner isOpen ih =>
      right
      have expanded (depth : Nat) :
          (tree.lineOf depth (tree.foldedChild pre address child)).row.expanded :=
        expanded_rowOf.mpr ⟨inner, isOpen⟩
      have entryMem : tree.foldedChild pre address child ∈ tree.ordered node pre address :=
        mem_ordered.mpr ⟨child, childMem, rfl⟩
      rcases ih with ⟨rfl, rfl, rfl⟩ | ⟨line, lineMem, lineOpen, rfl, rfl, rfl⟩
      · refine ⟨_, ?_, expanded 0, rfl, rfl, rfl⟩
        exact tree.listing_lines.mem_of_top (List.mem_map_of_mem entryMem)
      · refine ⟨_, ?_, expanded (line.row.depth + 1), rfl, rfl, rfl⟩
        apply tree.listing_lines.mem_of_child lineMem
        rw [childLines, if_pos lineOpen]
        exact List.mem_map_of_mem entryMem

theorem Listed.wellFormed (listed : tree.Listed node pre address) :
    node.WellFormed IsSegment := by
  rcases listed.root_or_line with ⟨rfl, _⟩ | ⟨line, member, _, rfl, _⟩
  · exact tree.wellFormed
  · exact tree.wellFormed.descend (descend_of_mem_lines member).2

/-- Siblings are sorted exactly when no two children of a listed node cross. -/
theorem siblingsSorted_iff (tree : KeyTree) :
    tree.SiblingsSorted ↔
      ∀ node pre address, tree.Listed node pre address →
        ∀ first ∈ node.children, ∀ second ∈ node.children,
          ¬tree.Crosses pre address first second := by
  constructor
  · rintro ⟨top, under⟩ node pre address listed
    rcases listed.root_or_line with ⟨rfl, rfl, rfl⟩ | ⟨line, member, isOpen, rfl, rfl, rfl⟩
    · rw [filter_rows_eq] at top
      exact (sortedRows_ordered_iff tree.wellFormed).mp top
    · rcases List.append_of_mem member with ⟨above, below, split⟩
      have rowsSplit : tree.rows =
          above.map Line.row ++ line.row :: below.map Line.row := by
        rw [rows, split, List.map_append, List.map_cons]
      have sorted := under _ _ _ rowsSplit
      rw [childRows_eq split, childLines, if_pos isOpen, List.map_map] at sorted
      exact (sortedRows_ordered_iff listed.wellFormed).mp sorted
  · intro uncrossed
    refine ⟨?_, ?_⟩
    · rw [filter_rows_eq]
      exact (sortedRows_ordered_iff tree.wellFormed).mpr (uncrossed _ _ _ .root)
    · intro before row after rowsSplit
      rcases rows_split rowsSplit with ⟨above, line, under, split, rfl, rfl, rfl⟩
      rw [childRows_eq split, childLines]
      split
      next isOpen =>
          have member : line ∈ tree.lines := by simp [split]
          have listed := Listed.root.of_mem_walk member isOpen
          rw [List.map_map]
          exact (sortedRows_ordered_iff listed.wellFormed).mpr (uncrossed _ _ _ listed)
      next => exact List.Pairwise.nil

/-- The folded label comes first, because its first segment does. -/
theorem folded_label_above_smaller :
    let tree := run [.insertWithKind "user:1".toList none, .insertWithKind "user2".toList none]
    tree.rows.map Row.label = ["user:1".toList, "user2".toList] ∧ ¬tree.SiblingsSorted := by
  intro tree
  have top : ¬SortedRows (tree.rows.filter fun row => row.depth = 0) := by decide
  exact ⟨by decide, fun sorted => top sorted.1⟩

/-- Where nothing is folded, siblings are sorted. -/
theorem siblingsSorted_of_not_compact (plain : tree.compact = false) : tree.SiblingsSorted := by
  rw [siblingsSorted_iff]
  intro node pre address _ first _ second _ crosses
  have compact := crosses.linksOn.1
  rw [plain] at compact
  cases compact

end KeyTree

end Keylens.Ui
