import Keylens.Ui.Keys
import Mathlib.Data.Finset.Card

/-!
# The tree as a set of keys

What a tree stands for is the map from each key to the kind it was first inserted
with.  The labels of all nodes are determined by that map, so the tree is a
function of it: the history of insertions leaves no other trace.
-/

namespace Keylens.Ui

open Keylens.Library Keylens.Connection

/-! ## The map of the keys -/

/-- The insertions since the last clear. -/
def inserted (ops : List TreeOp) : List (Str × Option Kind) :=
  ops.foldl (fun entries op =>
    match op with
    | .insertWithKind key kind => entries ++ [(key, kind)]
    | .clearKeys | .reset => []
    | .toggle _ | .expandAll | .collapseAll | .setCompact _ => entries) []

/-- The kind a key was first inserted with; the empty text is no key. -/
def firstKind (entries : List (Str × Option Kind)) (key : Str) : Option (Option Kind) :=
  if key = [] then none else entries.lookup key

def distinctKeys (entries : List (Str × Option Kind)) : Finset Str :=
  (entries.map Prod.fst).toFinset.erase []

/-- The key nodes in the subtree of a node, itself included. -/
def keyCount (node : Node) : Nat :=
  node.sum fun data => data.isKey.toNat

theorem mem_distinctKeys {entries : List (Str × Option Kind)} {key : Str} :
    key ∈ distinctKeys entries ↔ key ≠ [] ∧ key ∈ entries.map Prod.fst := by
  rw [distinctKeys, Finset.mem_erase, List.mem_toFinset]

theorem isSome_lookup {entries : List (Str × Option Kind)} {key : Str} :
    (entries.lookup key).isSome ↔ key ∈ entries.map Prod.fst := by
  rw [← not_iff_not, Bool.not_eq_true, Option.isSome_eq_false_iff, Option.isNone_iff_eq_none,
    List.lookup_eq_none_iff]
  simp only [List.mem_map, not_exists, not_and, bne_iff_ne, ne_eq]
  constructor
  · intro absent entry member same
    exact absent entry member same.symm
  · intro absent entry member same
    exact absent entry member same.symm

theorem isSome_firstKind {entries : List (Str × Option Kind)} {key : Str} :
    (firstKind entries key).isSome ↔ key ∈ distinctKeys entries := by
  rw [firstKind, mem_distinctKeys, ← isSome_lookup]
  split
  next empty => simp [empty]
  next nonempty => simp [nonempty]

theorem distinctKeys_congr {left right : List (Str × Option Kind)}
    (same : firstKind left = firstKind right) : distinctKeys left = distinctKeys right := by
  ext key
  rw [← isSome_firstKind, ← isSome_firstKind, same]

theorem firstKind_append (front back : List (Str × Option Kind)) (key : Str) :
    firstKind (front ++ back) key = (firstKind front key).or (firstKind back key) := by
  rw [firstKind, firstKind, firstKind]
  split
  next => rfl
  next => rw [List.lookup_append]

theorem firstKind_singleton (key : Str) (kind : Option Kind) (other : Str) :
    firstKind [(key, kind)] other = if other = key ∧ key ≠ [] then some kind else none := by
  by_cases empty : other = []
  · subst empty
    simp [firstKind, eq_comm]
  · rw [firstKind, if_neg empty, List.lookup_cons, List.lookup_nil]
    by_cases same : other = key
    · subst same
      simp [empty]
    · have apart : (other == key) = false := beq_false_of_ne same
      simp [same, apart]

/-- A later insertion adds a key only when the key is new. -/
theorem firstKind_append_singleton (entries : List (Str × Option Kind)) (key : Str)
    (kind : Option Kind) (other : Str) :
    firstKind (entries ++ [(key, kind)]) other =
      if other = key ∧ key ≠ [] ∧ key ∉ distinctKeys entries then some kind
      else firstKind entries other := by
  rw [firstKind_append, firstKind_singleton]
  by_cases same : other = key
  · subst same
    simp only [← isSome_firstKind]
    cases found : firstKind entries other with
    | none => simp
    | some kind => simp
  · simp [same]

/-! ## The labels that the map determines -/

/-- The keys at an address or below it. -/
def keysBelow (keys : Finset Str) (address : List Str) : Finset Str :=
  keys.filter fun key => address <+: splitPath key

/-- What a node at the address holds when these are the insertions. -/
def dataAt (entries : List (Str × Option Kind)) (address : List Str) : NodeData :=
  let found := firstKind entries (joinPath address)
  { isKey := found.isSome
    kind := found.join
    subtreeKeys := (keysBelow (distinctKeys entries) address).card }

/-- The label at the address when these are the insertions: apart from the root,
a node is there for the keys below it. -/
def labelAt (entries : List (Str × Option Kind)) (address : List Str) : Option NodeData :=
  if address = [] ∨ (keysBelow (distinctKeys entries) address).Nonempty then
    some (dataAt entries address)
  else none

theorem mem_keysBelow {keys : Finset Str} {address : List Str} {key : Str} :
    key ∈ keysBelow keys address ↔ key ∈ keys ∧ address <+: splitPath key := by
  rw [keysBelow, Finset.mem_filter]

/-- A key is at its own address. -/
theorem mem_keysBelow_splitPath {keys : Finset Str} {key : Str} (member : key ∈ keys) :
    key ∈ keysBelow keys (splitPath key) :=
  mem_keysBelow.mpr ⟨member, List.prefix_rfl⟩

/-- The label at the address of a key. -/
theorem labelAt_splitPath (entries : List (Str × Option Kind)) (key : Str) :
    (labelAt entries (splitPath key)).any NodeData.isKey = (firstKind entries key).isSome := by
  rw [labelAt]
  split
  next => simp [dataAt, joinPath_splitPath]
  next absent =>
      rw [Option.any_none, eq_comm, Bool.eq_false_iff, ne_eq, isSome_firstKind]
      intro member
      exact absent (.inr ⟨key, mem_keysBelow_splitPath member⟩)

/-- Where no node is, the data is that of a new one. -/
theorem labelAt_getD {entries : List (Str × Option Kind)} {address : List Str}
    (segments : ∀ segment ∈ address, IsSegment segment) :
    (labelAt entries address).getD {} = dataAt entries address := by
  rw [labelAt]
  split
  next => rfl
  next absent =>
      rcases not_or.mp absent with ⟨nonempty, bare⟩
      rw [Finset.not_nonempty_iff_eq_empty] at bare
      have noKey : firstKind entries (joinPath address) = none := by
        rw [← Option.not_isSome_iff_eq_none, isSome_firstKind]
        intro member
        have here : joinPath address ∈ keysBelow (distinctKeys entries) address := by
          rw [mem_keysBelow, splitPath_joinPath segments nonempty]
          exact ⟨member, List.prefix_rfl⟩
        rw [bare] at here
        exact absurd here (Finset.notMem_empty _)
      simp [dataAt, noKey, bare]

/-! ## Insertions -/

/-- The data of a node on the way to a new key. -/
def NodeData.passed (data : NodeData) : NodeData :=
  { data with subtreeKeys := data.subtreeKeys + 1 }

/-- The data of the node at which a new key ends. -/
def NodeData.reached (kind : Option Kind) (data : NodeData) : NodeData :=
  { data.passed with isKey := true, kind }

section New

variable {entries : List (Str × Option Kind)} {key : Str} {address : List Str}

theorem distinctKeys_append_singleton (nonempty : key ≠ []) (kind : Option Kind) :
    distinctKeys (entries ++ [(key, kind)]) = insert key (distinctKeys entries) := by
  ext other
  simp only [mem_distinctKeys, List.map_append, List.map_cons, List.map_nil, List.mem_append,
    List.mem_singleton, Finset.mem_insert]
  constructor
  · rintro ⟨otherNonempty, old | same⟩
    · exact .inr ⟨otherNonempty, old⟩
    · exact .inl same
  · rintro (same | ⟨otherNonempty, old⟩)
    · exact ⟨same ▸ nonempty, .inr same⟩
    · exact ⟨otherNonempty, .inl old⟩

theorem joinPath_eq_iff (segments : ∀ segment ∈ address, IsSegment segment)
    (nonempty : key ≠ []) : joinPath address = key ↔ address = splitPath key := by
  constructor
  · rintro rfl
    refine (splitPath_joinPath segments ?_).symm
    rintro rfl
    exact nonempty rfl
  · rintro rfl
    exact joinPath_splitPath key

/-- What the data at an address becomes with a new key. -/
theorem dataAt_append_singleton (nonempty : key ≠ []) (absent : key ∉ distinctKeys entries)
    (kind : Option Kind) (segments : ∀ segment ∈ address, IsSegment segment) :
    dataAt (entries ++ [(key, kind)]) address =
      if address = splitPath key then (dataAt entries address).reached kind
      else if address <+: splitPath key then (dataAt entries address).passed
      else dataAt entries address := by
  have notBelow : key ∉ keysBelow (distinctKeys entries) address := by
    rw [mem_keysBelow]
    exact fun below => absent below.1
  rw [dataAt, distinctKeys_append_singleton nonempty, firstKind_append_singleton, keysBelow,
    Finset.filter_insert, ← keysBelow]
  simp only [joinPath_eq_iff segments nonempty]
  by_cases here : address = splitPath key
  · subst here
    simp [nonempty, absent, NodeData.reached, NodeData.passed, dataAt,
      Finset.card_insert_of_notMem notBelow]
  · by_cases onWay : address <+: splitPath key
    · simp [here, onWay, NodeData.passed, dataAt, Finset.card_insert_of_notMem notBelow]
    · simp [here, onWay, dataAt]

/-- What the label at an address becomes with a new key. -/
theorem labelAt_append_singleton (nonempty : key ≠ []) (absent : key ∉ distinctKeys entries)
    (kind : Option Kind) (address : List Str) :
    labelAt (entries ++ [(key, kind)]) address =
      if address = splitPath key then
        some (((labelAt entries address).getD {}).reached kind)
      else if address <+: splitPath key then
        some ((labelAt entries address).getD {}).passed
      else labelAt entries address := by
  by_cases onWay : address <+: splitPath key
  · have segments : ∀ segment ∈ address, IsSegment segment := by
      intro segment member
      exact isSegment_of_mem_splitPath (onWay.subset member)
    have present : (keysBelow (distinctKeys (entries ++ [(key, kind)])) address).Nonempty := by
      refine ⟨key, mem_keysBelow.mpr ⟨?_, onWay⟩⟩
      rw [distinctKeys_append_singleton nonempty]
      exact Finset.mem_insert_self ..
    rw [labelAt, if_pos (.inr present), dataAt_append_singleton nonempty absent kind segments,
      labelAt_getD segments, if_pos onWay, if_pos onWay]
    split <;> rfl
  · have apart : address ≠ splitPath key := fun same => onWay (same ▸ List.prefix_rfl)
    have sameKeys : keysBelow (distinctKeys (entries ++ [(key, kind)])) address =
        keysBelow (distinctKeys entries) address := by
      rw [distinctKeys_append_singleton nonempty, keysBelow, Finset.filter_insert, if_neg onWay,
        ← keysBelow]
    rw [if_neg apart, if_neg onWay, labelAt, labelAt, sameKeys]
    split
    next there =>
        have segments : ∀ segment ∈ address, IsSegment segment := by
          intro segment member
          rcases there with rfl | ⟨other, below⟩
          · cases member
          · exact isSegment_of_mem_splitPath ((mem_keysBelow.mp below).2.subset member)
        rw [dataAt_append_singleton nonempty absent kind segments, if_neg apart, if_neg onWay]
    next => rfl

end New

/-! ## The invariant -/

namespace KeyTree

/-- The tree is the one that the insertions determine, and its counters count. -/
structure Holds (tree : KeyTree) (entries : List (Str × Option Kind)) : Prop where
  label_eq : ∀ address, (tree.root.descend address).map Trie.label = labelAt entries address
  total_eq : tree.total = (distinctKeys entries).card
  counted : ∀ address node, tree.root.descend address = some node →
    node.label.subtreeKeys = keyCount node

variable {tree : KeyTree} {entries : List (Str × Option Kind)}

theorem Holds.congr {others : List (Str × Option Kind)} (holds : tree.Holds entries)
    (same : firstKind entries = firstKind others) : tree.Holds others where
  label_eq := by
    intro address
    rw [holds.label_eq, labelAt, labelAt, dataAt, dataAt, distinctKeys_congr same, same]
  total_eq := by rw [holds.total_eq, distinctKeys_congr same]
  counted := holds.counted

theorem Holds.empty {tree : KeyTree} (bare : tree.root = .node {} []) (none : tree.total = 0) :
    tree.Holds [] where
  label_eq := by
    intro address
    rw [bare]
    cases address with
    | nil => rfl
    | cons segment rest => rfl
  total_eq := none
  counted := by
    intro address node found
    rw [bare] at found
    cases address with
    | nil =>
        cases found
        rfl
    | cons segment rest => cases found

theorem Holds.contains_eq (holds : tree.Holds entries) (key : Str) :
    tree.contains key = (firstKind entries key).isSome := by
  rw [KeyTree.contains_eq, holds.label_eq, labelAt_splitPath]

theorem root_insertWithKind {key : Str} (nonempty : key ≠ []) (absent : ¬tree.contains key)
    (kind : Option Kind) :
    (tree.insertWithKind key kind).root =
      tree.root.updateAlong NodeData.passed (NodeData.reached kind) {} (splitPath key) := by
  rw [insertWithKind, if_neg nonempty, if_neg absent]
  rfl

/-- A new key makes every counter on its way count one key more. -/
theorem Holds.counted_insertWithKind (holds : tree.Holds entries) {key : Str}
    (nonempty : key ≠ []) (absent : ¬tree.contains key) (kind : Option Kind)
    {address : List Str} {node : Node}
    (found : (tree.insertWithKind key kind).root.descend address = some node) :
    node.label.subtreeKeys = keyCount node := by
  rw [root_insertWithKind nonempty absent, tree.wellFormed.descend_updateAlong] at found
  split at found
  next onWay =>
      rcases onWay with ⟨rest, split⟩
      rw [← split, List.drop_left] at found
      cases found
      -- The node before the insertion, a new one if there was none.
      have before : ∃ old : Node, (tree.root.descend address).getD (.node {} []) = old ∧
          old.WellFormed IsSegment ∧ old.label.subtreeKeys = keyCount old ∧
          (((old.descend rest).map Trie.label).getD {}).isKey = false := by
        rw [KeyTree.contains_eq, ← split, Trie.descend_append, Bool.not_eq_true] at absent
        cases there : tree.root.descend address with
        | some old =>
            refine ⟨old, rfl, tree.wellFormed.descend there, holds.counted _ _ there, ?_⟩
            rw [there, Option.bind_some] at absent
            cases below : old.descend rest with
            | none => rfl
            | some target => simpa [below] using absent
        | none =>
            refine ⟨.node {} [], rfl, .leaf _, rfl, ?_⟩
            cases rest with
            | nil => rfl
            | cons segment rest => rfl
      rcases before with ⟨old, oldEq, wellFormed, counted, notKey⟩
      have oneMore : keyCount (old.updateAlong NodeData.passed (NodeData.reached kind) {} rest) =
          keyCount old + 1 := by
        refine wellFormed.sum_updateAlong rfl ?_ ?_
        · exact fun _ => rfl
        · rw [notKey]
          rfl
      rw [oldEq, oneMore, ← counted, Trie.label_updateAlong_self]
      split <;> rfl
  next => exact holds.counted _ _ found

theorem Holds.insertWithKind (holds : tree.Holds entries) (key : Str) (kind : Option Kind) :
    (tree.insertWithKind key kind).Holds (entries ++ [(key, kind)]) := by
  by_cases new : key ≠ [] ∧ key ∉ distinctKeys entries
  · rcases new with ⟨nonempty, unknown⟩
    have absent : ¬tree.contains key := by
      rw [holds.contains_eq, isSome_firstKind]
      exact unknown
    constructor
    · intro address
      rw [root_insertWithKind nonempty absent, tree.wellFormed.label_updateAlong,
        holds.label_eq, labelAt_append_singleton nonempty unknown]
      congr
    · rw [distinctKeys_append_singleton nonempty, Finset.card_insert_of_notMem unknown,
        ← holds.total_eq, KeyTree.insertWithKind, if_neg nonempty, if_neg absent]
    · intro address node found
      exact holds.counted_insertWithKind nonempty absent kind found
  · have same : tree.insertWithKind key kind = tree := by
      rw [KeyTree.insertWithKind]
      split
      next => rfl
      next nonempty =>
          rw [if_pos]
          rw [holds.contains_eq, isSome_firstKind]
          by_contra unknown
          exact new ⟨nonempty, unknown⟩
    rw [same]
    apply holds.congr
    funext other
    rw [firstKind_append_singleton, if_neg]
    exact fun news => new news.2

/-- Opening and folding branches concerns neither the nodes nor the counter. -/
theorem Holds.of_root_eq {other : KeyTree} (holds : tree.Holds entries)
    (sameRoot : other.root = tree.root) (sameTotal : other.total = tree.total) :
    other.Holds entries where
  label_eq := by
    rw [sameRoot]
    exact holds.label_eq
  total_eq := sameTotal.trans holds.total_eq
  counted := by
    rw [sameRoot]
    exact holds.counted

theorem toggle_root (tree : KeyTree) (path : Str) :
    (tree.toggle path).1.root = tree.root ∧ (tree.toggle path).1.total = tree.total := by
  rw [toggle]
  split
  · exact ⟨rfl, rfl⟩
  · split <;> exact ⟨rfl, rfl⟩

theorem holds_run (ops : List TreeOp) : (run ops).Holds (inserted ops) := by
  induction ops using List.reverseRecOn with
  | nil => exact .empty rfl rfl
  | append_singleton ops op ih =>
      rw [run, inserted, List.foldl_concat, List.foldl_concat, ← run, ← inserted]
      cases op with
      | insertWithKind key kind => exact ih.insertWithKind key kind
      | clearKeys => exact .empty rfl rfl
      | reset => exact .empty rfl rfl
      | toggle path =>
          have same := toggle_root (run ops) path
          exact ih.of_root_eq same.1 same.2
      | expandAll => exact ih.of_root_eq rfl rfl
      | collapseAll => exact ih.of_root_eq rfl rfl
      | setCompact compact => exact ih.of_root_eq rfl rfl

/-! ## The key set -/

/-- The tree is the set of the keys inserted, with exact counters. -/
structure Faithful (tree : KeyTree) (entries : List (Str × Option Kind)) : Prop where
  contains_iff : ∀ key, tree.contains key ↔ key ≠ [] ∧ key ∈ entries.map Prod.fst
  len_eq : tree.len = (distinctKeys entries).card
  root_eq : tree.root.label.subtreeKeys = tree.len
  subtreeKeys_eq : ∀ address node, tree.root.descend address = some node →
    node.label.subtreeKeys = keyCount node
  leaf_isKey : ∀ address node, tree.root.descend address = some node → address ≠ [] →
    node.children = [] → node.label.isKey
  kind_eq : ∀ key, tree.contains key →
    (tree.find key).map (fun node => node.label.kind) = entries.lookup key
  reinsert : ∀ key kind, tree.contains key → tree.insertWithKind key kind = tree

/-- A node without children ends a key. -/
theorem Holds.leaf_isKey (holds : tree.Holds entries) {address : List Str} {node : Node}
    (found : tree.root.descend address = some node) (nonempty : address ≠ [])
    (childless : node.children = []) : node.label.isKey := by
  have label : some node.label = labelAt entries address := by
    rw [← holds.label_eq, found, Option.map_some]
  rw [labelAt] at label
  split at label
  next there =>
      rcases there with root | ⟨key, below⟩
      · exact absurd root nonempty
      · rcases mem_keysBelow.mp below with ⟨member, rest, split⟩
        have isKey : tree.contains key := by
          rw [holds.contains_eq, isSome_firstKind]
          exact member
        rw [KeyTree.contains_eq, ← split, Trie.descend_append, found, Option.bind_some] at isKey
        cases rest with
        | nil => exact isKey
        | cons segment rest => simp [Trie.descend, childless] at isKey
  next => cases label

theorem Holds.kind_eq (holds : tree.Holds entries) {key : Str} (present : tree.contains key) :
    (tree.find key).map (fun node => node.label.kind) = entries.lookup key := by
  have label := holds.label_eq (splitPath key)
  rw [holds.contains_eq, isSome_firstKind] at present
  rw [labelAt, if_pos (.inr ⟨key, mem_keysBelow_splitPath present⟩), dataAt,
    joinPath_splitPath] at label
  have nonempty := (mem_distinctKeys.mp present).1
  have some : (firstKind entries key).isSome := isSome_firstKind.mpr present
  rw [firstKind, if_neg nonempty] at label some
  rcases Option.isSome_iff_exists.mp some with ⟨kind, kindEq⟩
  rw [find, kindEq]
  rw [kindEq] at label
  rcases Option.map_eq_some_iff.mp label with ⟨node, found, labelEq⟩
  rw [found, Option.map_some, labelEq]
  rfl

theorem Holds.faithful (holds : tree.Holds entries) : tree.Faithful entries where
  contains_iff := by
    intro key
    rw [holds.contains_eq, isSome_firstKind, mem_distinctKeys]
  len_eq := holds.total_eq
  root_eq := by
    have label := holds.label_eq []
    rw [labelAt, if_pos (.inl rfl), Trie.descend_nil, Option.map_some, Option.some_inj] at label
    rw [label, len, holds.total_eq, dataAt, keysBelow, Finset.filter_true_of_mem]
    exact fun _ _ => List.nil_prefix
  subtreeKeys_eq := holds.counted
  leaf_isKey := fun _ _ => holds.leaf_isKey
  kind_eq := fun _ => holds.kind_eq
  reinsert := by
    intro key kind present
    rw [KeyTree.insertWithKind, if_pos present, ite_self]

/-- After any operations the tree is the set of the keys inserted since the last
clear, with exact counters and the kind each was first inserted with. -/
theorem faithful_run (ops : List TreeOp) : (run ops).Faithful (inserted ops) :=
  (holds_run ops).faithful

/-! ## Canonicity -/

/-- The tree is determined by the map from keys to kinds and by what is open. -/
theorem Holds.eq_of_firstKind_eq {other : KeyTree} {others : List (Str × Option Kind)}
    (holds : tree.Holds entries) (otherHolds : other.Holds others)
    (same : firstKind entries = firstKind others) (sameExpanded : tree.expanded = other.expanded)
    (sameCompact : tree.compact = other.compact) : tree = other := by
  have moved : tree.Holds others := holds.congr same
  have root : tree.root = other.root := by
    apply tree.wellFormed.ext_label other.wellFormed
    intro address
    rw [moved.label_eq, otherHolds.label_eq]
  have total : tree.total = other.total := by
    rw [moved.total_eq, otherHolds.total_eq]
  rcases tree with ⟨treeRoot, treeExpanded, treeTotal, treeCompact, treeFormed⟩
  rcases other with ⟨otherRoot, otherExpanded, otherTotal, otherCompact, otherFormed⟩
  dsimp only at root total sameExpanded sameCompact
  subst root total sameExpanded sameCompact
  rfl

end KeyTree

/-- Insertions of some keys, one after the other. -/
def insertions (entries : List (Str × Option Kind)) : List TreeOp :=
  entries.map fun (key, kind) => .insertWithKind key kind

namespace KeyTree

theorem inserted_append_insertions (ops : List TreeOp) (entries : List (Str × Option Kind)) :
    inserted (ops ++ insertions entries) = inserted ops ++ entries := by
  induction entries using List.reverseRecOn with
  | nil => simp [insertions]
  | append_singleton entries entry ih =>
      rw [insertions, List.map_append, ← insertions, ← List.append_assoc, inserted,
        List.foldl_append, ← inserted, ih]
      simp

theorem run_append (front back : List TreeOp) :
    run (front ++ back) = back.foldl TreeOp.apply (run front) :=
  List.foldl_append

theorem insertWithKind_open (tree : KeyTree) (key : Str) (kind : Option Kind) :
    (tree.insertWithKind key kind).expanded = tree.expanded ∧
      (tree.insertWithKind key kind).compact = tree.compact := by
  rw [insertWithKind]
  split
  · exact ⟨rfl, rfl⟩
  · split <;> exact ⟨rfl, rfl⟩

/-- Insertions open and close nothing. -/
theorem insertions_open (tree : KeyTree) (entries : List (Str × Option Kind)) :
    ((insertions entries).foldl TreeOp.apply tree).expanded = tree.expanded ∧
      ((insertions entries).foldl TreeOp.apply tree).compact = tree.compact := by
  induction entries generalizing tree with
  | nil => exact ⟨rfl, rfl⟩
  | cons entry entries ih =>
      have first := insertWithKind_open tree entry.1 entry.2
      rcases ih (tree.insertWithKind entry.1 entry.2) with ⟨expanded, compact⟩
      exact ⟨expanded.trans first.1, compact.trans first.2⟩

/-- Among distinct keys the order does not matter. -/
theorem firstKind_perm {entries others : List (Str × Option Kind)} (permuted : entries.Perm others)
    (distinct : (entries.map Prod.fst).Nodup) : firstKind entries = firstKind others := by
  induction permuted with
  | nil => rfl
  | cons entry permuted ih =>
      funext key
      rw [← List.singleton_append, firstKind_append, ih (List.nodup_cons.mp distinct).2,
        ← firstKind_append, List.singleton_append]
  | swap first second rest =>
      funext key
      rw [List.map_cons, List.map_cons, List.nodup_cons, List.mem_cons, not_or] at distinct
      rw [firstKind, firstKind, List.lookup_cons, List.lookup_cons, List.lookup_cons,
        List.lookup_cons]
      by_cases isFirst : key = first.1
      · have notSecond : (key == second.1) = false := by
          apply beq_false_of_ne
          exact fun same => distinct.1.1 (same.symm.trans isFirst)
        rw [notSecond]
      · rw [beq_false_of_ne isFirst]
  | trans leftPerm rightPerm leftIh rightIh =>
      rw [leftIh distinct, rightIh ((leftPerm.map Prod.fst).nodup_iff.mp distinct)]

/-- Operations that lead to the same map from keys to kinds lead to the same rows. -/
theorem rows_eq_of_firstKind_eq {left right : List TreeOp}
    (same : firstKind (inserted left) = firstKind (inserted right))
    (sameExpanded : (run left).expanded = (run right).expanded)
    (sameCompact : (run left).compact = (run right).compact) :
    (run left).rows = (run right).rows := by
  rw [(holds_run left).eq_of_firstKind_eq (holds_run right) same sameExpanded sameCompact]

theorem rows_append_insertions_eq {ops : List TreeOp} {entries others : List (Str × Option Kind)}
    (same : firstKind (inserted ops ++ entries) = firstKind (inserted ops ++ others)) :
    (run (ops ++ insertions entries)).rows = (run (ops ++ insertions others)).rows := by
  have entriesOpen := insertions_open (run ops) entries
  have othersOpen := insertions_open (run ops) others
  rw [← run_append] at entriesOpen othersOpen
  apply rows_eq_of_firstKind_eq
  · rw [inserted_append_insertions, inserted_append_insertions, same]
  · rw [entriesOpen.1, othersOpen.1]
  · rw [entriesOpen.2, othersOpen.2]

/-- Inserting batch after batch inserts all of them. -/
theorem foldl_insertions (tree : KeyTree) (batches : List (List (Str × Option Kind))) :
    batches.foldl (fun tree batch => (insertions batch).foldl TreeOp.apply tree) tree =
      (insertions batches.flatten).foldl TreeOp.apply tree := by
  induction batches generalizing tree with
  | nil => rfl
  | cons batch batches ih =>
      rw [List.foldl_cons, ih, List.flatten_cons, insertions, insertions, insertions,
        List.map_append, List.foldl_append]

/-- Inserting an inserted key once more changes nothing. -/
theorem run_append_insertWithKind {ops : List TreeOp} {key : Str}
    (old : key ∈ (inserted ops).map Prod.fst) (kind : Option Kind) :
    run (ops ++ [.insertWithKind key kind]) = run ops := by
  have faithful := (holds_run ops).faithful
  rw [run_append, List.foldl_cons, List.foldl_nil, TreeOp.apply]
  by_cases empty : key = []
  · rw [insertWithKind, if_pos empty]
  · exact faithful.reinsert key kind ((faithful.contains_iff key).mpr ⟨empty, old⟩)

/-- The rows depend on the map from keys to the kinds they were first inserted
with since the last clear, and on what is open: neither the order nor the batches
of the insertions matter, nor do duplicates or a clear with all keys coming back. -/
theorem rows_of_same_map :
    (∀ left right, firstKind (inserted left) = firstKind (inserted right) →
      (run left).expanded = (run right).expanded → (run left).compact = (run right).compact →
      (run left).rows = (run right).rows) ∧
    (∀ ops entries others, List.Perm entries others → (entries.map Prod.fst).Nodup →
      (run (ops ++ insertions entries)).rows = (run (ops ++ insertions others)).rows) ∧
    (∀ (ops : List TreeOp) (batches : List (List (Str × Option Kind))),
      (batches.foldl (fun tree batch => (insertions batch).foldl TreeOp.apply tree)
        (run ops)).rows = (run (ops ++ insertions batches.flatten)).rows) ∧
    (∀ before after key kind, key ∈ (inserted before).map Prod.fst →
      (run (before ++ .insertWithKind key kind :: after)).rows = (run (before ++ after)).rows) ∧
    ∀ ops, (run (ops ++ .clearKeys :: insertions (inserted ops))).rows = (run ops).rows := by
  refine ⟨?_, ?_, ?_, ?_, ?_⟩
  · intro left right same sameExpanded sameCompact
    exact rows_eq_of_firstKind_eq same sameExpanded sameCompact
  · intro ops entries others permuted distinct
    apply rows_append_insertions_eq
    funext key
    rw [firstKind_append, firstKind_append, firstKind_perm permuted distinct]
  · intro ops batches
    rw [foldl_insertions, run_append]
  · intro before after key kind old
    rw [← List.singleton_append, ← List.append_assoc, run_append,
      run_append_insertWithKind old, ← run_append]
  · intro ops
    have split : ops ++ .clearKeys :: insertions (inserted ops) =
        (ops ++ [.clearKeys]) ++ insertions (inserted ops) := by simp
    have cleared : run (ops ++ [.clearKeys]) = (run ops).clearKeys := by
      rw [run_append, List.foldl_cons, List.foldl_nil, TreeOp.apply]
    have opened := insertions_open (run ops).clearKeys (inserted ops)
    rw [← cleared, ← run_append] at opened
    rw [split]
    apply rows_eq_of_firstKind_eq
    · rw [inserted_append_insertions]
      congr 1
      rw [inserted, List.foldl_append, ← inserted]
      rfl
    · rw [opened.1, cleared]
      rfl
    · rw [opened.2, cleared]
      rfl

end KeyTree

end Keylens.Ui
