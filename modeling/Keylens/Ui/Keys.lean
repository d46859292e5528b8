import Keylens.Ui.RowPaths

/-!
# The keys of the tree

The tree holds a key when the node at the key's address is marked.  Inserting a
key marks that node and no other.
-/

namespace Keylens.Ui.KeyTree

open Keylens.Library Keylens.Connection

theorem splitPath_injective : Function.Injective splitPath :=
  Function.LeftInverse.injective joinPath_splitPath

theorem contains_eq (tree : KeyTree) (key : Str) :
    tree.contains key =
      ((tree.root.descend (splitPath key)).map Trie.label).any NodeData.isKey := by
  rw [contains, find, Option.any_map]

/-- A tree without nodes below the root holds no key. -/
theorem contains_of_root_eq {tree : KeyTree} (bare : tree.root = .node {} []) (key : Str) :
    tree.contains key = false := by
  rw [contains_eq, bare]
  cases splitPath key with
  | nil => rfl
  | cons segment rest => rfl

@[simp] theorem contains_clearKeys (tree : KeyTree) (key : Str) :
    tree.clearKeys.contains key = false :=
  contains_of_root_eq rfl key

/-- Inserting a key adds that key, unless it is empty. -/
theorem contains_insertWithKind (tree : KeyTree) (key : Str) (kind : Option Kind) (other : Str) :
    (tree.insertWithKind key kind).contains other ↔
      tree.contains other ∨ key ≠ [] ∧ other = key := by
  rw [insertWithKind]
  split
  next empty => simp [empty]
  next nonempty =>
      split
      next present =>
          constructor
          · exact .inl
          · rintro (before | ⟨_, rfl⟩)
            · exact before
            · exact present
      next absent =>
          dsimp only
          rw [contains_eq, tree.wellFormed.label_updateAlong]
          split
          next same =>
              have sameKey := splitPath_injective same
              simp [nonempty, sameKey]
          next different =>
              have apart : other ≠ key := fun same => different (congrArg splitPath same)
              simp only [apart, and_false, or_false]
              split
              next =>
                  rw [contains_eq]
                  cases (tree.root.descend (splitPath other)).map Trie.label <;> rfl
              next => rw [contains_eq]

/-- So does inserting many keys. -/
theorem contains_foldl_insertWithKind (tree : KeyTree) (keys : List (Str × Option Kind))
    (other : Str) :
    (keys.foldl (fun tree (key, kind) => tree.insertWithKind key kind) tree).contains other ↔
      tree.contains other ∨ other ≠ [] ∧ other ∈ keys.map Prod.fst := by
  induction keys generalizing tree with
  | nil => simp
  | cons entry keys ih =>
      rw [List.foldl_cons, ih, contains_insertWithKind, List.map_cons, List.mem_cons]
      constructor
      · rintro ((before | ⟨nonempty, same⟩) | ⟨nonempty, later⟩)
        · exact .inl before
        · exact .inr ⟨same ▸ nonempty, .inl same⟩
        · exact .inr ⟨nonempty, .inr later⟩
      · rintro (before | ⟨nonempty, same | later⟩)
        · exact .inl (.inl before)
        · exact .inl (.inr ⟨same ▸ nonempty, same⟩)
        · exact .inr ⟨nonempty, later⟩

end Keylens.Ui.KeyTree
