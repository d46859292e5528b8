import Keylens.Library.KeyedRow

/-!
# Labelled tries

A trie is a tree whose edges carry segments.  The children of a node are kept
sorted by segment, so each list of segments leads to at most one node: its
address.  The module has navigation by address, the update of the nodes along an
address, and the invariants both rely on.
-/

namespace Keylens.Library

universe u v

/-! ## Lists sorted by key -/

section Upsert

variable {α : Type u} {β : Type v} [LinearOrder α]

/-- Update the entry of a key in a list sorted by key, making it in its place
when there is none. -/
def upsert (key : α) (update : Option β → β) : List (α × β) → List (α × β)
  | [] => [(key, update none)]
  | (other, value) :: rest =>
      if key < other then (key, update none) :: (other, value) :: rest
      else if key = other then (other, update (some value)) :: rest
      else (other, value) :: upsert key update rest

/-- Every entry afterwards is an old one or the updated one. -/
theorem mem_upsert {key : α} {update : Option β → β} {entries : List (α × β)} {entry : α × β}
    (member : entry ∈ upsert key update entries) :
    entry ∈ entries ∨ entry = (key, update none) ∨
      ∃ value, (key, value) ∈ entries ∧ entry = (key, update (some value)) := by
  induction entries with
  | nil =>
      right
      left
      exact List.mem_singleton.mp member
  | cons head rest ih =>
      rcases head with ⟨other, value⟩
      simp only [upsert] at member
      split at member
      next before =>
          rcases List.mem_cons.mp member with here | later
          · exact .inr (.inl here)
          · exact .inl later
      next =>
          split at member
          next equal =>
              subst equal
              rcases List.mem_cons.mp member with here | later
              · exact .inr (.inr ⟨value, List.mem_cons_self .., here⟩)
              · exact .inl (List.mem_cons_of_mem _ later)
          next =>
              rcases List.mem_cons.mp member with here | later
              · exact .inl (here ▸ List.mem_cons_self ..)
              · rcases ih later with old | fresh | ⟨found, foundMem, updated⟩
                · exact .inl (List.mem_cons_of_mem _ old)
                · exact .inr (.inl fresh)
                · exact .inr (.inr ⟨found, List.mem_cons_of_mem _ foundMem, updated⟩)

theorem Increasing.upsert {entries : List (α × β)} (increasing : Increasing Prod.fst entries)
    (key : α) (update : Option β → β) :
    Increasing Prod.fst (Library.upsert key update entries) := by
  induction entries with
  | nil => exact List.pairwise_singleton _ _
  | cons head rest ih =>
      rcases head with ⟨other, value⟩
      have above := (List.pairwise_cons.mp increasing).1
      simp only [Library.upsert]
      split
      next before =>
          apply List.pairwise_cons.mpr
          refine ⟨?_, increasing⟩
          intro entry member
          rcases List.mem_cons.mp member with rfl | later
          · exact before
          · exact before.trans (above entry later)
      next notBefore =>
          split
          next => exact List.pairwise_cons.mpr ⟨above, increasing.tail⟩
          next different =>
              apply List.pairwise_cons.mpr
              refine ⟨?_, ih increasing.tail⟩
              intro entry member
              have past : other < key := lt_of_le_of_ne (not_lt.mp notBefore) (Ne.symm different)
              rcases mem_upsert member with old | rfl | ⟨_, _, rfl⟩
              · exact above entry old
              · exact past
              · exact past

theorem lookup_cons_eq (first other : α) (value : β) (rest : List (α × β)) :
    ((first, value) :: rest).lookup other =
      if other = first then some value else rest.lookup other := by
  by_cases same : other = first
  · simp [same]
  · rw [List.lookup_cons, beq_false_of_ne same, if_neg same]

/-- Only the entry of the key is another one. -/
theorem lookup_upsert {entries : List (α × β)} (increasing : Increasing Prod.fst entries)
    (key other : α) (update : Option β → β) :
    (upsert key update entries).lookup other =
      if other = key then some (update (entries.lookup key)) else entries.lookup other := by
  induction entries with
  | nil => simp [Library.upsert, lookup_cons_eq]
  | cons head rest ih =>
      rcases head with ⟨first, value⟩
      have above := (List.pairwise_cons.mp increasing).1
      simp only [Library.upsert]
      split
      next before =>
          -- The new entry stands before all others, so the key was not there.
          have absent : ((first, value) :: rest).lookup key = none := by
            apply List.lookup_eq_none_iff.mpr
            intro entry member
            rcases List.mem_cons.mp member with rfl | later
            · simpa using before.ne
            · simpa using (before.trans (above entry later)).ne
          rw [lookup_cons_eq, absent]
      next notBefore =>
          split
          next equal =>
              rw [← equal]
              simp only [lookup_cons_eq, if_true]
              split <;> rfl
          next different =>
              simp only [lookup_cons_eq, if_neg different, ih increasing.tail]
              by_cases here : other = first
              · rw [if_pos here, if_pos here, if_neg (here ▸ Ne.symm different)]
              · rw [if_neg here, if_neg here]

/-- Looking a key up finds the one entry that it has. -/
theorem Increasing.lookup_eq_some_iff {entries : List (α × β)}
    (increasing : Increasing Prod.fst entries) {key : α} {value : β} :
    entries.lookup key = some value ↔ (key, value) ∈ entries := by
  constructor
  · intro found
    rcases List.lookup_eq_some_iff.mp found with ⟨before, after, split, _⟩
    rw [split]
    simp
  · intro member
    cases found : entries.lookup key with
    | none => simpa using List.lookup_eq_none_iff.mp found (key, value) member
    | some other =>
        rcases List.lookup_eq_some_iff.mp found with ⟨before, after, split, _⟩
        have otherMem : (key, other) ∈ entries := by
          rw [split]
          simp
        have same := increasing.eq_of_key_eq otherMem member rfl
        exact congrArg some (congrArg Prod.snd same)

/-- Lists sorted by key are equal when every key leads to the same value. -/
theorem Increasing.ext_lookup {left right : List (α × β)} (leftInc : Increasing Prod.fst left)
    (rightInc : Increasing Prod.fst right) (same : ∀ key, left.lookup key = right.lookup key) :
    left = right := by
  apply leftInc.eq_of_mem_iff rightInc
  rintro ⟨key, value⟩
  rw [← leftInc.lookup_eq_some_iff, ← rightInc.lookup_eq_some_iff, same]

end Upsert

/-! ## Tries -/

/-- A tree with labelled nodes, whose children are listed by segment. -/
inductive Trie (α : Type u) (β : Type v) where
  | node (label : β) (children : List (α × Trie α β))

namespace Trie

variable {α : Type u} {β : Type v}

def label : Trie α β → β
  | .node label _ => label

def children : Trie α β → List (α × Trie α β)
  | .node _ children => children

@[simp] theorem label_node (label : β) (children : List (α × Trie α β)) :
    (node label children).label = label := rfl

@[simp] theorem children_node (label : β) (children : List (α × Trie α β)) :
    (node label children).children = children := rfl

mutual

/-- The number of nodes on the longest way down. -/
def height : Trie α β → Nat
  | .node _ children => heights children + 1

/-- The largest height of some children. -/
def heights : List (α × Trie α β) → Nat
  | [] => 0
  | (_, child) :: rest => max child.height (heights rest)

end

theorem height_le_heights {children : List (α × Trie α β)} {entry : α × Trie α β}
    (member : entry ∈ children) : entry.2.height ≤ heights children := by
  induction children with
  | nil => cases member
  | cons head rest ih =>
      rcases head with ⟨segment, child⟩
      rw [heights]
      rcases List.mem_cons.mp member with rfl | later
      · exact le_max_left _ _
      · exact le_max_of_le_right (ih later)

theorem height_lt_of_mem {trie : Trie α β} {entry : α × Trie α β}
    (member : entry ∈ trie.children) : entry.2.height < trie.height := by
  rcases trie with ⟨label, children⟩
  rw [height]
  exact Nat.lt_succ_of_le (height_le_heights member)

theorem height_pos (trie : Trie α β) : 0 < trie.height := by
  rcases trie with ⟨label, children⟩
  rw [height]
  exact Nat.succ_pos _

/-- The only child, when there is exactly one. -/
def singleChild (trie : Trie α β) : Option (α × Trie α β) :=
  match trie.children with
  | [only] => some only
  | _ => none

section Navigation

variable [LinearOrder α]

/-- The node at an address. -/
def descend : List α → Trie α β → Option (Trie α β)
  | [], trie => some trie
  | segment :: rest, trie => (trie.children.lookup segment).bind (descend rest)

@[simp] theorem descend_nil (trie : Trie α β) : descend [] trie = some trie := rfl

theorem descend_append (front back : List α) (trie : Trie α β) :
    descend (front ++ back) trie = (descend front trie).bind (descend back) := by
  induction front generalizing trie with
  | nil => rfl
  | cons segment front ih =>
      simp only [List.cons_append, descend]
      cases trie.children.lookup segment with
      | none => rfl
      | some child => exact ih child

/-- The children of a node are one segment further on. -/
theorem descend_concat {trie target : Trie α β} {address : List α}
    (found : descend address trie = some target) (segment : α) :
    descend (address ++ [segment]) trie = target.children.lookup segment := by
  rw [descend_append, found, Option.bind_some, descend]
  cases target.children.lookup segment <;> rfl

/-- Update the labels along an address, making the nodes that are missing:
`visit` on the nodes passed through, `arrive` on the last one. -/
def updateAlong (visit arrive : β → β) (fresh : β) : List α → Trie α β → Trie α β
  | [], .node label children => .node (arrive label) children
  | segment :: rest, .node label children =>
      .node (visit label) (upsert segment
        (fun child => updateAlong visit arrive fresh rest (child.getD (.node fresh [])))
        children)

/-- Siblings are sorted by segment, and every segment is admissible. -/
inductive WellFormed (admissible : α → Prop) : Trie α β → Prop where
  | node {label : β} {children : List (α × Trie α β)}
      (increasing : Increasing Prod.fst children)
      (segments : ∀ entry ∈ children, admissible entry.1)
      (below : ∀ entry ∈ children, WellFormed admissible entry.2) :
      WellFormed admissible (.node label children)

variable {admissible : α → Prop} {trie : Trie α β}

theorem WellFormed.increasing (wellFormed : trie.WellFormed admissible) :
    Increasing Prod.fst trie.children := by
  cases wellFormed with
  | node increasing _ _ => exact increasing

theorem WellFormed.segments (wellFormed : trie.WellFormed admissible) :
    ∀ entry ∈ trie.children, admissible entry.1 := by
  cases wellFormed with
  | node _ segments _ => exact segments

theorem WellFormed.child (wellFormed : trie.WellFormed admissible) :
    ∀ entry ∈ trie.children, entry.2.WellFormed admissible := by
  cases wellFormed with
  | node _ _ below => exact below

theorem WellFormed.leaf (label : β) : (Trie.node label [] : Trie α β).WellFormed admissible :=
  .node List.Pairwise.nil (by simp) (by simp)

theorem mem_of_lookup {children : List (α × Trie α β)} {segment : α} {child : Trie α β}
    (found : children.lookup segment = some child) : (segment, child) ∈ children := by
  rcases List.lookup_eq_some_iff.mp found with ⟨before, after, split, _⟩
  rw [split]
  simp

theorem WellFormed.lookup_of_mem (wellFormed : trie.WellFormed admissible) {segment : α}
    {child : Trie α β} (member : (segment, child) ∈ trie.children) :
    trie.children.lookup segment = some child :=
  wellFormed.increasing.lookup_eq_some_iff.mpr member

/-- Every node that can be reached is well formed. -/
theorem WellFormed.descend (wellFormed : trie.WellFormed admissible) {address : List α}
    {target : Trie α β} (found : descend address trie = some target) :
    target.WellFormed admissible := by
  induction address generalizing trie with
  | nil =>
      cases found
      exact wellFormed
  | cons segment rest ih =>
      rcases Option.bind_eq_some_iff.mp found with ⟨child, childFound, rest⟩
      exact ih (wellFormed.child _ (mem_of_lookup childFound)) rest

/-- Every address consists of admissible segments. -/
theorem WellFormed.admissible_of_descend (wellFormed : trie.WellFormed admissible)
    {address : List α} {target : Trie α β} (found : Trie.descend address trie = some target) :
    ∀ segment ∈ address, admissible segment := by
  induction address generalizing trie with
  | nil => simp
  | cons head rest ih =>
      rcases Option.bind_eq_some_iff.mp found with ⟨child, childFound, restFound⟩
      have member := mem_of_lookup childFound
      intro segment position
      rcases List.mem_cons.mp position with rfl | later
      · exact wellFormed.segments _ member
      · exact ih (wellFormed.child _ member) restFound segment later

theorem WellFormed.updateAlong (wellFormed : trie.WellFormed admissible) (visit arrive : β → β)
    (fresh : β) {address : List α} (segments : ∀ segment ∈ address, admissible segment) :
    (Trie.updateAlong visit arrive fresh address trie).WellFormed admissible := by
  induction address generalizing trie with
  | nil =>
      cases wellFormed with
      | node increasing segments below => exact .node increasing segments below
  | cons segment rest ih =>
      have restSegments : ∀ segment ∈ rest, admissible segment := by
        intro other member
        exact segments other (List.mem_cons_of_mem _ member)
      cases wellFormed with
      | node increasing childSegments below =>
          apply WellFormed.node
          · exact increasing.upsert _ _
          · intro entry member
            rcases mem_upsert member with old | rfl | ⟨_, _, rfl⟩
            · exact childSegments entry old
            · exact segments segment (List.mem_cons_self ..)
            · exact segments segment (List.mem_cons_self ..)
          · intro entry member
            rcases mem_upsert member with old | rfl | ⟨child, childMem, rfl⟩
            · exact below entry old
            · exact ih (.leaf fresh) restSegments
            · exact ih (below _ childMem) restSegments

theorem label_updateAlong_self (visit arrive : β → β) (fresh : β) (address : List α)
    (trie : Trie α β) :
    (updateAlong visit arrive fresh address trie).label =
      if address = [] then arrive trie.label else visit trie.label := by
  rcases trie with ⟨data, children⟩
  cases address with
  | nil => rfl
  | cons segment rest => rfl

/-- What is found after an update: the nodes on the way to the address are
updated along the rest of it, and nothing else changes. -/
theorem WellFormed.descend_updateAlong (wellFormed : trie.WellFormed admissible)
    (visit arrive : β → β) (fresh : β) (address other : List α) :
    Trie.descend other (Trie.updateAlong visit arrive fresh address trie) =
      if other <+: address then
        some (Trie.updateAlong visit arrive fresh (address.drop other.length)
          ((Trie.descend other trie).getD (.node fresh [])))
      else Trie.descend other trie := by
  induction address generalizing trie other with
  | nil =>
      rcases trie with ⟨data, children⟩
      cases other with
      | nil => rfl
      | cons segment rest => simp [Trie.updateAlong, Trie.descend]
  | cons segment rest ih =>
      rcases trie with ⟨data, children⟩
      cases other with
      | nil => simp
      | cons head tail =>
          have increasing : Increasing Prod.fst children := wellFormed.increasing
          simp only [Trie.updateAlong, Trie.descend, children_node, lookup_upsert increasing,
            List.cons_prefix_cons, List.length_cons, List.drop_succ_cons]
          by_cases here : head = segment
          · subst here
            simp only [true_and, if_true, Option.bind_some]
            cases found : children.lookup head with
            | some child => exact ih (wellFormed.child _ (mem_of_lookup found)) tail
            | none =>
                rw [Option.getD_none, ih (WellFormed.leaf fresh) tail]
                cases tail with
                | nil => simp
                | cons next tail => rfl
          · simp only [here, false_and, if_false]

/-- The labels after an update: the address is arrived at, what lies on the way
to it is visited, and nothing else changes. -/
theorem WellFormed.label_updateAlong (wellFormed : trie.WellFormed admissible)
    (visit arrive : β → β) (fresh : β) (address other : List α) :
    (Trie.descend other (Trie.updateAlong visit arrive fresh address trie)).map label =
      if other = address then
        some (arrive (((Trie.descend other trie).map label).getD fresh))
      else if other <+: address then
        some (visit (((Trie.descend other trie).map label).getD fresh))
      else (Trie.descend other trie).map label := by
  have labelGetD : ((Trie.descend other trie).getD (.node fresh [])).label =
      ((Trie.descend other trie).map label).getD fresh := by
    cases Trie.descend other trie <;> rfl
  rw [wellFormed.descend_updateAlong]
  by_cases onWay : other <+: address
  · rcases onWay with ⟨rest, rfl⟩
    have ends : other = other ++ rest ↔ rest = [] := List.self_eq_append_right
    simp only [List.prefix_append, if_true, Option.map_some, label_updateAlong_self,
      List.drop_left, labelGetD, ends]
    split <;> rfl
  · have apart : other ≠ address := fun same => onWay (same ▸ List.prefix_rfl)
    rw [if_neg onWay, if_neg apart, if_neg onWay]

/-- Well-formed tries are equal when they have the same labels at the same
addresses. -/
theorem WellFormed.ext_label {left right : Trie α β} (leftFormed : left.WellFormed admissible)
    (rightFormed : right.WellFormed admissible)
    (same : ∀ address, (Trie.descend address left).map label =
      (Trie.descend address right).map label) : left = right := by
  induction leftFormed generalizing right with
  | @node leftLabel leftChildren increasing segments below ih =>
      rcases right with ⟨rightLabel, rightChildren⟩
      have labels : leftLabel = rightLabel := Option.some.inj (same [])
      have entries : leftChildren = rightChildren := by
        apply increasing.ext_lookup rightFormed.increasing
        intro segment
        rw [children_node]
        have beyond (rest : List α) :
            ((leftChildren.lookup segment).bind (Trie.descend rest)).map label =
              ((rightChildren.lookup segment).bind (Trie.descend rest)).map label :=
          same (segment :: rest)
        cases leftFound : leftChildren.lookup segment with
        | none =>
            cases rightFound : rightChildren.lookup segment with
            | none => rfl
            | some child => simpa [leftFound, rightFound] using beyond []
        | some child =>
            cases rightFound : rightChildren.lookup segment with
            | none => simpa [leftFound, rightFound] using beyond []
            | some other =>
                have equal : child = other := by
                  apply ih _ (mem_of_lookup leftFound)
                    (rightFormed.child _ (mem_of_lookup rightFound))
                  intro rest
                  simpa [leftFound, rightFound] using beyond rest
                rw [equal]
      rw [labels, entries]

end Navigation

/-! ## Sums -/

section Sum

variable (weight : β → Nat)

mutual

/-- The weights of all nodes together. -/
def sum : Trie α β → Nat
  | .node label children => weight label + sums children

/-- The weights of all nodes of some children. -/
def sums : List (α × Trie α β) → Nat
  | [] => 0
  | (_, child) :: rest => sum child + sums rest

end

variable {weight}

theorem sums_eq_sum_map (children : List (α × Trie α β)) :
    sums weight children = (children.map fun entry => sum weight entry.2).sum := by
  induction children with
  | nil => rfl
  | cons head rest ih => rw [sums, ih, List.map_cons, List.sum_cons]

variable [LinearOrder α] {fresh : β}

/-- The sum changes by what the entry of the key changes. -/
theorem sums_upsert (weightless : weight fresh = 0) {children : List (α × Trie α β)}
    (increasing : Increasing Prod.fst children) {update : Option (Trie α β) → Trie α β}
    {segment : α} {change : Nat}
    (updated : sum weight (update (children.lookup segment)) =
      sum weight ((children.lookup segment).getD (.node fresh [])) + change) :
    sums weight (upsert segment update children) = sums weight children + change := by
  have freshSum : sum weight (.node fresh [] : Trie α β) = 0 := by
    rw [sum, sums, weightless]
  induction children with
  | nil =>
      rw [List.lookup_nil, Option.getD_none, freshSum] at updated
      simp only [upsert, sums, updated]
      omega
  | cons head rest ih =>
      rcases head with ⟨other, child⟩
      rw [lookup_cons_eq] at updated
      rw [upsert]
      split
      next before =>
          have absent : rest.lookup segment = none := by
            rw [List.lookup_eq_none_iff]
            intro entry member
            have above := (List.pairwise_cons.mp increasing).1 entry member
            simpa using (before.trans above).ne
          rw [if_neg before.ne, absent, Option.getD_none, freshSum] at updated
          simp only [sums, updated]
          omega
      next =>
          split
          next same =>
              rw [if_pos same, Option.getD_some] at updated
              simp only [sums, updated]
              omega
          next different =>
              rw [if_neg different] at updated
              simp only [sums, ih increasing.tail updated]
              omega

/-- An update along an address adds to the sum what it adds where it arrives. -/
theorem WellFormed.sum_updateAlong {admissible : α → Prop} {trie : Trie α β}
    (wellFormed : trie.WellFormed admissible) (weightless : weight fresh = 0)
    {visit arrive : β → β} (visited : ∀ label, weight (visit label) = weight label)
    {address : List α} {change : Nat}
    (arrived : weight (arrive (((trie.descend address).map label).getD fresh)) =
      weight (((trie.descend address).map label).getD fresh) + change) :
    sum weight (Trie.updateAlong visit arrive fresh address trie) = sum weight trie + change := by
  induction address generalizing trie with
  | nil =>
      rcases trie with ⟨label, children⟩
      simp only [descend_nil, Option.map_some, Option.getD_some, label_node] at arrived
      simp only [Trie.updateAlong, sum, arrived]
      omega
  | cons segment rest ih =>
      rcases trie with ⟨label, children⟩
      have increasing : Increasing Prod.fst children := wellFormed.increasing
      have below : sums weight (upsert segment
          (fun child => Trie.updateAlong visit arrive fresh rest (child.getD (.node fresh [])))
          children) = sums weight children + change := by
        apply sums_upsert weightless increasing
        cases found : children.lookup segment with
        | some child =>
            apply ih (wellFormed.child _ (mem_of_lookup found))
            simpa [Trie.descend, found] using arrived
        | none =>
            apply ih (.leaf fresh)
            cases rest with
            | nil => simpa [Trie.descend, found] using arrived
            | cons next rest => simpa [Trie.descend, found] using arrived
      simp only [Trie.updateAlong, sum, visited, below]
      omega

end Sum

end Trie

end Keylens.Library
