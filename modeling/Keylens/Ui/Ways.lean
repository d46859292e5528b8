import Keylens.Ui.KeySet
import Keylens.Ui.RowListing

/-!
# What is shown, from the keys alone

Which rows a tree shows depends on its keys, on whether chains are folded and on
which paths are open.  `Way` says without any tree to which addresses the rows
lead and with which path; the walk of a tree shows exactly these.
-/

namespace Keylens.Ui

open Keylens.Library Keylens.Connection

/-- All keys at the address go on from it, with one and the same segment. -/
def Passes (keys : Finset Str) (address : List Str) : Prop :=
  ∃ next, (keysBelow keys (address ++ [next])).Nonempty ∧
    keysBelow keys (address ++ [next]) = keysBelow keys address

/-- What decides which rows are shown. -/
structure View where
  keys : Finset Str
  compact : Bool
  expanded : Finset Str

namespace View

variable (view : View)

/-- The address is a link of a chain, without a row of its own. -/
def Folds (address : List Str) : Prop :=
  view.compact ∧ Passes view.keys address

/-- Some keys go on from the address. -/
def Branches (address : List Str) : Prop :=
  ∃ next, (keysBelow view.keys (address ++ [next])).Nonempty

end View

/-- The rows lead to an address, and give it a path: from the top through links of
chains and through rows that are open. -/
inductive Way (view : View) : List Str → Str → Prop where
  | top {segment : Str} (there : (keysBelow view.keys [segment]).Nonempty) :
      Way view [segment] segment
  | fold {address : List Str} {path segment : Str} (way : Way view address path)
      (folds : view.Folds address)
      (there : (keysBelow view.keys (address ++ [segment])).Nonempty) :
      Way view (address ++ [segment]) (path ++ separator :: segment)
  | step {address : List Str} {path segment : Str} (way : Way view address path)
      (stops : ¬view.Folds address) (isOpen : path ∈ view.expanded)
      (there : (keysBelow view.keys (address ++ [segment])).Nonempty) :
      Way view (address ++ [segment]) (childPath path segment)

/-- An open row. -/
structure View.Opens (view : View) (address : List Str) (path : Str) : Prop where
  way : Way view address path
  stops : ¬view.Folds address
  branches : view.Branches address
  isOpen : path ∈ view.expanded

theorem keysBelow_append_subset (keys : Finset Str) (address rest : List Str) :
    keysBelow keys (address ++ rest) ⊆ keysBelow keys address := by
  intro key below
  rw [mem_keysBelow] at below ⊢
  exact ⟨below.1, (List.prefix_append ..).trans below.2⟩

theorem not_concat_prefix (address : List Str) (segment : Str) :
    ¬address ++ [segment] <+: address := by
  intro starts
  have longer := starts.length_le
  rw [List.length_append, List.length_singleton] at longer
  omega

/-- Where a key ends its address does not pass. -/
theorem not_passes_splitPath {keys : Finset Str} {key : Str} (member : key ∈ keys) :
    ¬Passes keys (splitPath key) := by
  rintro ⟨next, _, same⟩
  have here := mem_keysBelow_splitPath member
  rw [← same, mem_keysBelow] at here
  exact not_concat_prefix _ _ here.2

theorem keysBelow_mono {keys more : Finset Str} (subset : keys ⊆ more) (address : List Str) :
    keysBelow keys address ⊆ keysBelow more address :=
  Finset.filter_subset_filter _ subset

/-- Keys that all go on with one segment still do so when there are fewer. -/
theorem passes_of_subset {keys more : Finset Str} (subset : keys ⊆ more) {address : List Str}
    (there : (keysBelow keys address).Nonempty) (passes : Passes more address) :
    Passes keys address := by
  rcases passes with ⟨next, _, same⟩
  have sameKeys : keysBelow keys (address ++ [next]) = keysBelow keys address := by
    apply (keysBelow_append_subset ..).antisymm
    intro key below
    have further := keysBelow_mono subset address below
    rw [← same, mem_keysBelow] at further
    exact mem_keysBelow.mpr ⟨(mem_keysBelow.mp below).1, further.2⟩
  exact ⟨next, sameKeys ▸ there, sameKeys⟩

/-- One key alone has no branches on its way. -/
theorem passes_of_card_eq_one {keys : Finset Str} {address rest : List Str}
    (one : (keysBelow keys address).card = 1)
    (branches : ∃ next, (keysBelow keys (address ++ rest ++ [next])).Nonempty) :
    Passes keys (address ++ rest) := by
  rcases branches with ⟨next, there⟩
  refine ⟨next, there, Finset.eq_of_subset_of_card_le (keysBelow_append_subset ..) ?_⟩
  have inside := keysBelow_append_subset keys address rest
  exact (Finset.card_le_card inside).trans (one.le.trans there.card_pos)

/-- A key that does not end at an address goes on from it. -/
theorem goesOn_of_ne {keys : Finset Str} {address : List Str} {key : Str}
    (below : key ∈ keysBelow keys address) (further : splitPath key ≠ address) :
    ∃ next, address ++ [next] <+: splitPath key := by
  rcases mem_keysBelow.mp below with ⟨_, rest, split⟩
  cases rest with
  | nil => exact absurd (split.symm.trans (List.append_nil address)) further
  | cons next rest =>
      refine ⟨next, rest, ?_⟩
      rw [← split, List.append_assoc, List.singleton_append]

/-- Two keys part somewhere below an address that both are below. -/
theorem exists_fork {keys : Finset Str} {address : List Str} {key other : Str}
    (below : key ∈ keysBelow keys address) (otherBelow : other ∈ keysBelow keys address)
    (different : key ≠ other) :
    ∃ rest, ¬Passes keys (address ++ rest) ∧
      ∃ next, (keysBelow keys (address ++ rest ++ [next])).Nonempty := by
  induction left : (splitPath key).length - address.length using Nat.strong_induction_on
    generalizing address with
  | _ size ih =>
      by_cases passes : Passes keys address
      · rcases passes with ⟨next, _, same⟩
        rw [← same] at below otherBelow
        have longer := (mem_keysBelow.mp below).2.length_le
        have fewer : (splitPath key).length - (address ++ [next]).length < size := by
          rw [List.length_append, List.length_singleton] at longer ⊢
          omega
        rcases ih _ fewer below otherBelow rfl with ⟨rest, stops, branches⟩
        refine ⟨next :: rest, ?_, ?_⟩
        · rw [List.append_cons]
          exact stops
        · rw [List.append_cons]
          exact branches
      · refine ⟨[], ?_, ?_⟩
        · rw [List.append_nil]
          exact passes
        · rw [List.append_nil]
          by_cases ends : splitPath key = address
          · have otherGoesOn : splitPath other ≠ address := by
              intro otherEnds
              exact different (KeyTree.splitPath_injective (ends.trans otherEnds.symm))
            rcases goesOn_of_ne otherBelow otherGoesOn with ⟨next, starts⟩
            exact ⟨next, other, mem_keysBelow.mpr ⟨(mem_keysBelow.mp otherBelow).1, starts⟩⟩
          · rcases goesOn_of_ne below ends with ⟨next, starts⟩
            exact ⟨next, key, mem_keysBelow.mpr ⟨(mem_keysBelow.mp below).1, starts⟩⟩

/-- The text that some segments add to a path. -/
def tailPath (segments : List Str) : Str :=
  segments.flatMap fun segment => separator :: segment

theorem tailPath_concat (segments : List Str) (segment : Str) :
    tailPath (segments ++ [segment]) = tailPath segments ++ separator :: segment := by
  simp [tailPath]

theorem tailPath_ne_nil {segments : List Str} (nonempty : segments ≠ []) :
    tailPath segments ≠ [] := by
  rcases List.exists_cons_of_ne_nil nonempty with ⟨segment, rest, rfl⟩
  simp [tailPath]

theorem childPath_of_ne_nil {pre : Str} (nonempty : pre ≠ []) (segment : Str) :
    childPath pre segment = pre ++ separator :: segment := by
  rw [childPath, if_neg nonempty]

theorem length_childPath_le (pre segment : Str) :
    (childPath pre segment).length ≤ pre.length + (segment.length + 1) := by
  rw [childPath]
  split
  next empty =>
      rw [empty, List.length_nil]
      omega
  next => rw [List.length_append, List.length_cons]

theorem joinPath_concat {address : List Str} (nonempty : address ≠ []) (segment : Str) :
    joinPath (address ++ [segment]) = joinPath address ++ separator :: segment := by
  rw [joinPath, intercalate_append nonempty]
  simp [joinPath]

namespace Way

variable {view : View} {address : List Str} {path segment : Str}

theorem ne_nil (way : Way view address path) : address ≠ [] := by
  cases way with
  | top => exact List.cons_ne_nil _ _
  | fold | step => exact List.append_ne_nil_of_right_ne_nil _ (List.cons_ne_nil _ _)

theorem there (way : Way view address path) : (keysBelow view.keys address).Nonempty := by
  cases way with
  | top there | fold _ _ there | step _ _ _ there => exact there

theorem isSegment (way : Way view address path) : ∀ segment ∈ address, IsSegment segment := by
  intro segment member
  rcases way.there with ⟨key, below⟩
  exact isSegment_of_mem_splitPath ((mem_keysBelow.mp below).2.subset member)

/-- The last step of a way. -/
theorem last (way : Way view (address ++ [segment]) path) (nonempty : address ≠ []) :
    ∃ front, Way view address front ∧
      (view.Folds address ∧ path = front ++ separator :: segment ∨
        ¬view.Folds address ∧ front ∈ view.expanded ∧ path = childPath front segment) := by
  generalize whole : address ++ [segment] = place at way
  cases way with
  | top =>
      have shorter := congrArg List.length whole
      have positive := List.length_pos_of_ne_nil nonempty
      simp only [List.length_append, List.length_cons, List.length_nil] at shorter
      omega
  | fold way folds =>
      rcases List.append_inj' whole rfl with ⟨rfl, last⟩
      cases last
      exact ⟨_, way, .inl ⟨folds, rfl⟩⟩
  | step way stops isOpen =>
      rcases List.append_inj' whole rfl with ⟨rfl, last⟩
      cases last
      exact ⟨_, way, .inr ⟨stops, isOpen, rfl⟩⟩

theorem of_singleton (way : Way view [segment] path) : path = segment := by
  generalize whole : [segment] = place at way
  cases way with
  | top =>
      cases whole
      rfl
  | fold way | step way =>
      have shorter := congrArg List.length whole
      have positive := List.length_pos_of_ne_nil way.ne_nil
      simp only [List.length_append, List.length_cons, List.length_nil] at shorter
      omega

/-- There is one way to an address. -/
theorem unique {other : Str} (way : Way view address path) (otherWay : Way view address other) :
    path = other := by
  induction way generalizing other with
  | top => exact otherWay.of_singleton.symm
  | fold way folds _ ih =>
      rcases otherWay.last way.ne_nil with ⟨front, frontWay, ⟨_, rfl⟩ | ⟨stops, _⟩⟩
      · rw [ih frontWay]
      · exact absurd folds stops
  | step way stops _ _ ih =>
      rcases otherWay.last way.ne_nil with ⟨front, frontWay, ⟨folds, _⟩ | ⟨_, _, rfl⟩⟩
      · exact absurd folds stops
      · rw [ih frontWay]

/-- Where no open row has the empty path, paths are joined addresses. -/
theorem path_eq (shut : [] ∉ view.expanded) (way : Way view address path) :
    path = joinPath address := by
  induction way with
  | top => simp [joinPath]
  | fold way _ _ ih => rw [joinPath_concat way.ne_nil, ih]
  | step way _ isOpen _ ih =>
      have visible := ne_of_mem_of_not_mem isOpen shut
      rw [joinPath_concat way.ne_nil, childPath_of_ne_nil visible, ih]

/-- Whatever the last step is, it adds the segment to a path that is not empty. -/
theorem before_last (way : Way view (address ++ [segment]) path) (nonempty : address ≠ []) :
    ∃ front, Way view address front ∧ (front ≠ [] → path = front ++ separator :: segment) ∧
      path.length ≤ front.length + (segment.length + 1) := by
  rcases way.last nonempty with ⟨front, frontWay, ⟨_, rfl⟩ | ⟨_, _, rfl⟩⟩
  · exact ⟨front, frontWay, fun _ => rfl, by simp⟩
  · exact ⟨front, frontWay, fun visible => childPath_of_ne_nil visible segment,
      length_childPath_le front segment⟩

/-- A way to an address that begins with another goes through that one: the rest of the
path is that of the rest of the address, unless an open row with the empty path
there makes it shorter. -/
theorem front {front rest : List Str} (way : Way view (front ++ rest) path)
    (nonempty : front ≠ []) (further : rest ≠ []) :
    ∃ shown, Way view front shown ∧
      (view.Folds front ∧ path = shown ++ tailPath rest ∨
        ¬view.Folds front ∧ shown ∈ view.expanded ∧
          (shown ≠ [] → path = shown ++ tailPath rest) ∧
          (shown = [] → path.length < (tailPath rest).length)) := by
  induction rest using List.reverseRecOn generalizing path with
  | nil => exact absurd rfl further
  | append_singleton rest last ih =>
      cases rest with
      | nil =>
          rcases way.last nonempty with ⟨shown, shownWay, ⟨folds, rfl⟩ | ⟨stops, isOpen, rfl⟩⟩
          · exact ⟨shown, shownWay, .inl ⟨folds, by simp [tailPath]⟩⟩
          · refine ⟨shown, shownWay, .inr ⟨stops, isOpen, ?_, ?_⟩⟩
            · intro visible
              simp [childPath_of_ne_nil visible, tailPath]
            · rintro rfl
              simp [childPath, tailPath]
      | cons next rest =>
          have longer : front ++ (next :: rest) ≠ [] :=
            List.append_ne_nil_of_right_ne_nil _ (List.cons_ne_nil _ _)
          rw [← List.append_assoc] at way
          rcases way.before_last longer with ⟨before, beforeWay, onward, atMost⟩
          rcases ih beforeWay (List.cons_ne_nil _ _) with
            ⟨shown, shownWay, ⟨folds, rfl⟩ | ⟨stops, isOpen, straight, shorter⟩⟩
          · refine ⟨shown, shownWay, .inl ⟨folds, ?_⟩⟩
            have visible : shown ++ tailPath (next :: rest) ≠ [] :=
              List.append_ne_nil_of_right_ne_nil _ (tailPath_ne_nil (List.cons_ne_nil _ _))
            rw [onward visible, tailPath_concat, List.append_assoc]
          · refine ⟨shown, shownWay, .inr ⟨stops, isOpen, ?_, ?_⟩⟩
            · intro visible
              have beforeEq := straight visible
              have beforeVisible : before ≠ [] := by simp [beforeEq, visible]
              rw [onward beforeVisible, beforeEq, tailPath_concat, List.append_assoc]
            · intro empty
              have sooner := shorter empty
              rw [tailPath_concat, List.length_append, List.length_cons]
              omega

end Way

end Keylens.Ui
