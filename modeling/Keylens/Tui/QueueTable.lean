import Keylens.BullMq.Job
import Keylens.Library.Machine
import Mathlib.Algebra.Order.Ring.Int
import Mathlib.Data.List.Sort

/-!
# The columns of the queue table

A pane is rarely wide enough for a column for every state and the throughput graph.
`layout` keeps the columns that always earn their space, adds the others one by one
while they fit, and gives the graph what is left.
-/

namespace Keylens.Tui.QueueTable

open Keylens.Library Keylens.BullMq

/-- Column width for a state's count, including the gap before it. -/
def col : Nat := 10

/-- Bounds on the sparkline; one cell is one second. -/
def sparkMin : Nat := 5

def sparkMax : Nat := 40

/-- Width of the events-per-second column. -/
def rateW : Nat := 7

/-- The columns that always earn their space. -/
def required : List State := [.waiting, .active, .failed]

/-- The rest, the last one dropped first. -/
def optional : List State := [.completed, .delayed, .prioritized, .waitingChildren]

/-- Add columns in order while they fit. -/
def addColumns (width : Nat) : List State → List State × Nat → List State × Nat
  | [], columns => columns
  | state :: rest, (shown, used) =>
      if width < used + col then (shown, used)
      else addColumns width rest (shown ++ [state], used + col)

/-- The place of a state in the canonical order. -/
def position (state : State) : Nat :=
  (State.all.idxOf? state).getD (2 ^ 64 - 1)

/-- The cells of the graph, after what is used and the room for its gap and the
rate column. -/
def sparkWidth (width taken : Nat) : Nat :=
  match Machine.checkedSub width taken with
  | some spare => if sparkMin ≤ spare then min spare sparkMax else 0
  | none => 0

/-- Which columns fit in a width, and how wide the graph is. -/
def layout (width nameW : Nat) : List State × Nat :=
  let (shown, used) :=
    addColumns width optional (required, 2 + nameW + 9 + required.length * col)
  (shown.insertionSort fun left right => position left ≤ position right,
    sparkWidth width (used + 2 + rateW))

/-! ## What the loop adds -/

/-- How many more columns fit. -/
def fitting (width used count : Nat) : Nat :=
  min count ((width - used) / col)

theorem addColumns_eq (width : Nat) (states shown : List State) (used : Nat) :
    addColumns width states (shown, used) =
      (shown ++ states.take (fitting width used states.length),
        used + col * fitting width used states.length) := by
  induction states generalizing shown used with
  | nil => simp [addColumns, fitting]
  | cons state rest ih =>
      rw [addColumns]
      split
      next full =>
          have none : fitting width used (rest.length + 1) = 0 := by
            rw [fitting, Nat.div_eq_of_lt (by rw [col] at full ⊢; omega), Nat.min_zero]
          rw [List.length_cons, none]
          simp
      next room =>
          have more : fitting width used (rest.length + 1) =
              fitting width (used + col) rest.length + 1 := by
            have left : width - used = width - (used + col) + col := by omega
            rw [fitting, left, Nat.add_div_right _ (by decide), Nat.add_min_add_right, fitting]
          rw [ih, List.length_cons, more, List.take_succ_cons, Nat.mul_succ]
          simp [Nat.add_assoc, Nat.add_comm col]

/-- What the columns that are always there take. -/
def base (nameW : Nat) : Nat :=
  2 + nameW + 9 + required.length * col

/-- How many of the optional columns are shown. -/
def added (width nameW : Nat) : Nat :=
  fitting width (base nameW) optional.length

/-- The columns of a table that shows some of the optional ones, in the canonical
order. -/
def columns (count : Nat) : List State :=
  (required ++ optional.take count).insertionSort fun left right =>
    position left ≤ position right

theorem layout_eq (width nameW : Nat) :
    layout width nameW =
      (columns (added width nameW),
        sparkWidth width (base nameW + col * added width nameW + 2 + rateW)) := by
  rw [layout, addColumns_eq]
  rfl

theorem perm_columns (count : Nat) : (columns count).Perm (required ++ optional.take count) :=
  List.perm_insertionSort ..

theorem mem_columns {count : Nat} {state : State} :
    state ∈ columns count ↔ state ∈ required ∨ state ∈ optional.take count := by
  rw [(perm_columns count).mem_iff, List.mem_append]

theorem length_columns {count : Nat} (shown : count ≤ optional.length) :
    (columns count).length = required.length + count := by
  rw [(perm_columns count).length_eq, List.length_append, List.length_take, Nat.min_eq_left shown]

theorem columns_sublist : ∀ count ≤ optional.length, (columns count).Sublist State.all := by
  decide

theorem columns_subset {few many : Nat} (more : few ≤ many) : columns few ⊆ columns many := by
  intro state member
  rw [mem_columns] at member ⊢
  exact member.imp_right fun shown => (List.take_prefix_take_left more).subset shown

/-- Of the optional columns the first ones are shown. -/
theorem filter_columns : ∀ count ≤ optional.length,
    optional.filter (· ∈ columns count) = optional.take count := by
  decide

theorem added_le (width nameW : Nat) : added width nameW ≤ optional.length :=
  Nat.min_le_left ..

theorem added_mono {width wider : Nat} (more : width ≤ wider) (nameW : Nat) :
    added width nameW ≤ added wider nameW := by
  have fits : (width - base nameW) / col ≤ (wider - base nameW) / col :=
    Nat.div_le_div_right (Nat.sub_le_sub_right more _)
  rw [added, added, fitting, fitting]
  omega

/-- The columns fit. -/
theorem base_add_added_le {width nameW : Nat} (room : base nameW ≤ width) :
    base nameW + col * added width nameW ≤ width := by
  have least : added width nameW ≤ (width - base nameW) / col := Nat.min_le_right ..
  have taken := Nat.le_trans (Nat.mul_le_mul_left col least) (Nat.mul_div_le ..)
  omega

/-- The room a graph of so many cells takes. -/
def graphRoom (cells : Nat) : Nat :=
  if 0 < cells then 2 + cells + rateW else 0

theorem sparkWidth_cases (width taken : Nat) :
    (width < taken + sparkMin ∧ sparkWidth width taken = 0) ∨
      (taken + sparkMin ≤ width ∧ sparkWidth width taken = min (width - taken) sparkMax) := by
  rw [sparkWidth, Machine.checkedSub]
  split
  next spare found =>
      split at found
      next => cases found; split <;> omega
      next => cases found
  next found =>
      split at found
      next => cases found
      next => exact .inl ⟨by omega, rfl⟩

theorem graphRoom_sparkWidth_le {width used : Nat} (fits : used ≤ width) :
    used + graphRoom (sparkWidth width (used + 2 + rateW)) ≤ width := by
  rw [graphRoom]
  rcases sparkWidth_cases width (used + 2 + rateW) with ⟨_, none⟩ | ⟨room, cells⟩
  · simpa [none] using fits
  · split <;> omega

theorem sparkWidth_within (width taken : Nat) :
    sparkWidth width taken = 0 ∨
      sparkMin ≤ sparkWidth width taken ∧ sparkWidth width taken ≤ sparkMax := by
  have bounds : sparkMin ≤ sparkMax := by decide
  rcases sparkWidth_cases width taken with ⟨_, none⟩ | ⟨room, cells⟩
  · exact .inl none
  · right
    omega

/-- The graph is there when its shortest run of cells fits. -/
theorem sparkWidth_pos_iff (width taken : Nat) :
    0 < sparkWidth width taken ↔ taken + sparkMin ≤ width := by
  have least : 0 < sparkMin := by decide
  have bounds : sparkMin ≤ sparkMax := by decide
  rcases sparkWidth_cases width taken with ⟨_, _⟩ | ⟨_, _⟩ <;> omega

/-! ## The same on a 64-bit machine -/

section Machine

open Machine

def addColumns? (width : Nat) : List State → List State × Nat → Option (List State × Nat)
  | [], columns => some columns
  | state :: rest, (shown, used) => do
      let next ← unsigned (used + col : Nat)
      if width < next then some (shown, used)
      else addColumns? width rest (shown ++ [state], next)

/-- `layout` with every sum checked. -/
def layout? (width nameW : Nat) : Option (List State × Nat) := do
  let used ← unsigned (2 + nameW : Nat)
  let used ← unsigned (used + 9 : Nat)
  let used ← unsigned (used + required.length * col : Nat)
  let (shown, used) ← addColumns? width optional (required, used)
  let taken ← unsigned (used + 2 : Nat)
  let taken ← unsigned (taken + rateW : Nat)
  some (shown.insertionSort fun left right => position left ≤ position right,
    sparkWidth width taken)

theorem addColumns?_eq (width : Nat) (states shown : List State) {used : Nat}
    (room : used + col * states.length < 2 ^ 64) :
    addColumns? width states (shown, used) = some (addColumns width states (shown, used)) := by
  induction states generalizing shown used with
  | nil => rfl
  | cons state rest ih =>
      rw [List.length_cons, Nat.mul_succ] at room
      rw [addColumns?, unsigned_eq (by omega), Option.bind_eq_bind, Option.bind_some, addColumns]
      split
      next => rfl
      next => exact ih (shown ++ [state]) (by omega)

/-- Whatever the width of the pane, no sum leaves its range. -/
theorem layout?_eq (width : Nat) {nameW : Nat} (room : nameW + 90 < 2 ^ 64) :
    layout? width nameW = some (layout width nameW) := by
  have widest : base nameW + col * optional.length + 2 + rateW = nameW + 90 := by
    rw [base]
    change 2 + nameW + 9 + 30 + 40 + 2 + 7 = nameW + 90
    omega
  have most : col * added width nameW ≤ col * optional.length :=
    Nat.mul_le_mul_left col (added_le width nameW)
  have columns := addColumns?_eq width optional required (show base nameW + _ < _ by omega)
  rw [addColumns_eq, ← added] at columns
  have least : 2 + nameW + 9 ≤ base nameW := Nat.le_add_right ..
  simp only [layout?, Option.bind_eq_bind]
  rw [unsigned_eq (by omega), Option.bind_some, unsigned_eq (by omega), Option.bind_some, ← base,
    unsigned_eq (by omega), Option.bind_some, columns, Option.bind_some, unsigned_eq (by omega),
    Option.bind_some, unsigned_eq (by omega), Option.bind_some, layout_eq]
  rfl

end Machine

/-! ## What is shown at a width -/

/-- The table fits, its columns are the required ones and the first of the optional
ones in the canonical order, and more width never takes a column away.  On a 64-bit
machine no sum or difference leaves its range. -/
theorem layout_fits (width nameW : Nat) :
    let (shown, sparkW) := layout width nameW
    (2 + nameW + 9 + 3 * col ≤ width →
      2 + nameW + 9 + col * shown.length + graphRoom sparkW ≤ width ∧
      shown.Nodup ∧ shown.Sublist State.all ∧
      .waiting ∈ shown ∧ .active ∈ shown ∧ .failed ∈ shown ∧
      optional.filter (· ∈ shown) <+: optional ∧
      (sparkW = 0 ∨ sparkMin ≤ sparkW ∧ sparkW ≤ sparkMax) ∧
      ∀ wider, width ≤ wider → shown ⊆ (layout wider nameW).1) ∧
    (nameW + 90 < 2 ^ 64 → layout? width nameW = some (shown, sparkW)) := by
  rw [layout_eq]
  dsimp only
  have few := added_le width nameW
  refine ⟨?_, fun room => (layout?_eq width room).trans (congrArg some (layout_eq width nameW))⟩
  intro room
  have ordered := columns_sublist _ few
  have shown (state : State) (member : state ∈ required) :
      state ∈ columns (added width nameW) := mem_columns.mpr (.inl member)
  have used : base nameW + col * added width nameW ≤ width := base_add_added_le room
  refine ⟨?_, ordered.nodup (by decide), ordered, shown _ (by decide), shown _ (by decide),
    shown _ (by decide), ?_, ?_, ?_⟩
  · have size : 2 + nameW + 9 + col * (columns (added width nameW)).length =
        base nameW + col * added width nameW := by
      rw [length_columns few, Nat.mul_add, base, Nat.mul_comm col, Nat.add_assoc _ _ (col * _)]
    rw [size]
    exact graphRoom_sparkWidth_le used
  · rw [filter_columns _ few]
    exact List.take_prefix _ _
  · exact sparkWidth_within width _
  · intro wider more
    rw [layout_eq]
    exact columns_subset (added_mono more nameW)

/-- A pane of 78 columns with short names. -/
theorem layout_fits_narrow_pane :
    let (shown, sparkW) := layout 78 12
    shown = [.waiting, .active, .delayed, .completed, .failed] ∧ sparkW = 0 ∧
      2 + 12 + 9 + col * shown.length + graphRoom sparkW ≤ 78 ∧
      shown ⊆ (layout 198 12).1 ∧ layout? 78 12 = some (shown, sparkW) := by
  rcases layout_fits 78 12 with ⟨shown, machine⟩
  rcases shown (by decide) with ⟨fits, _, _, _, _, _, _, _, mono⟩
  exact ⟨by decide, by decide, fits, mono 198 (by decide), machine (by decide)⟩

/-! ## The graph and the optional columns -/

/-- The graph is there whenever it fits beside the required columns, and no optional
column is kept in the room it would need. -/
def GraphFirst (width nameW : Nat) : Prop :=
  let (shown, sparkW) := layout width nameW
  let graphFits := 2 + nameW + 9 + 3 * col + 2 + sparkMin + rateW ≤ width
  (graphFits → 0 < sparkW) ∧ ∀ state ∈ shown, state ∈ optional → sparkW = 0 → ¬graphFits

/-- Columns are added as long as they fit, so the graph is there only beside all of
them. -/
theorem graphFirst_iff (width nameW : Nat) :
    GraphFirst width nameW ↔
      width < 2 + nameW + 9 + 3 * col + 2 + sparkMin + rateW ∨
      2 + nameW + 9 + State.all.length * col + 2 + sparkMin + rateW ≤ width := by
  have paid : GraphFirst width nameW ↔
      (base nameW + 2 + sparkMin + rateW ≤ width →
        base nameW + col * added width nameW + 2 + rateW + sparkMin ≤ width) := by
    rw [GraphFirst, layout_eq]
    dsimp only
    rw [← sparkWidth_pos_iff]
    constructor
    · exact And.left
    · intro graph
      exact ⟨graph, fun _ _ _ none fits => Nat.ne_of_gt (graph fits) none⟩
  have optionals : optional.length = 4 := rfl
  have bases : base nameW = nameW + 41 := by
    change 2 + nameW + 9 + 30 = nameW + 41
    omega
  rw [paid, added, fitting, optionals, bases]
  change _ ↔ width < 2 + nameW + 9 + 30 + 2 + 5 + 7 ∨ 2 + nameW + 9 + 70 + 2 + 5 + 7 ≤ width
  rw [col, sparkMin, rateW]
  omega

/-- In a pane of 78 columns the graph would fit beside the required columns, and two
optional ones take its room. -/
theorem narrow_pane_loses_graph :
    ¬GraphFirst 78 12 ∧
      2 + 12 + 9 + 3 * col + 2 + sparkMin + rateW ≤ 78 ∧
      layout 78 12 = ([.waiting, .active, .delayed, .completed, .failed], 0) := by
  refine ⟨?_, by decide, by decide⟩
  intro first
  exact absurd (first.1 (by decide)) (by decide)

end Keylens.Tui.QueueTable
