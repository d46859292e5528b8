import Keylens.Library.KeyedRow
import Mathlib.Order.BoundedOrder.Basic

/-!
# Following a log

A log holds items with increasing ids and grows at its end.  A follower asks for
the items after a mark, at most so many at a time, and keeps what it was given.
It misses nothing as long as each mark lies right behind the items it has.
-/

namespace Keylens.Library

universe u v

variable {β : Type u} {κ : Type v} [LinearOrder κ] {id : β → κ}

/-- Items with increasing ids. -/
structure Log (id : β → κ) where
  items : List β
  increasing : Increasing id items

namespace Log

/-- The items that a follower has: a stretch without gaps, right after the first
`start` items. -/
structure Delivered (log : Log id) (start : Nat) (delivered : List β) : Prop where
  start_le : start ≤ log.items.length
  stretch : delivered <+: log.items.drop start

theorem delivered_nil (log : Log id) : log.Delivered log.items.length [] :=
  ⟨le_rfl, List.nil_prefix⟩

/-- The items up to the last one delivered, and the rest. -/
theorem Delivered.split {log : Log id} {start : Nat} {delivered : List β}
    (follows : log.Delivered start delivered) :
    log.items = log.items.take start ++ delivered ++
      log.items.drop (start + delivered.length) := by
  rcases follows.stretch with ⟨rest, restEq⟩
  have dropEq : log.items.drop (start + delivered.length) = rest := by
    rw [← List.drop_drop, ← restEq, List.drop_left]
  rw [dropEq, List.append_assoc, restEq, List.take_append_drop]

theorem Delivered.passed_le {log : Log id} {start : Nat} {delivered : List β}
    (follows : log.Delivered start delivered) :
    start + delivered.length ≤ log.items.length := by
  have short := follows.stretch.length_le
  rw [List.length_drop] at short
  have := follows.start_le
  omega

section Marks

variable [OrderBot κ]

/-- The id of the last item, or the least id of all while there is none. -/
def lastId (log : Log id) : κ :=
  log.items.getLast?.elim ⊥ id

theorem le_lastId (log : Log id) {item : β} (member : item ∈ log.items) : id item ≤ log.lastId := by
  cases isLast : log.items.getLast? with
  | none =>
      rw [List.getLast?_eq_none_iff.mp isLast] at member
      cases member
  | some last =>
      rw [lastId, isLast]
      exact log.increasing.le_getLast member isLast

/-- Put one item at the end; an item that would not be the last is refused. -/
def append (log : Log id) (item : β) : Log id :=
  if above : log.lastId < id item then
    { items := log.items ++ [item]
      increasing := by
        apply Increasing.insert
        · rw [List.append_nil]
          exact log.increasing
        · exact fun low member => (log.le_lastId member).trans_lt above
        · exact fun high member => absurd member List.not_mem_nil }
  else log

/-- Appending leaves a log as it is or puts one item above all others. -/
theorem append_cases (log : Log id) (item : β) :
    log.append item = log ∨
      log.lastId < id item ∧ (log.append item).items = log.items ++ [item] := by
  by_cases above : log.lastId < id item
  · right
    exact ⟨above, by rw [append, dif_pos above]⟩
  · left
    rw [append, dif_neg above]

theorem lastId_le_append (log : Log id) (item : β) : log.lastId ≤ (log.append item).lastId := by
  rcases log.append_cases item with same | ⟨above, items⟩
  · rw [same]
  · have isLast : (log.append item).lastId = id item := by
      rw [lastId, items, List.getLast?_concat]
      rfl
    rw [isLast]
    exact above.le

/-- The items with ids above a mark. -/
def after (log : Log id) (mark : κ) : List β :=
  log.items.filter fun item => mark < id item

/-- A mark lies behind the first `passed` items and before the others, and is
not above the last id. -/
structure Marks (log : Log id) (passed : Nat) (mark : κ) : Prop where
  behind : ∀ item ∈ log.items.take passed, id item ≤ mark
  ahead : ∀ item ∈ log.items.drop passed, mark < id item
  bounded : mark ≤ log.lastId

/-- The last id marks the end. -/
theorem marks_lastId (log : Log id) : log.Marks log.items.length log.lastId where
  behind item member := log.le_lastId (List.mem_of_mem_take member)
  ahead item member := by
    rw [List.drop_length] at member
    cases member
  bounded := le_rfl

variable {log : Log id} {passed : Nat} {mark : κ}

theorem Marks.after_eq (marks : log.Marks passed mark) :
    log.after mark = log.items.drop passed := by
  have behind : (log.items.take passed).filter (fun item => mark < id item) = [] := by
    apply List.filter_eq_nil_iff.mpr
    intro item member
    simpa using marks.behind item member
  have ahead : (log.items.drop passed).filter (fun item => mark < id item) =
      log.items.drop passed := by
    apply List.filter_eq_self.mpr
    intro item member
    simpa using marks.ahead item member
  conv_lhs => rw [after, ← List.take_append_drop passed log.items]
  rw [List.filter_append, behind, ahead, List.nil_append]

/-- A mark stays where it is when the log grows. -/
theorem Marks.append (marks : log.Marks passed mark) (within : passed ≤ log.items.length)
    (item : β) : (log.append item).Marks passed mark := by
  rcases log.append_cases item with same | ⟨above, items⟩
  · rw [same]
    exact marks
  · constructor
    · rw [items, List.take_append_of_le_length within]
      exact marks.behind
    · rw [items, List.drop_append_of_le_length within]
      intro later member
      rcases List.mem_append.mp member with before | here
      · exact marks.ahead later before
      · rw [List.mem_singleton.mp here]
        exact marks.bounded.trans_lt above
    · exact marks.bounded.trans (log.lastId_le_append item)

end Marks

section Delivered

variable [OrderBot κ] {log : Log id} {start : Nat} {delivered : List β} {mark : κ}

theorem Delivered.append (follows : log.Delivered start delivered) (item : β) :
    (log.append item).Delivered start delivered := by
  rcases log.append_cases item with same | ⟨_, items⟩
  · rw [same]
    exact follows
  · constructor
    · rw [items, List.length_append]
      exact follows.start_le.trans (Nat.le_add_right _ _)
    · rw [items, List.drop_append_of_le_length follows.start_le]
      exact follows.stretch.trans (List.prefix_append _ _)

/-- Reading on from a mark right behind what was delivered leaves no gap. -/
theorem Delivered.read (follows : log.Delivered start delivered)
    (marks : log.Marks (start + delivered.length) mark) (count : Nat) :
    log.Delivered start (delivered ++ (log.after mark).take count) := by
  constructor
  · exact follows.start_le
  · rcases follows.stretch with ⟨rest, restEq⟩
    rw [marks.after_eq, ← List.drop_drop, ← restEq, List.drop_left]
    exact (List.prefix_append_right_inj delivered).mpr (List.take_prefix count rest)

/-- The id of the last item delivered marks what was delivered. -/
theorem Delivered.marks_last (follows : log.Delivered start delivered) {last : β}
    (isLast : delivered.getLast? = some last) :
    log.Marks (start + delivered.length) (id last) := by
  rcases List.getLast?_eq_some_iff.mp isLast with ⟨before, deliveredEq⟩
  have split : log.items = (log.items.take start ++ before) ++
      last :: log.items.drop (start + delivered.length) := by
    conv_lhs => rw [follows.split, deliveredEq]
    simp [deliveredEq]
  have increasing := log.increasing
  rw [split] at increasing
  have taken : log.items.take (start + delivered.length) =
      log.items.take start ++ delivered := by
    conv_lhs => rw [follows.split]
    apply List.take_left'
    rw [List.length_append, List.length_take, min_eq_left follows.start_le]
  constructor
  · intro item member
    rw [taken, deliveredEq, ← List.append_assoc] at member
    rcases List.mem_append.mp member with earlier | here
    · exact (increasing.lows_lt item earlier).le
    · rw [List.mem_singleton.mp here]
  · exact increasing.highs_gt
  · apply log.le_lastId
    rw [split]
    simp

end Delivered

end Log

end Keylens.Library
