import Keylens.Tui.Intent

/-!
# The keys of the key list

Some intents only the key list has: those that open and close branches, and those
that move its cursor.
-/

namespace Keylens.Tui

open Keylens.Library Keylens.Connection Keylens.BullMq Keylens.Ui Keylens.Backend

/-- The intents that only the key list has. -/
def Intent.inTree : Intent → Bool
  | .retree _ | .jumpToParent | .walk _ | .fetchFirst | .fetchLast | .fetchHere => true
  | _ => false

/-- The intents that the queue views have. -/
def Intent.inQueues : Intent → Bool
  | .stay | .openQueue | .openJob | .cycle _ | .leave _ | .moveQueue _ | .moveJob _ => true
  | _ => false

theorem Intent.not_inTree_of_inQueues {intent : Intent} (inQueues : intent.inQueues) :
    intent.inTree = false := by
  cases intent <;> first | rfl | cases inQueues

namespace App

variable (app : App) (key : KeyEvent)

theorem inTree_loadIntent (force : Bool) : (app.loadIntent force).inTree = false := by
  rw [loadIntent]
  split
  case h_2 => rfl
  case h_7 =>
      split
      · split <;> rfl
      · rfl
      · rfl
  all_goals split <;> rfl

theorem inTree_gotoIntent (view : View) : (app.gotoIntent view).inTree = false := by
  rw [gotoIntent]
  split
  · rfl
  · exact inTree_loadIntent _ false

theorem inQueues_queuesIntent : (app.queuesIntent key).inQueues := by
  have moves (delta : Int) : (app.moveIntent delta).inQueues := by
    rw [moveIntent]
    split <;> rfl
  have cycles (delta : Int) : (app.cycleIntent delta).inQueues := by
    rw [cycleIntent]
    split <;> rfl
  have enters : app.enterIntent.inQueues := by
    rw [enterIntent]
    split
    · split <;> rfl
    · split <;> rfl
    · rfl
  have leaves : app.leaveIntent.inQueues := by
    rw [leaveIntent]
    split <;> rfl
  rw [queuesIntent]
  split
  case h_11 | h_12 => exact cycles _
  case h_13 | h_14 | h_15 | h_16 => exact enters
  case h_17 | h_18 | h_19 => exact leaves
  case h_20 => rfl
  all_goals exact moves _

/-- What a key press can mean, by mode and by what the key is. -/
theorem intent_cases {motive : Intent → Prop} (stay : motive .stay)
    (search : app.mode = .search → motive (app.searchIntent key))
    (reload : app.mode = .normal → motive (app.loadIntent true))
    (goto : app.mode = .normal → ∀ view, motive (app.gotoIntent view))
    (viewed : app.mode = .normal → motive (app.viewIntent key)) : motive (app.intent key) := by
  rw [intent]
  split
  next => exact stay
  next =>
      split
      next => exact stay
      next mode => exact search mode
      next mode =>
          rw [normalIntent]
          split
          next => exact stay
          next => exact stay
          next => exact reload mode
          next =>
              rw [charIntent]
              split
              next =>
                  split
                  next view _ => exact goto mode view
                  next => exact stay
              next => exact viewed mode
          next => exact viewed mode

/-- An intent that only the key list has is one of the key list. -/
theorem intent_of_inTree (inTree : (app.intent key).inTree) :
    app.mode = .normal ∧ app.view = .keys ∧ app.intent key = app.keysViewIntent key := by
  revert inTree
  apply app.intent_cases key (motive := fun intent =>
    intent.inTree → app.mode = .normal ∧ app.view = .keys ∧ intent = app.keysViewIntent key)
  · intro stays
    cases stays
  · intro _
    rw [searchIntent]
    split
    all_goals
      intro searches
      cases searches
  · intro _
    rw [inTree_loadIntent]
    exact fun loads => absurd loads Bool.false_ne_true
  · intro _ view
    rw [inTree_gotoIntent]
    exact fun goes => absurd goes Bool.false_ne_true
  · intro mode
    rw [viewIntent]
    split
    next view => exact fun _ => ⟨mode, view, rfl⟩
    next =>
        rw [Intent.not_inTree_of_inQueues (app.inQueues_queuesIntent key)]
        exact fun queues => absurd queues Bool.false_ne_true
    next =>
        intro stays
        cases stays

/-- The trees that a key press can show. -/
theorem tree_of_retree {tree : KeyTree} (retrees : app.intent key = .retree tree) :
    tree = app.tree.expandAll ∨ tree = app.tree.collapseAll ∨
      ∃ path, tree = (app.tree.toggle path).1 := by
  have inTree : (app.intent key).inTree := by
    rw [retrees]
    rfl
  rcases app.intent_of_inTree key inTree with ⟨_, _, here⟩
  rw [here, keysViewIntent] at retrees
  split at retrees
  case h_6 =>
      split at retrees
      · cases retrees
        exact .inl rfl
      · cases retrees
  case h_7 =>
      cases retrees
      exact .inr (.inl rfl)
  case h_8 =>
      rw [focusIntent] at retrees
      split at retrees
      · cases retrees
      · rw [treeIntent] at retrees
        split at retrees
        case h_11 | h_12 | h_13 | h_14 =>
            rw [openIntent] at retrees
            split at retrees
            · cases retrees
            · split at retrees
              · cases retrees
                exact .inr (.inr ⟨_, rfl⟩)
              · cases retrees
        case h_15 | h_16 =>
            rw [collapseIntent] at retrees
            split at retrees
            · cases retrees
            · split at retrees
              · cases retrees
                exact .inr (.inr ⟨_, rfl⟩)
              · cases retrees
        all_goals cases retrees
  case h_3 | h_5 => split at retrees <;> cases retrees
  all_goals cases retrees

end App

end Keylens.Tui
