import Keylens.Backend.Delivery
import Mathlib.Order.RelClasses

/-!
# When nothing more is asked for

The worker cannot go on for ever with what it was asked for: every move takes a request
out of the channel, or brings a computation closer to its end, or an update to the UI.  It
never blocks for good either, since the UI goes on taking updates.  So it comes to rest,
and then everything has been answered.
-/

namespace Keylens.Backend

open Keylens.Library Keylens.Connection Keylens.BullMq Keylens.Ui

namespace Tasks

variable {setting : Setting} {may : calls.Answers} {asks : Call → Prop}
variable {fits : Request → Update → Prop} {state next : Tasks}

/-! ## Every move is progress -/

/-- What there is to do: requests to take, computations to end, and updates to
deliver. -/
def outstanding (state : Tasks) :
    Nat × Multiset (Work (Loop × Update)) × Multiset (Work Update) × Nat :=
  (state.requests.length, state.main.toList.map Prod.snd, state.spawned.filterMap Task.left,
    state.updates.length)

/-- What is to be taken comes first: a request may start more than it ends. -/
def Less : (before after : Nat × Multiset (Work (Loop × Update)) × Multiset (Work Update) × Nat) →
    Prop :=
  Prod.Lex (· < ·) (Prod.Lex (Relation.CutExpand Prog.After)
    (Prod.Lex (Relation.CutExpand Prog.After) (· < ·)))

theorem wellFounded_less : WellFounded Less :=
  WellFounded.prod_lex Nat.lt_wfRel.wf (WellFounded.prod_lex Prog.wellFounded_after.cutExpand
    (WellFounded.prod_lex Prog.wellFounded_after.cutExpand Nat.lt_wfRel.wf))

/-- A task that is less far from its end leaves less to do. -/
theorem cutExpand_left {front back : List Task} {number : Nat} {aborted : Bool}
    {before : Work Update} {after : Option (Work Update)}
    (less : ∀ work, after = some work → Prog.After work before) :
    Relation.CutExpand Prog.After
      (((front ++ ⟨number, after, aborted⟩ :: back).filterMap Task.left : List (Work Update)) :
        Multiset (Work Update))
      ((front ++ ⟨number, some before, aborted⟩ :: back).filterMap Task.left) := by
  simp only [List.filterMap_append, List.filterMap_cons]
  cases after with
  | none => exact cutExpand_done
  | some work => exact cutExpand_one (less work rfl)

theorem less_of_move (move : Move setting may state next) :
    Less next.outstanding state.outstanding := by
  cases move with
  | take idle accepted =>
      have taken : state.taken < state.accepted.length := (List.getElem?_eq_some_iff.mp accepted).1
      apply Prod.Lex.left
      simp only [requests, accepted_take, taken_take, List.length_drop]
      omega
  | mainAsks main told =>
      apply Prod.Lex.right
      rw [main]
      exact Prod.Lex.left _ _ (Relation.cutExpand_singleton_singleton (.answer ..))
  | mainSends main room =>
      apply Prod.Lex.right
      rw [main]
      exact Prod.Lex.left _ _ Relation.cutExpand_zero
  | taskAsks spawned told =>
      apply Prod.Lex.right
      apply Prod.Lex.right
      rw [spawned]
      apply Prod.Lex.left
      apply cutExpand_left
      rintro _ ⟨⟩
      exact .answer ..
  | taskSends spawned room =>
      apply Prod.Lex.right
      apply Prod.Lex.right
      rw [spawned]
      exact Prod.Lex.left _ _ (cutExpand_left nofun)
  | taskVanishes spawned =>
      apply Prod.Lex.right
      apply Prod.Lex.right
      rw [spawned]
      exact Prod.Lex.left _ _ (cutExpand_left nofun)

theorem less_of_drains (drains : Drains setting may state next) :
    Less next.outstanding state.outstanding := by
  cases drains with
  | move move => exact less_of_move move
  | receive waiting =>
      apply Prod.Lex.right
      apply Prod.Lex.right
      apply Prod.Lex.right
      simp only [updates, List.length_drop]
      omega

theorem wellFounded_drains : WellFounded fun next state => Drains setting may state next :=
  Subrelation.wf less_of_drains (InvImage.wf outstanding wellFounded_less)

/-! ## At rest -/

/-- Every request of the main loop has its answer, the `Select` that came last has its
own, and the UI has everything. -/
structure Settled (state : Tasks) : Prop where
  delivered : state.updates = []
  loop : ∀ number, state.InLoop number → number ∈ state.answers
  select : ∀ number, state.Selects number → (∀ later, number < later → ¬state.Selects later) →
    number ∈ state.answers

theorem lt_length_of_accepted {number : Nat} {request : Request}
    (accepted : state.accepted[number]? = some request) : number < state.accepted.length :=
  (List.getElem?_eq_some_iff.mp accepted).1

/-- What can move while there is room does, as long as calls are answered at all. -/
theorem settled_of_rests (answerable : ∀ call, ∃ answer, may call answer)
    (delivers : state.Delivers) (rests : Rests (Drains setting may) state) : state.Settled := by
  have delivered : state.updates = [] := by
    apply List.drop_eq_nil_iff.mpr
    by_contra waiting
    exact rests _ (.receive (Nat.lt_of_not_le waiting))
  have room : state.hasRoom := by
    rw [hasRoom, delivered]
    rfl
  have idle : state.main = none := by
    cases main : state.main with
    | none => rfl
    | some atWork =>
        rcases atWork with ⟨number, work⟩
        cases work with
        | done answer => exact (rests _ (.move (.mainSends main room))).elim
        | ask call rest =>
            rcases answerable call with ⟨answer, told⟩
            exact (rests _ (.move (.mainAsks main told))).elim
  have taken : state.accepted.length ≤ state.taken := by
    by_contra waiting
    exact rests _ (.move (.take idle (List.getElem?_eq_getElem (Nat.lt_of_not_le waiting))))
  have finished : ∀ task ∈ state.spawned, task.left = none := by
    intro task member
    rcases List.append_of_mem member with ⟨front, back, spawned⟩
    rcases task with ⟨number, left, aborted⟩
    cases left with
    | none => rfl
    | some work =>
        cases work with
        | done update => exact (rests _ (.move (.taskSends spawned room))).elim
        | ask call rest =>
            rcases answerable call with ⟨answer, told⟩
            exact (rests _ (.move (.taskAsks spawned told))).elim
  refine ⟨delivered, ?_, ?_⟩
  · rintro number ⟨request, accepted, inLoop⟩
    have lt := (lt_length_of_accepted accepted).trans_le taken
    rcases delivers.complete number lt ⟨request, accepted, inLoop⟩ with answered | ⟨work, main⟩
    · exact answered
    · cases idle.symm.trans main
  · rintro number ⟨key, accepted⟩ last
    have lt := (lt_length_of_accepted accepted).trans_le taken
    have isLast : state.LastSelect number := ⟨lt, ⟨key, accepted⟩, fun later lt _ => last later lt⟩
    rcases delivers.current number isLast with ⟨place, task, current⟩
    exact current.answered (finished task (List.mem_of_getElem? current.spawned))

theorem accepted_of_drains (drains : Drains setting may state next) :
    next.accepted = state.accepted := by
  cases drains with
  | receive => rfl
  | move move =>
      cases move with
      | take => exact accepted_take _
      | _ => rfl

/-- Whatever order the moves come in, the worker comes to rest, with everything answered
that it was asked for. -/
theorem inevitably_settled_of_serves (guarantees : Guarantees setting may asks fits)
    (answerable : ∀ call, ∃ answer, may call answer) (serves : state.Serves may asks fits)
    (delivers : state.Delivers) :
    Inevitable (Drains setting may)
      (fun rest => Rests (Drains setting may) rest ∧ rest.accepted = state.accepted ∧
        rest.Settled) state := by
  have rests := inevitable_rests (@wellFounded_drains setting may) state
  have invariant (before after : Tasks)
      (holds : before.accepted = state.accepted ∧ before.Serves may asks fits ∧ before.Delivers)
      (drains : Drains setting may before after) :
      after.accepted = state.accepted ∧ after.Serves may asks fits ∧ after.Delivers :=
    ⟨(accepted_of_drains drains).trans holds.1, holds.2.1.step guarantees (.drains drains),
      holds.2.2.step holds.2.1 (.drains drains)⟩
  apply (rests.and_invariant invariant ⟨rfl, serves, delivers⟩).mono
  rintro rest ⟨still, same, _, delivered⟩
  exact ⟨still, same, settled_of_rests answerable delivered still⟩

end Tasks

end Keylens.Backend
