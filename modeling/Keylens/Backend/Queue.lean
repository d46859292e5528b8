import Keylens.Library.KeyedRow
import Keylens.Backend.Draining

/-!
# The worker as a queue

Of the requests that the main loop answers, those whose answers the UI has not taken yet
form a queue: a request joins it at the end, and the answers are taken from its front.
-/

namespace Keylens.Backend

open Keylens.Library Keylens.Connection Keylens.BullMq Keylens.Ui

namespace Tasks

section

variable (state : Tasks)

/-- The request of a number is one of the main loop's. -/
def inLoopAt (number : Nat) : Bool :=
  state.accepted[number]?.any Request.inLoop

def loopNumbers : List Nat :=
  (List.range state.accepted.length).filter state.inLoopAt

/-- The numbers of the requests of the main loop whose answers the UI has taken. -/
def answeredNumbers : List Nat :=
  ((state.sent.take state.received).filterMap Prod.fst).filter state.inLoopAt

/-- The requests of the main loop whose answers the UI has not taken yet. -/
def outstandingRequests : List Request :=
  (state.loopNumbers.drop state.answeredNumbers.length).filterMap fun number =>
    state.accepted[number]?

end

variable {setting : Setting} {may : calls.Answers} {asks : Call → Prop}
variable {fits : Request → Update → Prop} {state next : Tasks}

theorem inLoopAt_iff {number : Nat} : state.inLoopAt number ↔ state.InLoop number := by
  rw [inLoopAt, InLoop]
  exact Option.any_eq_true _ _

theorem pairwise_loopNumbers (state : Tasks) : state.loopNumbers.Pairwise (· < ·) :=
  List.pairwise_lt_range.filter _

theorem mem_loopNumbers {number : Nat} : number ∈ state.loopNumbers ↔ state.InLoop number := by
  rw [loopNumbers, List.mem_filter, List.mem_range, inLoopAt_iff]
  constructor
  · exact And.right
  · rintro ⟨request, accepted, inLoop⟩
    exact ⟨(List.getElem?_eq_some_iff.mp accepted).1, request, accepted, inLoop⟩

/-- The answers of the main loop go through its requests without leaving one out. -/
theorem Delivers.prefix_loopNumbers (delivers : state.Delivers)
    (serves : state.Serves may asks fits) :
    state.answers.filter state.inLoopAt <+: state.loopNumbers := by
  have increasing : (state.answers.filter state.inLoopAt).Pairwise (· < ·) := by
    apply List.pairwise_filter.mpr
    apply delivers.inOrder.imp
    exact fun before _ inLoop => before (inLoopAt_iff.mp inLoop)
  apply prefix_of_downward_closed increasing state.pairwise_loopNumbers
  · intro number member
    exact mem_loopNumbers.mpr (inLoopAt_iff.mp (List.mem_filter.mp member).2)
  · intro number member earlier isLoop lt
    have inLoop := mem_loopNumbers.mp isLoop
    have taken := lt_taken_of_mem_answers serves (List.mem_filter.mp member).1
    apply List.mem_filter.mpr
    refine ⟨?_, inLoopAt_iff.mpr inLoop⟩
    rcases delivers.complete earlier (lt.trans taken) inLoop with answered | ⟨work, main⟩
    · exact answered
    · -- The main loop is at the request that was taken last.
      have last := (serves.main earlier work main).1
      omega

theorem prefix_answeredNumbers (state : Tasks) :
    state.answeredNumbers <+: state.answers.filter state.inLoopAt :=
  ((List.take_prefix _ _).filterMap _).filter _

theorem lt_length_of_mem_answeredNumbers (serves : state.Serves may asks fits) {number : Nat}
    (member : number ∈ state.answeredNumbers) : number < state.accepted.length := by
  have isAnswer : number ∈ state.answers :=
    ((List.take_prefix _ _).filterMap _).subset (List.mem_filter.mp member).1
  exact (lt_taken_of_mem_answers serves isAnswer).trans_le serves.taken_le

/-- What is asked for later changes nothing of what has been answered. -/
theorem answeredNumbers_of_grown (serves : state.Serves may asks fits)
    (grows : state.accepted <+: next.accepted)
    (sent : next.sent.take next.received = state.sent.take state.received) :
    next.answeredNumbers = state.answeredNumbers := by
  rw [answeredNumbers, sent, answeredNumbers]
  apply List.filter_congr
  intro number member
  have isAnswer : number ∈ state.answers :=
    ((List.take_prefix _ _).filterMap _).subset member
  have inside := (lt_taken_of_mem_answers serves isAnswer).trans_le serves.taken_le
  rw [inLoopAt, inLoopAt, List.getElem?_eq_getElem inside]
  rw [List.prefix_iff_getElem?.mp grows number inside]

/-! ## A request joins the queue -/

theorem outstandingRequests_accept (delivers : state.Delivers)
    (serves : state.Serves may asks fits) (request : Request) :
    outstandingRequests { state with accepted := state.accepted ++ [request] } =
      state.outstandingRequests ++ if request.inLoop then [request] else [] := by
  let grown : Tasks := { state with accepted := state.accepted ++ [request] }
  have same {number : Nat} (lt : number < state.accepted.length) :
      grown.accepted[number]? = state.accepted[number]? := List.getElem?_append_left lt
  have new : grown.accepted[state.accepted.length]? = some request := List.getElem?_concat_length
  have inLoopAt {number : Nat} (lt : number < state.accepted.length) :
      grown.inLoopAt number = state.inLoopAt number := by
    rw [Tasks.inLoopAt, same lt, Tasks.inLoopAt]
  have answered : grown.answeredNumbers = state.answeredNumbers :=
    answeredNumbers_of_grown serves (List.prefix_append _ _) rfl
  have numbers : grown.loopNumbers =
      state.loopNumbers ++ if request.inLoop then [state.accepted.length] else [] := by
    have length : grown.accepted.length = state.accepted.length + 1 := List.length_append
    rw [loopNumbers, length, List.range_succ, List.filter_append]
    congr 1
    · exact List.filter_congr fun number member => inLoopAt (List.mem_range.mp member)
    · have isNew : grown.inLoopAt state.accepted.length = request.inLoop := by
        rw [Tasks.inLoopAt, new]
        rfl
      rw [List.filter_singleton, isNew]
      cases request.inLoop <;> rfl
  have inside : state.answeredNumbers.length ≤ state.loopNumbers.length :=
    (state.prefix_answeredNumbers.trans (delivers.prefix_loopNumbers serves)).length_le
  change (grown.loopNumbers.drop grown.answeredNumbers.length).filterMap _ = _
  rw [answered, numbers, List.drop_append_of_le_length inside, List.filterMap_append]
  congr 1
  · apply List.filterMap_congr
    intro number member
    apply same
    have isLoop := List.mem_of_mem_drop member
    exact List.mem_range.mp (List.mem_filter.mp isLoop).1
  · cases request.inLoop with
    | true => simp
    | false => rfl

/-! ## An answer is taken from its front -/

theorem mem_sent_of_waiting {source : Option Nat} {update : Update}
    {rest : List (Option Nat × Update)} (waiting : state.updates = (source, update) :: rest) :
    (source, update) ∈ state.sent := by
  apply List.mem_of_mem_drop
  exact List.mem_of_mem_head? (congrArg List.head? waiting)

theorem take_sent_succ {source : Option Nat} {update : Update}
    {rest : List (Option Nat × Update)} (waiting : state.updates = (source, update) :: rest) :
    state.sent.take (state.received + 1) =
      state.sent.take state.received ++ [(source, update)] := by
  have oldest : state.sent[state.received]? = some (source, update) := by
    rw [← List.head?_drop]
    exact congrArg List.head? waiting
  rw [List.take_add_one, oldest]
  rfl

/-- The oldest update answers the next request of the main loop, or none of them. -/
theorem answeredNumbers_receive (serves : state.Serves may asks fits) {source : Option Nat}
    {update : Update} {rest : List (Option Nat × Update)}
    (waiting : state.updates = (source, update) :: rest) :
    (∃ number request, source = some number ∧ state.accepted[number]? = some request ∧
        fits request update ∧
        answeredNumbers { state with received := state.received + 1 } =
          state.answeredNumbers ++ [number]) ∨
      answeredNumbers { state with received := state.received + 1 } = state.answeredNumbers ∧
        ∀ number, source = some number →
          ∃ request, state.accepted[number]? = some request ∧ request.inLoop = false ∧
            fits request update := by
  let received : Tasks := { state with received := state.received + 1 }
  have here := mem_sent_of_waiting waiting
  have answered : received.answeredNumbers = state.answeredNumbers ++
      source.toList.filter state.inLoopAt := by
    change ((state.sent.take (state.received + 1)).filterMap Prod.fst).filter state.inLoopAt = _
    rw [take_sent_succ waiting, List.filterMap_append, List.filter_append]
    cases source <;> rfl
  cases source with
  | none => exact .inr ⟨answered.trans (List.append_nil _), nofun⟩
  | some number =>
      rcases (serves.sent number update here).2 with ⟨request, accepted, fitting⟩
      have isLoop : state.inLoopAt number = request.inLoop := by
        rw [inLoopAt, accepted]
        rfl
      cases inLoop : request.inLoop with
      | true =>
          refine .inl ⟨number, request, rfl, accepted, fitting, answered.trans ?_⟩
          simp [isLoop, inLoop]
      | false =>
          refine .inr ⟨answered.trans (by simp [isLoop, inLoop]), ?_⟩
          rintro _ ⟨⟩
          exact ⟨request, accepted, inLoop, fitting⟩

/-- The oldest update answers the request at the front, or no request of the queue. -/
theorem outstandingRequests_receive (delivers : state.Delivers)
    (serves : state.Serves may asks fits) {source : Option Nat} {update : Update}
    {rest : List (Option Nat × Update)} (waiting : state.updates = (source, update) :: rest) :
    (∃ request, state.outstandingRequests =
        request :: outstandingRequests { state with received := state.received + 1 } ∧
        fits request update) ∨
      outstandingRequests { state with received := state.received + 1 } =
          state.outstandingRequests ∧
        ∀ number, source = some number →
          ∃ request, state.accepted[number]? = some request ∧ request.inLoop = false ∧
            fits request update := by
  let received : Tasks := { state with received := state.received + 1 }
  rcases answeredNumbers_receive serves waiting with
    ⟨number, request, _, accepted, fitting, now⟩ | ⟨same, apart⟩
  · left
    have front := received.prefix_answeredNumbers.trans (delivers.prefix_loopNumbers serves)
    rw [now] at front
    rcases front with ⟨later, numbers⟩
    refine ⟨request, ?_, fitting⟩
    change (state.loopNumbers.drop _).filterMap _ =
      request :: (state.loopNumbers.drop received.answeredNumbers.length).filterMap _
    rw [now, ← numbers, List.drop_left, List.append_assoc, List.drop_left]
    simp [accepted]
  · right
    refine ⟨?_, apart⟩
    change (state.loopNumbers.drop received.answeredNumbers.length).filterMap _ = _
    rw [same]
    rfl

/-- The requests of the main loop whose answers the UI has taken, in their order. -/
def handledRequests (state : Tasks) : List Request :=
  state.answeredNumbers.filterMap fun number => state.accepted[number]?

theorem handledRequests_of_grown (serves : state.Serves may asks fits)
    (grows : state.accepted <+: next.accepted)
    (sent : next.sent.take next.received = state.sent.take state.received) :
    next.handledRequests = state.handledRequests := by
  rw [handledRequests, answeredNumbers_of_grown serves grows sent, handledRequests]
  apply List.filterMap_congr
  intro number member
  have inside := lt_length_of_mem_answeredNumbers serves member
  rw [List.getElem?_eq_getElem inside, List.prefix_iff_getElem?.mp grows number inside]

/-- The requests of the main loop among the first so many. -/
theorem filterMap_inLoopAt (state : Tasks) (count : Nat) :
    ((List.range count).filter state.inLoopAt).filterMap (fun number => state.accepted[number]?) =
      (state.accepted.take count).filter Request.inLoop := by
  induction count with
  | zero => simp
  | succ count ih =>
      rw [List.range_succ, List.filter_append, List.filterMap_append, ih, List.take_add_one,
        List.filter_append]
      congr 1
      cases accepted : state.accepted[count]? with
      | none => simp [inLoopAt, accepted]
      | some request => cases inLoop : request.inLoop <;> simp [inLoopAt, accepted, inLoop]

/-- With the oldest update, everything that the main loop was asked for up to there has been
handled, or nothing more has. -/
theorem handledRequests_receive (delivers : state.Delivers)
    (serves : state.Serves may asks fits) {source : Option Nat} {update : Update}
    {rest : List (Option Nat × Update)} (waiting : state.updates = (source, update) :: rest) :
    (∃ number request, source = some number ∧ state.accepted[number]? = some request ∧
        fits request update ∧
        (state.accepted.take number).filter Request.inLoop = state.handledRequests ∧
        handledRequests { state with received := state.received + 1 } =
          state.handledRequests ++ [request]) ∨
      handledRequests { state with received := state.received + 1 } = state.handledRequests ∧
        ∀ number, source = some number →
          ∃ request, state.accepted[number]? = some request ∧ request.inLoop = false ∧
            fits request update := by
  let received : Tasks := { state with received := state.received + 1 }
  rcases answeredNumbers_receive serves waiting with
    ⟨number, request, isNumber, accepted, fitting, now⟩ | ⟨same, apart⟩
  · left
    have front := received.prefix_answeredNumbers.trans (delivers.prefix_loopNumbers serves)
    rw [now] at front
    have before : state.answeredNumbers = (List.range number).filter state.inLoopAt :=
      eq_filter_range_of_prefix front
    refine ⟨number, request, isNumber, accepted, fitting, ?_, ?_⟩
    · rw [handledRequests, before, filterMap_inLoopAt]
    · change received.answeredNumbers.filterMap _ = _
      rw [now, List.filterMap_append]
      exact congrArg _ (by simp [accepted])
  · right
    refine ⟨?_, apart⟩
    change received.answeredNumbers.filterMap _ = _
    rw [same]
    rfl

/-! ## Nothing else changes it -/

/-- What was asked for stays asked for. -/
theorem prefix_accepted (step : Step setting may state next) :
    state.accepted <+: next.accepted := by
  cases step with
  | accept request room => exact List.prefix_append _ _
  | read update room => exact List.prefix_rfl
  | drains drains => rw [accepted_of_drains drains]

/-- The UI has not taken more than was sent. -/
theorem received_le_of_step (inside : state.received ≤ state.sent.length)
    (step : Step setting may state next) : next.received ≤ next.sent.length := by
  have put (source : Option Nat) (update : Update) :
      state.received ≤ (state.sent ++ [(source, update)]).length := by
    rw [List.length_append]
    exact inside.trans (Nat.le_add_right _ _)
  cases step with
  | accept request room => exact inside
  | read update room => exact put none update
  | drains drains =>
      cases drains with
      | receive waiting => exact waiting
      | move move =>
          cases move with
          | take idle accepted =>
              rw [received_take, sent_take]
              exact inside
          | mainSends main room => exact put _ _
          | taskSends spawned room => exact put _ _
          | mainAsks | taskAsks | taskVanishes => exact inside

theorem received_le_of_reachable {lens : BullMqLens}
    (reachable : Reachable setting may lens state) : state.received ≤ state.sent.length := by
  induction reachable with
  | refl => exact Nat.le_refl 0
  | tail _ step ih => exact received_le_of_step ih step

theorem outstandingRequests_of_same (accepted : next.accepted = state.accepted)
    (sent : next.sent.take next.received = state.sent.take state.received) :
    next.outstandingRequests = state.outstandingRequests := by
  have inLoopAt : next.inLoopAt = state.inLoopAt := by
    funext number
    rw [Tasks.inLoopAt, accepted, Tasks.inLoopAt]
  simp only [outstandingRequests, loopNumbers, answeredNumbers, inLoopAt, accepted, sent]

theorem outstandingRequests_put (inside : state.received ≤ state.sent.length)
    (source : Option Nat) (update : Update) :
    (state.put source update).outstandingRequests = state.outstandingRequests :=
  outstandingRequests_of_same rfl (List.take_append_of_le_length inside)

theorem outstandingRequests_move (inside : state.received ≤ state.sent.length)
    (move : Move setting may state next) :
    next.outstandingRequests = state.outstandingRequests := by
  cases move with
  | take idle accepted =>
      apply outstandingRequests_of_same (accepted_take _)
      rw [received_take, sent_take]
  | mainSends main room => exact outstandingRequests_put inside _ _
  | taskSends spawned room => exact outstandingRequests_put inside _ _
  | mainAsks | taskAsks | taskVanishes => exact outstandingRequests_of_same rfl rfl

/-! ## It is empty when everything is answered -/

theorem Settled.outstandingRequests_eq (settled : state.Settled) :
    state.outstandingRequests = [] := by
  have everything : state.sent.take state.received = state.sent :=
    List.take_of_length_le (List.drop_eq_nil_iff.mp settled.delivered)
  have answered : state.answeredNumbers = state.answers.filter state.inLoopAt := by
    rw [answeredNumbers, everything, answers]
  have covers : state.loopNumbers ⊆ state.answeredNumbers := by
    intro number member
    have inLoop := mem_loopNumbers.mp member
    rw [answered]
    exact List.mem_filter.mpr ⟨settled.loop number inLoop, inLoopAt_iff.mpr inLoop⟩
  have nodup : state.loopNumbers.Nodup := state.pairwise_loopNumbers.imp Nat.ne_of_lt
  have short := (nodup.subperm covers).length_le
  rw [outstandingRequests, List.drop_eq_nil_of_le short]
  rfl

end Tasks

end Keylens.Backend
