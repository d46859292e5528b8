import Keylens.Backend.Tasks

/-!
# What the tasks guarantee together

Whatever each computation guarantees on its own, the tasks guarantee together, in
whatever order they move: what is asked is of a kind, and every update fits the
request that it answers.
-/

namespace Keylens.Backend

open Keylens.Library Keylens.Connection Keylens.BullMq Keylens.Ui

/-- What the computations for the requests guarantee: calls of a kind, and an update that
fits the request. -/
structure Guarantees (setting : Setting) (may : calls.Answers) (asks : Call → Prop)
    (fits : Request → Update → Prop) : Prop where
  handle : ∀ loop request work, Work.handle setting loop request = some work →
    work.Every may asks fun answer => fits request answer.2
  detail : ∀ key, (Work.detail setting.conn key).Every may asks (fits (.select key))
  stats : (Work.stats setting.info).Every may asks (fits .refreshInfo)

namespace Tasks

/-- The request of a number has been taken, and something holds of it. -/
def Took (state : Tasks) (number : Nat) (holds : Request → Prop) : Prop :=
  number < state.taken ∧ ∃ request, state.accepted[number]? = some request ∧ holds request

/-- What can be said of the tasks at any time. -/
structure Serves (may : calls.Answers) (asks : Call → Prop) (fits : Request → Update → Prop)
    (state : Tasks) : Prop where
  asked : ∀ call ∈ state.asked, asks call
  taken_le : state.taken ≤ state.accepted.length
  /-- The main loop is at the request that it took last. -/
  main : ∀ number work, state.main = some (number, work) → number + 1 = state.taken ∧
    state.Took number fun request =>
      request.inLoop ∧ work.Every may asks fun answer => fits request answer.2
  spawned : ∀ task ∈ state.spawned, state.Took task.number fun request =>
    request.inLoop = false ∧ ∀ work, task.left = some work → work.Every may asks (fits request)
  sent : ∀ number update, (some number, update) ∈ state.sent →
    state.Took number fun request => fits request update

variable {setting : Setting} {may : calls.Answers} {asks : Call → Prop}
variable {fits : Request → Update → Prop} {state next : Tasks}

/-! ## The more may be answered, the more can happen -/

theorem Move.mono {more : calls.Answers} (le : ∀ call answer, may call answer → more call answer)
    (move : Move setting may state next) : Move setting more state next := by
  cases move with
  | take idle accepted => exact .take idle accepted
  | mainAsks main told => exact .mainAsks main (le _ _ told)
  | mainSends main room => exact .mainSends main room
  | taskAsks spawned told => exact .taskAsks spawned (le _ _ told)
  | taskSends spawned room => exact .taskSends spawned room
  | taskVanishes spawned => exact .taskVanishes spawned

theorem Step.mono {more : calls.Answers} (le : ∀ call answer, may call answer → more call answer)
    (step : Step setting may state next) : Step setting more state next := by
  cases step with
  | accept request room => exact .accept request room
  | read update room => exact .read update room
  | drains drains =>
      cases drains with
      | move move => exact .drains (.move (move.mono le))
      | receive waiting => exact .drains (.receive waiting)

/-! ## Aborting a read -/

/-- Aborting a task takes nothing from it. -/
theorem mem_abortDetail {task : Task} (member : task ∈ state.abortDetail) :
    ∃ old ∈ state.spawned, task.number = old.number ∧ task.left = old.left := by
  rw [abortDetail] at member
  split at member
  next place _ =>
      rcases List.mem_iff_getElem?.mp member with ⟨i, found⟩
      rw [List.getElem?_modify] at found
      cases before : state.spawned[i]? with
      | none => simp [before] at found
      | some old =>
          refine ⟨old, List.mem_of_getElem? before, ?_⟩
          rw [before] at found
          cases found
          split <;> exact ⟨rfl, rfl⟩
  next => exact ⟨task, member, rfl, rfl⟩

/-! ## What a request starts -/

/-- Taking a request changes neither channel's history but how far it was taken. -/
structure KeepsHistory (before after : Tasks) : Prop where
  accepted : after.accepted = before.accepted
  taken : after.taken = before.taken + 1
  sent : after.sent = before.sent
  received : after.received = before.received

theorem keepsHistory_take (setting : Setting) (state : Tasks) (request : Request) :
    state.KeepsHistory (state.take setting request) := by
  cases request with
  | refreshInfo =>
      dsimp only [take]
      split
      next => exact ⟨rfl, rfl, rfl, rfl⟩
      next =>
          rw [spawnInfo]
          split <;> exact ⟨rfl, rfl, rfl, rfl⟩
  | _ => exact ⟨rfl, rfl, rfl, rfl⟩

@[simp] theorem accepted_take (request : Request) :
    (state.take setting request).accepted = state.accepted :=
  (keepsHistory_take setting state request).accepted

@[simp] theorem taken_take (request : Request) :
    (state.take setting request).taken = state.taken + 1 :=
  (keepsHistory_take setting state request).taken

@[simp] theorem sent_take (request : Request) :
    (state.take setting request).sent = state.sent :=
  (keepsHistory_take setting state request).sent

@[simp] theorem received_take (request : Request) :
    (state.take setting request).received = state.received :=
  (keepsHistory_take setting state request).received

theorem inLoop_of_handle {loop : Loop} {request : Request} {work : Work (Loop × Update)}
    (handled : Work.handle setting loop request = some work) : request.inLoop := by
  cases request <;> first | rfl | cases handled

theorem Took.imp {number : Nat} {holds other : Request → Prop} (took : state.Took number holds)
    (taken : state.taken ≤ next.taken) (accepted : state.accepted <+: next.accepted)
    (implies : ∀ request, holds request → other request) : next.Took number other := by
  rcases took with ⟨lt, request, found, known⟩
  rcases List.getElem?_eq_some_iff.mp found with ⟨inside, rfl⟩
  have found := List.prefix_iff_getElem?.mp accepted number inside
  exact ⟨lt.trans_le taken, _, found, implies _ known⟩

/-- A task is spawned behind the others. -/
theorem Serves.spawn (serves : state.Serves may asks fits) {request : Request}
    {work : Work Update} (accepted : state.accepted[state.taken]? = some request)
    (apart : request.inLoop = false) (every : work.Every may asks (fits request))
    {tasks : List Task} (same : next.accepted = state.accepted)
    (taken : next.taken = state.taken + 1)
    (old : ∀ task ∈ tasks, ∃ other ∈ state.spawned,
      task.number = other.number ∧ task.left = other.left) :
    ∀ task ∈ tasks ++ [{ number := state.taken, left := some work }],
      next.Took task.number fun request => request.inLoop = false ∧
        ∀ work, task.left = some work → work.Every may asks (fits request) := by
  intro task member
  rcases List.mem_append.mp member with before | new
  · rcases old task before with ⟨other, among, number, left⟩
    rw [number, left]
    have taken_le : state.taken ≤ next.taken := taken ▸ Nat.le_succ _
    exact (serves.spawned other among).imp taken_le (by rw [same]) fun _ known => known
  · rw [List.mem_singleton.mp new]
    have lt : state.taken < next.taken := taken ▸ Nat.lt_succ_self _
    refine ⟨lt, request, by rwa [same], apart, ?_⟩
    rintro _ ⟨⟩
    exact every

theorem Serves.turnTo (serves : state.Serves may asks fits)
    (guarantees : Guarantees setting may asks fits) {request : Request} {number : Nat}
    (last : number + 1 = state.taken) (accepted : state.accepted[number]? = some request) :
    (state.turnTo setting number request).Serves may asks fits := by
  refine ⟨serves.asked, serves.taken_le, ?_, serves.spawned, serves.sent⟩
  intro other work main
  rcases Option.map_eq_some_iff.mp main with ⟨work', handled, same⟩
  cases same
  have lt : number < state.taken := last ▸ Nat.lt_succ_self _
  exact ⟨last, lt, request, accepted, inLoop_of_handle handled, guarantees.handle _ _ _ handled⟩

theorem Serves.take (serves : state.Serves may asks fits)
    (guarantees : Guarantees setting may asks fits) {request : Request} (idle : state.main = none)
    (accepted : state.accepted[state.taken]? = some request) :
    (state.take setting request).Serves may asks fits := by
  let taking : Tasks := { state with taken := state.taken + 1 }
  have taken_le : taking.taken ≤ taking.accepted.length :=
    (List.getElem?_eq_some_iff.mp accepted).1
  have sent (number : Nat) (update : Update) (member : (some number, update) ∈ state.sent) :
      taking.Took number fun request => fits request update :=
    (serves.sent number update member).imp (Nat.le_succ _) List.prefix_rfl fun _ known => known
  have noMain : ∀ number work, state.main = some (number, work) → False :=
    fun _ _ main => nomatch idle.symm.trans main
  have kept : taking.Serves may asks fits := by
    refine ⟨serves.asked, taken_le, fun number work main => (noMain number work main).elim, ?_,
      sent⟩
    exact fun task member => (serves.spawned task member).imp (Nat.le_succ _) List.prefix_rfl
      fun _ known => known
  cases request with
  | select key =>
      refine ⟨kept.asked, taken_le, kept.main, ?_, sent⟩
      exact serves.spawn accepted rfl (guarantees.detail key) rfl rfl fun _ => mem_abortDetail
  | refreshInfo =>
      dsimp only [Tasks.take]
      split
      next => exact kept
      next =>
          rw [spawnInfo]
          split
          next => exact kept
          next =>
              refine ⟨kept.asked, taken_le, kept.main, ?_, sent⟩
              exact serves.spawn accepted rfl guarantees.stats rfl rfl fun task member =>
                ⟨task, member, rfl, rfl⟩
  | _ => exact kept.turnTo guarantees rfl accepted

/-! ## Every step -/

/-- One more call of a kind. -/
theorem Serves.mem_asked (serves : state.Serves may asks fits) {call : Call} (asking : asks call) :
    ∀ other ∈ state.asked ++ [call], asks other := by
  intro other member
  rcases List.mem_append.mp member with before | new
  · exact serves.asked other before
  · rwa [List.mem_singleton.mp new]

/-- One more update that fits. -/
theorem Serves.mem_sent (serves : state.Serves may asks fits) {source : Option Nat}
    {update : Update}
    (fitting : ∀ number, source = some number →
      state.Took number fun request => fits request update) :
    ∀ number other, (some number, other) ∈ state.sent ++ [(source, update)] →
      state.Took number fun request => fits request other := by
  intro number other member
  rcases List.mem_append.mp member with before | new
  · exact serves.sent number other before
  · cases List.mem_singleton.mp new
    exact fitting number rfl

/-- What is left of one task is as good as what was left of it before. -/
theorem Serves.mem_spawned (serves : state.Serves may asks fits) {front back : List Task}
    {before : Task} (after : Task) (spawned : state.spawned = front ++ before :: back)
    (same : after.number = before.number)
    (left : ∀ request, (∀ work, before.left = some work → work.Every may asks (fits request)) →
      ∀ work, after.left = some work → work.Every may asks (fits request)) :
    ∀ task ∈ front ++ after :: back, state.Took task.number fun request =>
      request.inLoop = false ∧
        ∀ work, task.left = some work → work.Every may asks (fits request) := by
  intro task member
  rcases List.mem_append.mp member with inFront | here
  · exact serves.spawned task (by simp [spawned, inFront])
  · rcases List.mem_cons.mp here with rfl | inBack
    · rw [same]
      exact (serves.spawned before (by simp [spawned])).imp le_rfl List.prefix_rfl
        fun request => And.imp_right (left request)
    · exact serves.spawned task (by simp [spawned, inBack])

theorem Serves.move (serves : state.Serves may asks fits)
    (guarantees : Guarantees setting may asks fits) (move : Move setting may state next) :
    next.Serves may asks fits := by
  cases move with
  | take idle accepted => exact serves.take guarantees idle accepted
  | mainAsks main told =>
      rcases serves.main _ _ main with ⟨last, lt, request, accepted, inLoop, asking, later⟩
      refine ⟨serves.mem_asked asking, serves.taken_le, ?_, serves.spawned, serves.sent⟩
      rintro _ _ ⟨⟩
      exact ⟨last, lt, request, accepted, inLoop, later _ told⟩
  | mainSends main room =>
      rcases serves.main _ _ main with ⟨last, lt, request, accepted, inLoop, fitting⟩
      refine ⟨serves.asked, serves.taken_le, nofun, serves.spawned, serves.mem_sent ?_⟩
      rintro _ ⟨⟩
      exact ⟨lt, request, accepted, fitting⟩
  | @taskAsks front back number aborted call rest answer spawned told =>
      rcases serves.spawned _ (spawned ▸ List.mem_append_right _ List.mem_cons_self) with
        ⟨lt, request, accepted, apart, every⟩
      refine ⟨serves.mem_asked (every _ rfl).1, serves.taken_le, serves.main, ?_, serves.sent⟩
      apply serves.mem_spawned ⟨number, some (rest answer), aborted⟩ spawned rfl
      rintro request before _ ⟨⟩
      exact (before _ rfl).2 _ told
  | @taskSends front back number aborted update spawned room =>
      rcases serves.spawned _ (spawned ▸ List.mem_append_right _ List.mem_cons_self) with
        ⟨lt, request, accepted, apart, every⟩
      refine ⟨serves.asked, serves.taken_le, serves.main, ?_, serves.mem_sent ?_⟩
      · exact serves.mem_spawned ⟨number, none, aborted⟩ spawned rfl fun _ _ => nofun
      · rintro _ ⟨⟩
        exact ⟨lt, request, accepted, every _ rfl⟩
  | @taskVanishes front back number work spawned =>
      refine ⟨serves.asked, serves.taken_le, serves.main, ?_, serves.sent⟩
      exact serves.mem_spawned ⟨number, none, true⟩ spawned rfl fun _ _ => nofun

theorem Serves.step (serves : state.Serves may asks fits)
    (guarantees : Guarantees setting may asks fits) (step : Step setting may state next) :
    next.Serves may asks fits := by
  cases step with
  | drains drains =>
      cases drains with
      | move move => exact serves.move guarantees move
      | receive waiting =>
          exact ⟨serves.asked, serves.taken_le, serves.main, serves.spawned, serves.sent⟩
  | accept request room =>
      have grows : state.accepted <+: state.accepted ++ [request] := List.prefix_append _ _
      have took {number : Nat} {holds : Request → Prop} (took : state.Took number holds) :
          Took { state with accepted := state.accepted ++ [request] } number holds :=
        took.imp le_rfl grows fun _ known => known
      refine ⟨serves.asked, serves.taken_le.trans grows.length_le, ?_, ?_, ?_⟩
      · exact fun number work main => (serves.main number work main).imp_right took
      · exact fun task member => took (serves.spawned task member)
      · exact fun number update member => took (serves.sent number update member)
  | read update room =>
      exact ⟨serves.asked, serves.taken_le, serves.main, serves.spawned, serves.mem_sent nofun⟩

theorem serves_of_reachable {lens : BullMqLens} (guarantees : Guarantees setting may asks fits)
    (reachable : Reachable setting may lens state) : state.Serves may asks fits := by
  induction reachable with
  | refl =>
      exact ⟨nofun, Nat.le_refl 0, nofun, nofun, fun _ _ member => absurd member List.not_mem_nil⟩
  | tail _ step ih => exact ih.step guarantees step

end Tasks

end Keylens.Backend
