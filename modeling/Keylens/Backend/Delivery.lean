import Keylens.Backend.Service

/-!
# Which requests are answered

No request is answered twice.  The main loop answers every request that it takes, one
after the other, and no read that was asked for behind a request of the main loop gets
ahead of its answer.  Reads that were cancelled may stay without an answer; the one asked
for last does not.
-/

namespace Keylens.Backend

open Keylens.Library Keylens.Connection Keylens.BullMq Keylens.Ui

namespace Tasks

/-- The numbers of the requests that have been answered, in the order of the updates. -/
def answers (state : Tasks) : List Nat :=
  state.sent.filterMap Prod.fst

/-- The main loop answers the request of a number. -/
def InLoop (state : Tasks) (number : Nat) : Prop :=
  ∃ request, state.accepted[number]? = some request ∧ request.inLoop

/-- The request of a number is a `Select`. -/
def Selects (state : Tasks) (number : Nat) : Prop :=
  ∃ key, state.accepted[number]? = some (.select key)

/-- Of the requests that have been taken, this is the last `Select`. -/
structure LastSelect (state : Tasks) (number : Nat) : Prop where
  taken : number < state.taken
  selects : state.Selects number
  last : ∀ later, number < later → later < state.taken → ¬state.Selects later

/-- The task that reads the key asked for last: it is under way or has answered. -/
structure Current (state : Tasks) (number : Nat) (place : Nat) (task : Task) : Prop where
  detail : state.detail = some place
  spawned : state.spawned[place]? = some task
  number_eq : task.number = number
  goesOn : task.aborted = false
  answered : task.left = none → number ∈ state.answers

/-- What can be said of the answers at any time. -/
structure Delivers (state : Tasks) : Prop where
  once : state.answers.Nodup
  mainOpen : ∀ number work, state.main = some (number, work) → number ∉ state.answers
  spawnedOpen : ∀ task ∈ state.spawned, task.left.isSome → task.number ∉ state.answers
  increasing : (state.spawned.map Task.number).Pairwise (· < ·)
  inOrder : state.answers.Pairwise fun earlier later => state.InLoop later → earlier < later
  complete : ∀ number < state.taken, state.InLoop number →
    number ∈ state.answers ∨ ∃ work, state.main = some (number, work)
  current : ∀ number, state.LastSelect number → ∃ place task, state.Current number place task

variable {setting : Setting} {may : calls.Answers} {asks : Call → Prop}
variable {fits : Request → Update → Prop} {state next : Tasks}

@[simp] theorem answers_put (source : Option Nat) (update : Update) :
    (state.put source update).answers = state.answers ++ source.toList := by
  cases source <;> simp [answers, put]

theorem lt_taken_of_mem_answers (serves : state.Serves may asks fits) {number : Nat}
    (member : number ∈ state.answers) : number < state.taken := by
  rcases List.mem_filterMap.mp member with ⟨⟨source, update⟩, sent, rfl⟩
  exact (serves.sent number update sent).1

/-! ## Aborting a read -/

theorem map_number_abortDetail : state.abortDetail.map Task.number =
    state.spawned.map Task.number := by
  rw [abortDetail]
  split
  next place _ =>
      apply List.ext_getElem?
      intro i
      rw [List.getElem?_map, List.getElem?_map, List.getElem?_modify]
      cases state.spawned[i]? with
      | none => rfl
      | some task =>
          dsimp only [Option.map_some]
          split <;> rfl
  next => rfl

theorem length_abortDetail : state.abortDetail.length = state.spawned.length := by
  simpa using congrArg List.length state.map_number_abortDetail

/-! ## Taking a request -/

variable {request : Request}

theorem inLoop_iff_of_accepted {number : Nat} (accepted : state.accepted[number]? = some request) :
    state.InLoop number ↔ request.inLoop := by
  constructor
  · rintro ⟨other, found, inLoop⟩
    rwa [Option.some.inj (accepted.symm.trans found)]
  · exact fun inLoop => ⟨request, accepted, inLoop⟩

theorem selects_iff_of_accepted {number : Nat}
    (accepted : state.accepted[number]? = some request) :
    state.Selects number ↔ ∃ key, request = .select key := by
  constructor
  · rintro ⟨key, found⟩
    exact ⟨key, Option.some.inj (accepted.symm.trans found)⟩
  · rintro ⟨key, rfl⟩
    exact ⟨key, accepted⟩

/-- Without a newer `Select` the last one stays the last. -/
theorem lastSelect_of_take (accepted : state.accepted[state.taken]? = some request)
    (apart : ∀ key, request ≠ .select key) {number : Nat}
    (last : LastSelect { state with taken := state.taken + 1 } number) :
    state.LastSelect number := by
  have other : number ≠ state.taken := by
    rintro rfl
    rcases (selects_iff_of_accepted accepted).mp last.selects with ⟨key, same⟩
    exact apart key same
  have taken : number < state.taken + 1 := last.taken
  refine ⟨by omega, last.selects, ?_⟩
  exact fun later lt taken => last.last later lt (Nat.lt_succ_of_lt taken)

theorem Current.append {number place : Nat} {task : Task}
    (current : state.Current number place task) (tasks : List Task) :
    Current { state with spawned := state.spawned ++ tasks } number place task := by
  refine ⟨current.detail, ?_, current.number_eq, current.goesOn, current.answered⟩
  rw [List.getElem?_append_left (List.getElem?_eq_some_iff.mp current.spawned).1]
  exact current.spawned

theorem not_mem_answers_taken (serves : state.Serves may asks fits) :
    state.taken ∉ state.answers :=
  fun member => (lt_taken_of_mem_answers serves member).false

/-- The numbers of the tasks still increase when one is spawned behind them. -/
theorem Delivers.increasing_spawn (delivers : state.Delivers) (serves : state.Serves may asks fits)
    {tasks : List Task} (same : tasks.map Task.number = state.spawned.map Task.number)
    (work : Option (Work Update)) :
    ((tasks ++ [({ number := state.taken, left := work } : Task)]).map Task.number).Pairwise
      (· < ·) := by
  rw [List.map_append, same, List.pairwise_append]
  refine ⟨delivers.increasing, List.pairwise_singleton _ _, ?_⟩
  intro number member other new
  rcases List.mem_map.mp member with ⟨task, among, rfl⟩
  rw [List.mem_singleton.mp new]
  exact (serves.spawned task among).1

theorem Delivers.spawnedOpen_spawn (delivers : state.Delivers)
    (serves : state.Serves may asks fits) {tasks : List Task} {work : Option (Work Update)}
    (old : ∀ task ∈ tasks, ∃ other ∈ state.spawned,
      task.number = other.number ∧ task.left = other.left) :
    ∀ task ∈ tasks ++ [{ number := state.taken, left := work }], task.left.isSome →
      task.number ∉ state.answers := by
  intro task member goesOn
  rcases List.mem_append.mp member with before | new
  · rcases old task before with ⟨other, among, number, left⟩
    rw [number]
    exact delivers.spawnedOpen other among (by rwa [← left])
  · rw [List.mem_singleton.mp new]
    exact not_mem_answers_taken serves

/-- Taking a request that is for a task leaves nothing of the main loop open. -/
theorem Delivers.complete_take (delivers : state.Delivers)
    (accepted : state.accepted[state.taken]? = some request) (apart : request.inLoop = false) :
    ∀ number < state.taken + 1, state.InLoop number →
      number ∈ state.answers ∨ ∃ work, state.main = some (number, work) := by
  intro number lt inLoop
  rcases Nat.lt_succ_iff_lt_or_eq.mp lt with before | rfl
  · exact delivers.complete number before inLoop
  · rw [inLoop_iff_of_accepted accepted, apart] at inLoop
    cases inLoop

theorem Delivers.take_select (delivers : state.Delivers) (serves : state.Serves may asks fits)
    {key : Str} (accepted : state.accepted[state.taken]? = some (.select key)) :
    (state.take setting (.select key)).Delivers := by
  refine ⟨delivers.once, delivers.mainOpen, ?_, ?_, delivers.inOrder,
    delivers.complete_take accepted rfl, ?_⟩
  · exact delivers.spawnedOpen_spawn serves fun _ => mem_abortDetail
  · exact delivers.increasing_spawn serves map_number_abortDetail _
  · intro number last
    have newest : number = state.taken := by
      by_contra other
      have taken : number < state.taken + 1 := last.taken
      exact last.last state.taken (by omega) (Nat.lt_succ_self _) ⟨key, accepted⟩
    refine ⟨_, { number := state.taken, left := some (Work.detail setting.conn key) }, rfl, ?_,
      newest.symm, rfl, nofun⟩
    change (state.abortDetail ++ [_])[state.spawned.length]? = _
    rw [← length_abortDetail, List.getElem?_concat_length]

theorem Delivers.take_refreshInfo (delivers : state.Delivers)
    (serves : state.Serves may asks fits)
    (accepted : state.accepted[state.taken]? = some .refreshInfo) :
    (state.take setting .refreshInfo).Delivers := by
  have kept : Delivers { state with taken := state.taken + 1 } := by
    refine ⟨delivers.once, delivers.mainOpen, delivers.spawnedOpen, delivers.increasing,
      delivers.inOrder, delivers.complete_take accepted rfl, ?_⟩
    intro number last
    rcases delivers.current number (lastSelect_of_take accepted nofun last) with
      ⟨place, task, detail, spawned, same, goesOn, answered⟩
    exact ⟨place, task, detail, spawned, same, goesOn, answered⟩
  dsimp only [Tasks.take]
  split
  next => exact kept
  next =>
      rw [spawnInfo]
      split
      next => exact kept
      next =>
          refine ⟨kept.once, kept.mainOpen, ?_, ?_, kept.inOrder, kept.complete, ?_⟩
          · exact delivers.spawnedOpen_spawn serves fun task member => ⟨task, member, rfl, rfl⟩
          · exact delivers.increasing_spawn serves rfl _
          · intro number last
            have before : LastSelect { state with taken := state.taken + 1 } number :=
              ⟨last.taken, last.selects, last.last⟩
            rcases kept.current number before with ⟨place, task, current⟩
            rcases current.append
                [{ number := state.taken, left := some (Work.stats setting.info) }] with
              ⟨detail, spawned, same, goesOn, answered⟩
            exact ⟨place, task, detail, spawned, same, goesOn, answered⟩

theorem exists_handle (setting : Setting) (loop : Loop) {request : Request}
    (inLoop : request.inLoop) : ∃ work, Work.handle setting loop request = some work := by
  cases request <;> first | exact ⟨_, rfl⟩ | cases inLoop

theorem Delivers.take_inLoop (delivers : state.Delivers) (serves : state.Serves may asks fits)
    (idle : state.main = none) (accepted : state.accepted[state.taken]? = some request)
    (inLoop : request.inLoop) :
    (turnTo setting { state with taken := state.taken + 1 } state.taken request).Delivers := by
  rcases exists_handle setting state.loop inLoop with ⟨work, handled⟩
  have main : (turnTo setting { state with taken := state.taken + 1 } state.taken request).main =
      some (state.taken, work) := by
    rw [turnTo, handled]
    rfl
  refine ⟨delivers.once, ?_, delivers.spawnedOpen, delivers.increasing, delivers.inOrder, ?_, ?_⟩
  · intro number other atWork
    cases main.symm.trans atWork
    exact not_mem_answers_taken serves
  · intro number lt isInLoop
    rcases Nat.lt_succ_iff_lt_or_eq.mp lt with before | rfl
    · rcases delivers.complete number before isInLoop with answered | ⟨work, atWork⟩
      · exact .inl answered
      · cases idle.symm.trans atWork
    · exact .inr ⟨work, main⟩
  · intro number last
    have apart : ∀ key, request ≠ .select key := by
      rintro key rfl
      cases inLoop
    have before : state.LastSelect number :=
      lastSelect_of_take accepted apart ⟨last.taken, last.selects, last.last⟩
    rcases delivers.current number before with
      ⟨place, task, detail, spawned, same, goesOn, answered⟩
    exact ⟨place, task, detail, spawned, same, goesOn, answered⟩

/-! ## Every step -/

/-- The task that reads the key asked for last stays what it is when requests and tasks
do. -/
theorem Delivers.current_of (delivers : state.Delivers) (accepted : next.accepted = state.accepted)
    (taken : next.taken = state.taken) (detail : next.detail = state.detail)
    (spawned : next.spawned = state.spawned) (answers : state.answers ⊆ next.answers) :
    ∀ number, next.LastSelect number → ∃ place task, next.Current number place task := by
  intro number last
  have selects (other : Nat) : next.Selects other ↔ state.Selects other := by
    rw [Selects, Selects, accepted]
  have before : state.LastSelect number := by
    refine ⟨taken ▸ last.taken, (selects number).mp last.selects, ?_⟩
    exact fun later lt inTaken isSelect =>
      last.last later lt (taken ▸ inTaken) ((selects later).mpr isSelect)
  rcases delivers.current number before with ⟨place, task, current⟩
  exact ⟨place, task, detail.trans current.detail, spawned ▸ current.spawned, current.number_eq,
    current.goesOn, fun finished => answers (current.answered finished)⟩

/-- A request of the main loop is no other task's. -/
theorem ne_of_inLoop {number other : Nat} (inLoop : state.InLoop number)
    (apart : ¬state.InLoop other) : number ≠ other :=
  fun same => apart (same ▸ inLoop)

theorem Serves.inLoop_main (serves : state.Serves may asks fits) {number : Nat}
    {work : Work (Loop × Update)} (main : state.main = some (number, work)) :
    state.InLoop number := by
  rcases serves.main number work main with ⟨_, _, request, accepted, inLoop, _⟩
  exact ⟨request, accepted, inLoop⟩

theorem Serves.not_inLoop_spawned (serves : state.Serves may asks fits) {task : Task}
    (member : task ∈ state.spawned) : ¬state.InLoop task.number := by
  rcases serves.spawned task member with ⟨_, request, accepted, apart, _⟩
  rw [inLoop_iff_of_accepted accepted, apart]
  exact Bool.false_ne_true

/-- One more answer, to a request that was still open. -/
theorem nodup_concat {numbers : List Nat} (nodup : numbers.Nodup) {number : Nat}
    (fresh : number ∉ numbers) : (numbers ++ [number]).Nodup :=
  List.nodup_append.mpr ⟨nodup, List.nodup_singleton number, fun _ member _ new same =>
    fresh (List.mem_singleton.mp new ▸ same ▸ member)⟩

theorem Delivers.mainSends (delivers : state.Delivers) (serves : state.Serves may asks fits)
    {number : Nat} {loop : Loop} {update : Update}
    (main : state.main = some (number, .done (loop, update))) :
    Delivers { state.put (some number) update with loop, main := none } := by
  have answers : answers { state.put (some number) update with loop, main := none } =
      state.answers ++ [number] := state.answers_put (some number) update
  have inLoop := serves.inLoop_main main
  constructor
  · rw [answers]
    exact nodup_concat delivers.once (delivers.mainOpen _ _ main)
  · exact nofun
  · intro task member goesOn answered
    rw [answers] at answered
    rcases List.mem_append.mp answered with before | now
    · exact delivers.spawnedOpen task member goesOn before
    · apply serves.not_inLoop_spawned member
      rwa [List.mem_singleton.mp now]
  · exact delivers.increasing
  · rw [answers, List.pairwise_append]
    refine ⟨delivers.inOrder, List.pairwise_singleton _ _, ?_⟩
    intro earlier before later now _
    rw [List.mem_singleton.mp now]
    have taken := lt_taken_of_mem_answers serves before
    have last := (serves.main _ _ main).1
    have other : earlier ≠ number := fun same =>
      delivers.mainOpen _ _ main (same ▸ before)
    omega
  · intro other lt isInLoop
    left
    rw [answers]
    rcases delivers.complete other lt isInLoop with before | ⟨work, atWork⟩
    · exact List.mem_append_left _ before
    · cases main.symm.trans atWork
      exact List.mem_append_right _ (List.mem_singleton_self _)
  · refine delivers.current_of rfl rfl rfl rfl ?_
    rw [answers]
    exact List.subset_append_left _ _

/-- The tasks before and after one of them has moved. -/
theorem getElem?_moved {front back : List Task} {before : Task} (after : Task) {place : Nat}
    {task : Task} (found : (front ++ before :: back)[place]? = some task) :
    place ≠ front.length ∧ (front ++ after :: back)[place]? = some task ∨
      task = before ∧ (front ++ after :: back)[place]? = some after := by
  rcases Nat.lt_trichotomy place front.length with inFront | here | inBack
  · left
    rw [List.getElem?_append_left inFront] at found ⊢
    exact ⟨inFront.ne, found⟩
  · right
    subst here
    rw [List.getElem?_append_right le_rfl, Nat.sub_self] at found ⊢
    exact ⟨(Option.some.inj found).symm, rfl⟩
  · left
    rcases Nat.exists_eq_add_of_lt inBack with ⟨more, rfl⟩
    rw [List.getElem?_append_right (by omega)] at found ⊢
    have index : front.length + more + 1 - front.length = more + 1 := by omega
    rw [index, List.getElem?_cons_succ] at found ⊢
    exact ⟨by omega, found⟩

section Moved

variable {front back : List Task} {before after : Task}

theorem Delivers.increasing_moved (delivers : state.Delivers)
    (spawned : state.spawned = front ++ before :: back) (same : after.number = before.number) :
    ((front ++ after :: back).map Task.number).Pairwise (· < ·) := by
  have numbers : (front ++ after :: back).map Task.number = state.spawned.map Task.number := by
    simp [spawned, same]
  rw [numbers]
  exact delivers.increasing

/-- The other tasks have other numbers. -/
theorem Delivers.number_ne (delivers : state.Delivers)
    (spawned : state.spawned = front ++ before :: back) {task : Task}
    (member : task ∈ front ∨ task ∈ back) : task.number ≠ before.number := by
  have increasing := delivers.increasing
  rw [spawned, List.map_append, List.map_cons, List.pairwise_append, List.pairwise_cons]
    at increasing
  rcases increasing with ⟨_, ⟨below, _⟩, across⟩
  rcases member with inFront | inBack
  · exact (across _ (List.mem_map_of_mem inFront) _ List.mem_cons_self).ne
  · exact (below _ (List.mem_map_of_mem inBack)).ne'

/-- What is left of one task is less, and nothing is answered: a call was, or the task
has noticed that it was aborted. -/
theorem Delivers.taskKeeps (delivers : state.Delivers)
    (spawned : state.spawned = front ++ before :: back) (after : Task)
    (same : after.number = before.number) (running : before.left.isSome)
    (goesOn : after.aborted = before.aborted)
    (left : after.left.isSome ∨ after.aborted) (asked : List Call) :
    Delivers { state with spawned := front ++ after :: back, asked } := by
  refine ⟨delivers.once, delivers.mainOpen, ?_, delivers.increasing_moved spawned same,
    delivers.inOrder, delivers.complete, ?_⟩
  · intro task member stillRunning
    rcases List.mem_append.mp member with inFront | here
    · exact delivers.spawnedOpen task (by simp [spawned, inFront]) stillRunning
    · rcases List.mem_cons.mp here with rfl | inBack
      · rw [same]
        exact delivers.spawnedOpen before (by simp [spawned]) running
      · exact delivers.spawnedOpen task (by simp [spawned, inBack]) stillRunning
  · intro number last
    rcases delivers.current number ⟨last.taken, last.selects, last.last⟩ with
      ⟨place, task, current⟩
    have found := current.spawned
    rw [spawned] at found
    rcases getElem?_moved after found with ⟨_, stays⟩ | ⟨rfl, moved⟩
    · exact ⟨place, task, current.detail, stays, current.number_eq, current.goesOn,
        current.answered⟩
    · refine ⟨place, after, current.detail, moved, same.trans current.number_eq,
        goesOn.trans current.goesOn, ?_⟩
      intro finished
      rw [finished, goesOn, current.goesOn] at left
      rcases left with running | aborted
      · cases running
      · cases aborted

theorem Delivers.taskSends (delivers : state.Delivers) (serves : state.Serves may asks fits)
    {update : Update} (spawned : state.spawned = front ++ before :: back) (after : Task)
    (same : after.number = before.number) (running : before.left.isSome)
    (goesOn : after.aborted = before.aborted) (finished : after.left = none) :
    Delivers { state.put (some before.number) update with spawned := front ++ after :: back } := by
  have answers : answers
      { state.put (some before.number) update with spawned := front ++ after :: back } =
      state.answers ++ [before.number] := state.answers_put (some before.number) update
  have member : before ∈ state.spawned := by simp [spawned]
  have apart := serves.not_inLoop_spawned member
  constructor
  · rw [answers]
    exact nodup_concat delivers.once (delivers.spawnedOpen before member running)
  · intro number work main answered
    rw [answers] at answered
    rcases List.mem_append.mp answered with earlier | now
    · exact delivers.mainOpen number work main earlier
    · exact ne_of_inLoop (serves.inLoop_main main) apart (List.mem_singleton.mp now)
  · intro task isTask stillRunning answered
    have other : task ∈ front ∨ task ∈ back := by
      rcases List.mem_append.mp isTask with inFront | here
      · exact .inl inFront
      · rcases List.mem_cons.mp here with rfl | inBack
        · rw [finished] at stillRunning
          cases stillRunning
        · exact .inr inBack
    rw [answers] at answered
    rcases List.mem_append.mp answered with earlier | now
    · refine delivers.spawnedOpen task ?_ stillRunning earlier
      rw [spawned]
      rcases other with inFront | inBack <;> simp [*]
    · exact delivers.number_ne spawned other (List.mem_singleton.mp now)
  · exact delivers.increasing_moved spawned same
  · rw [answers, List.pairwise_append]
    refine ⟨delivers.inOrder, List.pairwise_singleton _ _, ?_⟩
    intro earlier _ later now inLoop
    rw [List.mem_singleton.mp now] at inLoop
    exact absurd inLoop apart
  · intro number lt inLoop
    rw [answers]
    exact (delivers.complete number lt inLoop).imp_left (List.mem_append_left _)
  · intro number last
    rcases delivers.current number ⟨last.taken, last.selects, last.last⟩ with
      ⟨place, task, current⟩
    have found := current.spawned
    rw [spawned] at found
    rcases getElem?_moved after found with ⟨_, stays⟩ | ⟨rfl, moved⟩
    · refine ⟨place, task, current.detail, stays, current.number_eq, current.goesOn, ?_⟩
      intro ended
      rw [answers]
      exact List.mem_append_left _ (current.answered ended)
    · refine ⟨place, after, current.detail, moved, same.trans current.number_eq,
        goesOn.trans current.goesOn, ?_⟩
      intro _
      rw [answers, current.number_eq]
      exact List.mem_append_right _ (List.mem_singleton_self _)

end Moved

theorem Delivers.move (delivers : state.Delivers) (serves : state.Serves may asks fits)
    (move : Move setting may state next) : next.Delivers := by
  cases move with
  | @take request idle accepted =>
      cases request with
      | select key => exact delivers.take_select serves accepted
      | refreshInfo => exact delivers.take_refreshInfo serves accepted
      | _ => exact delivers.take_inLoop serves idle accepted rfl
  | mainAsks main told =>
      refine ⟨delivers.once, ?_, delivers.spawnedOpen, delivers.increasing, delivers.inOrder, ?_,
        delivers.current_of rfl rfl rfl rfl (List.Subset.refl _)⟩
      · rintro _ _ ⟨⟩
        exact delivers.mainOpen _ _ main
      · intro other lt inLoop
        rcases delivers.complete other lt inLoop with before | ⟨work, atWork⟩
        · exact .inl before
        · cases main.symm.trans atWork
          exact .inr ⟨_, rfl⟩
  | mainSends main room => exact delivers.mainSends serves main
  | @taskAsks front back number aborted call rest answer spawned told =>
      exact delivers.taskKeeps spawned ⟨number, some (rest answer), aborted⟩ rfl rfl rfl
        (.inl rfl) _
  | @taskSends front back number aborted update spawned room =>
      exact delivers.taskSends serves spawned ⟨number, none, aborted⟩ rfl rfl rfl rfl
  | @taskVanishes front back number work spawned =>
      exact delivers.taskKeeps spawned ⟨number, none, true⟩ rfl rfl rfl (.inr rfl) _

theorem Delivers.step (delivers : state.Delivers) (serves : state.Serves may asks fits)
    (step : Step setting may state next) : next.Delivers := by
  cases step with
  | drains drains =>
      cases drains with
      | move move => exact delivers.move serves move
      | receive waiting =>
          exact ⟨delivers.once, delivers.mainOpen, delivers.spawnedOpen, delivers.increasing,
            delivers.inOrder, delivers.complete,
            delivers.current_of rfl rfl rfl rfl (List.Subset.refl _)⟩
  | accept request room =>
      let grown : Tasks := { state with accepted := state.accepted ++ [request] }
      have same {number : Nat} (lt : number < state.taken) :
          grown.accepted[number]? = state.accepted[number]? :=
        List.getElem?_append_left (lt.trans_le serves.taken_le)
      have inLoop {number : Nat} (lt : number < state.taken) :
          grown.InLoop number ↔ state.InLoop number := by
        rw [InLoop, same lt, InLoop]
      have selects {number : Nat} (lt : number < state.taken) :
          grown.Selects number ↔ state.Selects number := by
        rw [Selects, same lt, Selects]
      refine ⟨delivers.once, delivers.mainOpen, delivers.spawnedOpen, delivers.increasing, ?_, ?_,
        ?_⟩
      · apply delivers.inOrder.imp_of_mem
        intro earlier later _ member before isInLoop
        exact before ((inLoop (lt_taken_of_mem_answers serves member)).mp isInLoop)
      · exact fun number lt isInLoop => delivers.complete number lt ((inLoop lt).mp isInLoop)
      · intro number last
        have before : state.LastSelect number := by
          refine ⟨last.taken, (selects last.taken).mp last.selects, ?_⟩
          exact fun later lt taken isSelect =>
            last.last later lt taken ((selects taken).mpr isSelect)
        rcases delivers.current number before with ⟨place, task, current⟩
        exact ⟨place, task, current.detail, current.spawned, current.number_eq, current.goesOn,
          current.answered⟩
  | read update room =>
      have answers : (state.put none update).answers = state.answers :=
        (state.answers_put none update).trans (List.append_nil _)
      constructor
      · rw [answers]
        exact delivers.once
      · rw [answers]
        exact delivers.mainOpen
      · rw [answers]
        exact delivers.spawnedOpen
      · exact delivers.increasing
      · rw [answers]
        exact delivers.inOrder
      · rw [answers]
        exact delivers.complete
      · refine delivers.current_of rfl rfl rfl rfl ?_
        rw [answers]
        exact List.Subset.refl _

/-! ## Every run -/

theorem delivers_start (loop : Loop) : Delivers { loop } where
  once := List.nodup_nil
  mainOpen := nofun
  spawnedOpen := nofun
  increasing := List.Pairwise.nil
  inOrder := List.Pairwise.nil
  complete := nofun
  current := fun _ last => absurd last.taken (Nat.not_lt_zero _)

theorem delivers_of_reachable {lens : BullMqLens} (guarantees : Guarantees setting may asks fits)
    (reachable : Reachable setting may lens state) : state.Delivers := by
  induction reachable with
  | refl => exact delivers_start _
  | tail before step ih => exact ih.step (serves_of_reachable guarantees before) step

end Tasks

end Keylens.Backend
