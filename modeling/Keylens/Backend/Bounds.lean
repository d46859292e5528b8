import Keylens.Backend.Delivery

/-!
# How much is under way

Neither channel ever holds more than it has room for.  Apart from reads that have been
aborted, at most one key is being read and the stats are being refreshed at most once.
-/

namespace Keylens.Backend

open Keylens.Library Keylens.Connection Keylens.BullMq Keylens.Ui

namespace Task

/-- A task that is under way and has not been aborted. -/
def runs (task : Task) : Bool :=
  task.left.isSome && !task.aborted

end Task

namespace Tasks

/-- A task that runs is the one that reads a key or the one that refreshes the stats. -/
def Handled (state : Tasks) : Prop :=
  ∀ place task, state.spawned[place]? = some task → task.runs →
    state.detail = some place ∨ state.stats = some place

variable {setting : Setting} {may : calls.Answers} {asks : Call → Prop}
variable {fits : Request → Update → Prop} {state next : Tasks}

/-! ## The tasks that run -/

theorem Handled.spawnDetail (handled : state.Handled) (setting : Setting) (number : Nat)
    (key : Str) : (state.spawnDetail setting number key).Handled := by
  let new : Task := { number, left := some (Work.detail setting.conn key) }
  intro place task found runs
  have found : (state.abortDetail ++ [new])[place]? = some task := found
  rcases Nat.lt_or_ge place state.abortDetail.length with old | behind
  · right
    rw [List.getElem?_append_left old, abortDetail] at found
    cases detail : state.detail with
    | none =>
        rw [detail] at found
        exact (handled place task found runs).resolve_left (by simp [detail])
    | some current =>
        rw [detail] at found
        dsimp only at found
        rw [List.getElem?_modify] at found
        rcases Option.map_eq_some_iff.mp found with ⟨other, before, same⟩
        by_cases aborted : current = place
        · rw [if_pos aborted] at same
          rw [← same] at runs
          simp [Task.runs] at runs
        · rw [if_neg aborted] at same
          rw [← same] at runs
          exact (handled place other before runs).resolve_left (by simpa [detail] using aborted)
  · left
    have last := (List.getElem?_eq_some_iff.mp found).1
    rw [List.length_append, List.length_singleton] at last
    have here : place = state.spawned.length := by
      rw [length_abortDetail] at behind last
      omega
    rw [here]
    rfl

theorem Handled.spawnInfo (handled : state.Handled) (setting : Setting) (number : Nat) :
    (state.spawnInfo setting number).Handled := by
  rw [Tasks.spawnInfo]
  split
  next => exact handled
  next idle =>
      intro place task found runs
      rcases Nat.lt_or_ge place state.spawned.length with old | new
      · left
        have before : state.spawned[place]? = some task := by
          rwa [List.getElem?_append_left old] at found
        apply (handled place task before runs).resolve_right
        intro stats
        apply idle
        simp only [Task.runs, Bool.and_eq_true] at runs
        simp [infoRunning, stats, before, runs.1]
      · right
        have last := (List.getElem?_eq_some_iff.mp found).1
        rw [List.length_append, List.length_singleton] at last
        have here : place = state.spawned.length := by omega
        rw [here]

theorem Handled.moved (handled : state.Handled) {front back : List Task} {before : Task}
    (spawned : state.spawned = front ++ before :: back) (after : Task)
    (less : after.runs → before.runs) :
    ∀ place task, (front ++ after :: back)[place]? = some task → task.runs →
      state.detail = some place ∨ state.stats = some place := by
  intro place task found runs
  rcases getElem?_moved before found with ⟨_, same⟩ | ⟨rfl, moved⟩
  · exact handled place task (spawned ▸ same) runs
  · exact handled place before (spawned ▸ moved) (less runs)

theorem Handled.take (handled : state.Handled) (setting : Setting) (request : Request) :
    (state.take setting request).Handled := by
  have kept : Handled { state with taken := state.taken + 1 } := handled
  cases request with
  | select key => exact kept.spawnDetail setting _ key
  | refreshInfo =>
      dsimp only [Tasks.take]
      split
      next => exact kept
      next => exact kept.spawnInfo setting _
  | _ => exact kept

theorem Handled.step (handled : state.Handled) (step : Step setting may state next) :
    next.Handled := by
  cases step with
  | accept request room => exact handled
  | read update room => exact handled
  | drains drains =>
      cases drains with
      | receive waiting => exact handled
      | move move =>
          cases move with
          | take idle accepted => exact handled.take setting _
          | mainAsks main told => exact handled
          | mainSends main room => exact handled
          | @taskAsks front back number aborted call rest answer spawned told =>
              exact handled.moved spawned ⟨number, some (rest answer), aborted⟩ fun runs => runs
          | @taskSends front back number aborted update spawned room =>
              exact handled.moved spawned ⟨number, none, aborted⟩ nofun
          | @taskVanishes front back number work spawned =>
              exact handled.moved spawned ⟨number, none, true⟩ nofun

/-- The tasks that run have different numbers, and each of them is in one of two
places. -/
theorem Handled.length_running (handled : state.Handled) (delivers : state.Delivers) :
    (state.spawned.filter Task.runs).length ≤ 2 := by
  let numberAt (place : Option Nat) : Option Nat :=
    (place.bind fun place => state.spawned[place]?).map Task.number
  have nodup : ((state.spawned.filter Task.runs).map Task.number).Nodup :=
    (delivers.increasing.imp Nat.ne_of_lt).sublist (List.filter_sublist.map _)
  have among : (state.spawned.filter Task.runs).map Task.number ⊆
      (numberAt state.detail).toList ++ (numberAt state.stats).toList := by
    intro number member
    rcases List.mem_map.mp member with ⟨task, running, rfl⟩
    rcases List.mem_filter.mp running with ⟨isTask, runs⟩
    rcases List.mem_iff_getElem?.mp isTask with ⟨place, found⟩
    rcases handled place task found runs with detail | stats
    · simp [numberAt, detail, found]
    · simp [numberAt, stats, found]
  have short := (nodup.subperm among).length_le
  rw [List.length_map, List.length_append] at short
  have detail := Option.length_toList_le (o := numberAt state.detail)
  have stats := Option.length_toList_le (o := numberAt state.stats)
  omega

/-! ## The channels -/

/-- Neither channel holds more than it has room for. -/
structure Fit (state : Tasks) : Prop where
  requests : state.requests.length ≤ channelSize
  updates : state.updates.length ≤ channelSize

/-- An update goes into the channel only while that has room. -/
theorem length_updates_put (room : state.hasRoom) (source : Option Nat) (update : Update) :
    (state.put source update).updates.length ≤ channelSize := by
  rw [hasRoom, decide_eq_true_iff] at room
  simp only [updates, put, List.length_drop, List.length_append, List.length_singleton] at room ⊢
  omega

theorem updates_take (request : Request) :
    (state.take setting request).updates = state.updates := by
  rw [Tasks.updates, sent_take, received_take, Tasks.updates]

theorem Fit.step (fit : state.Fit) (step : Step setting may state next) : next.Fit := by
  have requests := fit.requests
  have updates := fit.updates
  cases step with
  | accept request room =>
      refine ⟨?_, updates⟩
      simp only [Tasks.requests, List.length_drop, List.length_append, List.length_singleton]
        at room ⊢
      omega
  | read update room => exact ⟨requests, length_updates_put room none update⟩
  | drains drains =>
      cases drains with
      | receive waiting =>
          refine ⟨requests, ?_⟩
          simp only [Tasks.updates, List.length_drop] at updates ⊢
          omega
      | move move =>
          cases move with
          | take idle accepted =>
              refine ⟨?_, (updates_take _).symm ▸ updates⟩
              simp only [Tasks.requests, accepted_take, taken_take, List.length_drop]
                at requests ⊢
              omega
          | mainAsks main told => exact ⟨requests, updates⟩
          | mainSends main room => exact ⟨requests, length_updates_put room _ _⟩
          | taskAsks spawned told => exact ⟨requests, updates⟩
          | taskSends spawned room => exact ⟨requests, length_updates_put room _ _⟩
          | taskVanishes spawned => exact ⟨requests, updates⟩

/-! ## Everything that is under way -/

/-- An accepted request is under way while it waits to be taken, is worked at, or has an
answer that waits.  A read that was aborted no longer is. -/
def UnderWay (state : Tasks) (number : Nat) : Prop :=
  state.taken ≤ number ∧ number < state.accepted.length ∨
    (∃ work, state.main = some (number, work)) ∨
    (∃ task ∈ state.spawned, task.runs ∧ task.number = number) ∨
    ∃ update, (some number, update) ∈ state.updates

/-- The numbers of the requests that are under way, some of them twice. -/
def underWay (state : Tasks) : List Nat :=
  List.range' state.taken state.requests.length ++ (state.main.map Prod.fst).toList ++
    (state.spawned.filter Task.runs).map Task.number ++ state.updates.filterMap Prod.fst

theorem UnderWay.mem {number : Nat} (isUnderWay : state.UnderWay number) :
    number ∈ state.underWay := by
  rw [underWay, List.mem_append, List.mem_append, List.mem_append]
  rcases isUnderWay with
    ⟨behind, inside⟩ | ⟨work, main⟩ | ⟨task, member, runs, rfl⟩ | ⟨update, waits⟩
  · left; left; left
    rw [List.mem_range'_1, Tasks.requests, List.length_drop]
    omega
  · left; left; right
    simp [main]
  · left; right
    exact List.mem_map_of_mem (List.mem_filter.mpr ⟨member, runs⟩)
  · right
    exact List.mem_filterMap.mpr ⟨_, waits, rfl⟩

theorem Fit.length_underWay (fit : state.Fit) (handled : state.Handled)
    (delivers : state.Delivers) : state.underWay.length ≤ 2 * channelSize + 3 := by
  have running := handled.length_running delivers
  have waiting : (state.updates.filterMap Prod.fst).length ≤ channelSize :=
    (List.length_filterMap_le _ _).trans fit.updates
  have main := Option.length_toList_le (o := state.main.map Prod.fst)
  have requests := fit.requests
  simp only [underWay, List.length_append, List.length_range', List.length_map]
  omega

end Tasks

end Keylens.Backend
