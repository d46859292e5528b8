import Keylens.Backend.Answered

/-!
# What the requests cost

Every request has a price that its computation keeps to.  Then the tasks together keep to
the sum of the prices of what was asked for, in whatever order they move; a read that is
aborted costs no more than one that is not.
-/

namespace Keylens.Backend

open Keylens.Library Keylens.Connection Keylens.BullMq Keylens.Ui

/-- No computation costs more than the price of its request. -/
structure Prices (setting : Setting) (cost : Call → Nat) (price : Request → Nat) : Prop where
  handle : ∀ loop request work, Work.handle setting loop request = some work →
    Prog.Within (I := calls) cost (price request) work
  detail : ∀ key, Prog.Within (I := calls) cost (price (.select key)) (Work.detail setting.conn key)
  stats : Prog.Within (I := calls) cost (price .refreshInfo) (Work.stats setting.info)

namespace Tasks

variable {setting : Setting} {may : calls.Answers} {cost : Call → Nat} {price : Request → Nat}
variable {state next : Tasks}

/-- What has been asked of the server so far. -/
def spent (cost : Call → Nat) (state : Tasks) : Nat :=
  (state.asked.map cost).sum

/-- The prices of the requests that have been taken. -/
def budget (price : Request → Nat) (state : Tasks) : Nat :=
  ((state.accepted.take state.taken).map price).sum

/-- What is left of the budget pays for what is under way. -/
structure Affords (cost : Call → Nat) (price : Request → Nat) (state : Tasks) : Prop where
  taken_le : state.taken ≤ state.accepted.length
  pays : ∃ here apart, state.spent cost + here + apart ≤ state.budget price ∧
    (∀ number work, state.main = some (number, work) → Prog.Within (I := calls) cost here work) ∧
    Prog.WithinAll (I := calls) cost apart (state.spawned.filterMap Task.left)

/-! ## A request is taken -/

theorem filterMap_left_abortDetail :
    state.abortDetail.filterMap Task.left = state.spawned.filterMap Task.left := by
  have same : state.abortDetail.map Task.left = state.spawned.map Task.left := by
    rw [abortDetail]
    split
    next place _ =>
        apply List.ext_getElem?
        intro i
        rw [List.getElem?_map, List.getElem?_map, List.getElem?_modify]
        cases state.spawned[i]? with
        | none => rfl
        | some task =>
            dsimp only [Option.map_some]
            split <;> rfl
    next => rfl
  have flat (tasks : List Task) :
      tasks.filterMap Task.left = (tasks.map Task.left).filterMap id := by
    rw [List.filterMap_map]
    rfl
  rw [flat, same, ← flat]

theorem budget_taken {request : Request} (accepted : state.accepted[state.taken]? = some request) :
    budget price { state with taken := state.taken + 1 } = state.budget price + price request := by
  rw [budget, budget]
  dsimp only
  rw [List.take_add_one, accepted, List.map_append, List.sum_append]
  simp

theorem Affords.take (affords : state.Affords cost price) (prices : Prices setting cost price)
    {request : Request} (idle : state.main = none)
    (accepted : state.accepted[state.taken]? = some request) :
    (state.take setting request).Affords cost price := by
  have taken_le : state.taken + 1 ≤ state.accepted.length :=
    (List.getElem?_eq_some_iff.mp accepted).1
  rcases affords.pays with ⟨here, apart, enough, _, others⟩
  have more : state.spent cost + here + apart + price request ≤
      budget price { state with taken := state.taken + 1 } := by
    rw [budget_taken accepted]
    exact Nat.add_le_add_right enough _
  have idleWithin (number : Nat) (work : Work (Loop × Update))
      (main : state.main = some (number, work)) : Prog.Within (I := calls) cost here work := by
    cases idle.symm.trans main
  have kept : Affords cost price { state with taken := state.taken + 1 } :=
    ⟨taken_le, here, apart, (Nat.le_add_right _ _).trans more, idleWithin, others⟩
  have spawning {tasks : List Task} {work : Work Update}
      (same : tasks.filterMap Task.left = state.spawned.filterMap Task.left)
      (within : Prog.Within (I := calls) cost (price request) work) :
      Prog.WithinAll (I := calls) cost (apart + price request)
        ((tasks ++ [({ number := state.taken, left := some work } : Task)]).filterMap
          Task.left) := by
    rw [List.filterMap_append, same]
    exact others.concat within
  have spawned := (Nat.le_of_eq (Nat.add_assoc ..).symm).trans more
  have turned : Affords cost price
      (turnTo setting { state with taken := state.taken + 1 } state.taken request) := by
    refine ⟨taken_le, price request, apart, ?_, ?_, others⟩
    · have less : state.spent cost + price request + apart ≤
          state.spent cost + here + apart + price request := by omega
      exact less.trans more
    · intro number work main
      have handling :
          (Work.handle setting state.loop request).map (fun work => (state.taken, work)) =
            some (number, work) := main
      rcases Option.map_eq_some_iff.mp handling with ⟨handled, isHandled, same⟩
      cases same
      exact prices.handle _ _ _ isHandled
  cases request with
  | select key =>
      exact ⟨taken_le, here, _, spawned, idleWithin,
        spawning filterMap_left_abortDetail (prices.detail key)⟩
  | refreshInfo =>
      dsimp only [Tasks.take]
      split
      next => exact kept
      next =>
          rw [spawnInfo]
          split
          next => exact kept
          next => exact ⟨taken_le, here, _, spawned, idleWithin, spawning rfl prices.stats⟩
  | _ => exact turned

/-! ## Every step -/

theorem Affords.step (affords : state.Affords cost price) (prices : Prices setting cost price)
    (step : Step setting may state next) : next.Affords cost price := by
  have paid (call : Call) :
      ((state.asked ++ [call]).map cost).sum = state.spent cost + cost call := by
    simp [spent]
  rcases affords.pays with ⟨here, apart, enough, within, others⟩
  cases step with
  | accept request room =>
      have same : budget price { state with accepted := state.accepted ++ [request] } =
          state.budget price := by
        rw [budget, budget]
        dsimp only
        rw [List.take_append_of_le_length affords.taken_le]
      refine ⟨?_, here, apart, same ▸ enough, within, others⟩
      exact affords.taken_le.trans (by simp)
  | read update room => exact ⟨affords.taken_le, here, apart, enough, within, others⟩
  | drains drains =>
      cases drains with
      | receive waiting => exact ⟨affords.taken_le, here, apart, enough, within, others⟩
      | move move =>
          cases move with
          | take idle accepted => exact affords.take prices idle accepted
          | @mainAsks number call rest answer main told =>
              rcases within _ _ main with ⟨cheap, goesOn⟩
              refine ⟨affords.taken_le, here - cost call, apart, ?_, ?_, others⟩
              · change ((state.asked ++ [call]).map cost).sum + _ + _ ≤ state.budget price
                rw [paid]
                omega
              · rintro _ _ ⟨⟩
                exact goesOn answer
          | mainSends main room =>
              exact ⟨affords.taken_le, here, apart, enough, nofun, others⟩
          | @taskAsks front back number aborted call rest answer spawned told =>
              rw [spawned, List.filterMap_append] at others
              rcases Prog.WithinAll.pay others answer with ⟨cheap, goesOn⟩
              refine ⟨affords.taken_le, here, apart - cost call, ?_, within, ?_⟩
              · change ((state.asked ++ [call]).map cost).sum + _ + _ ≤ state.budget price
                rw [paid]
                omega
              · rw [List.filterMap_append]
                exact goesOn
          | taskSends spawned room =>
              rw [spawned, List.filterMap_append] at others
              refine ⟨affords.taken_le, here, apart, enough, within, ?_⟩
              rw [List.filterMap_append]
              exact Prog.WithinAll.drop others
          | taskVanishes spawned =>
              rw [spawned, List.filterMap_append] at others
              refine ⟨affords.taken_le, here, apart, enough, within, ?_⟩
              rw [List.filterMap_append]
              exact Prog.WithinAll.drop others

/-- However the tasks move, what they ask for costs at most the prices of the requests that
have been taken. -/
theorem spent_le_budget {lens : BullMqLens} (prices : Prices setting cost price)
    (reachable : Reachable setting may lens state) : state.spent cost ≤ state.budget price := by
  have affords : state.Affords cost price := by
    induction reachable with
    | refl => exact ⟨Nat.le_refl 0, 0, 0, Nat.le_refl 0, nofun, trivial⟩
    | tail _ step ih => exact ih.step prices step
  rcases affords.pays with ⟨here, apart, enough, _⟩
  omega

end Tasks

end Keylens.Backend
