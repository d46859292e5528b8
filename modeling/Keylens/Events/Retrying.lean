import Keylens.Events.Xread

/-!
# How long the reader keeps trying

A read that fails is tried again after a while, but only so often: a failure that repeats
itself is a permanent one.  A read that comes back resets the budget.
-/

namespace Keylens.Events

open Keylens.Library Keylens.Connection Keylens.BullMq Keylens.Backend

/-- In seconds. -/
def retryBase : Nat := 1

def retryMax : Nat := 8

/-- The seconds before the next try: twice as many each time, and capped. -/
def retryDelay (failures : Nat) : Nat :=
  min (retryBase * 2 ^ (min failures 5 - 1)) retryMax

theorem retryDelay_le (failures : Nat) : retryDelay failures ≤ retryMax :=
  min_le_right _ _

/-- The seconds that were slept after so many failures in a row. -/
def sleptFor : Nat → Nat
  | 0 => 0
  | failures + 1 => sleptFor failures + retryDelay (failures + 1)

namespace Reader

variable (api : ValueApi)

/-- The calls that the reader makes for these outcomes, each with the seconds it sleeps after
it. -/
def sleeps (reader : Reader) : List (Result Value × Bool) → List Nat
  | [] => []
  | (outcome, uiGone) :: later =>
      match (reader.round api outcome uiGone).1 with
      | .stop => [0]
      | .again next =>
          (if outcome.isOk then 0 else retryDelay next.failures) :: sleeps next later

/-- How many of the calls came back. -/
def replies (outcomes : List (Result Value × Bool)) : Nat :=
  outcomes.countP fun outcome => outcome.1.isOk

variable {api} {reader : Reader}

theorem round_error (error : ConnError) (uiGone : Bool) :
    (reader.round api (.error error) uiGone).1 =
      if maxConsecutiveFailures ≤ reader.failures + 1 then .stop
      else .again { reader with failures := reader.failures + 1 } := by
  rw [round]
  split
  next => rfl
  next => rfl

theorem round_ok (reply : Value) (uiGone : Bool) :
    (reader.round api (.ok reply) uiGone).1 = .stop ∨
      ∃ next : Reader, (reader.round api (.ok reply) uiGone).1 = .again next ∧
        next.failures = 0 := by
  rw [round]
  split
  next => exact .inr ⟨_, rfl, rfl⟩
  next =>
      split
      next => exact .inl rfl
      next => exact .inr ⟨_, rfl, rfl⟩

theorem sleeps_stop {outcome : Result Value} {uiGone : Bool} (later : List (Result Value × Bool))
    (stops : (reader.round api outcome uiGone).1 = .stop) :
    reader.sleeps api ((outcome, uiGone) :: later) = [0] := by
  rw [sleeps, stops]

theorem sleeps_again {outcome : Result Value} {uiGone : Bool} {next : Reader}
    (later : List (Result Value × Bool))
    (goesOn : (reader.round api outcome uiGone).1 = .again next) :
    reader.sleeps api ((outcome, uiGone) :: later) =
      (if outcome.isOk then 0 else retryDelay next.failures) :: next.sleeps api later := by
  rw [sleeps, goesOn]

theorem sleptFor_le {failures : Nat} (under : failures < maxConsecutiveFailures) :
    sleptFor failures ≤ sleptFor 4 := by
  have each : ∀ failures < maxConsecutiveFailures, sleptFor failures ≤ sleptFor 4 := by decide
  exact each failures under

/-- A reader that keeps to its budget: the failures in a row count as calls, and the sleep for
them as sleep. -/
structure Keeps (failures replies : Nat) (sleeps : List Nat) : Prop where
  calls : failures + sleeps.length ≤ maxConsecutiveFailures * (replies + 1)
  slept : sleptFor failures + sleeps.sum ≤ sleptFor 4 * (replies + 1)
  short : ∀ seconds ∈ sleeps, seconds ≤ retryMax

theorem Keeps.stop {failures : Nat} (under : failures < maxConsecutiveFailures) (replies : Nat) :
    Keeps failures replies [0] := by
  constructor
  · rw [List.length_singleton]
    exact under.trans_le (Nat.le_mul_of_pos_right _ (Nat.succ_pos _))
  · exact (sleptFor_le under).trans (Nat.le_mul_of_pos_right _ (Nat.succ_pos _))
  · intro seconds member
    rw [List.mem_singleton.mp member]
    exact Nat.zero_le _

/-- A call that fails uses up the budget. -/
theorem Keeps.fail {failures replies : Nat} {later : List Nat}
    (keeps : Keeps (failures + 1) replies later) :
    Keeps failures replies (retryDelay (failures + 1) :: later) := by
  constructor
  · have calls := keeps.calls
    rw [List.length_cons]
    omega
  · have slept := keeps.slept
    rw [sleptFor] at slept
    rw [List.sum_cons]
    omega
  · intro seconds member
    rcases List.mem_cons.mp member with rfl | after
    · exact retryDelay_le _
    · exact keeps.short seconds after

/-- A read that comes back brings a new one. -/
theorem Keeps.reply {failures replies : Nat} {later : List Nat}
    (under : failures < maxConsecutiveFailures) (keeps : Keeps 0 replies later) :
    Keeps failures (replies + 1) (0 :: later) := by
  constructor
  · have calls := keeps.calls
    rw [List.length_cons, Nat.mul_succ]
    omega
  · have slept := keeps.slept
    have before := sleptFor_le under
    rw [sleptFor] at slept
    rw [List.sum_cons, Nat.mul_succ]
    omega
  · intro seconds member
    rcases List.mem_cons.mp member with rfl | after
    · exact Nat.zero_le _
    · exact keeps.short seconds after

theorem keeps_sleeps (outcomes : List (Result Value × Bool))
    (under : reader.failures < maxConsecutiveFailures) :
    Keeps reader.failures (replies outcomes) (reader.sleeps api outcomes) := by
  induction outcomes generalizing reader with
  | nil =>
      constructor
      · exact under.le
      · exact sleptFor_le under
      · exact fun _ member => absurd member List.not_mem_nil
  | cons entry later ih =>
      rcases entry with ⟨outcome, uiGone⟩
      cases outcome with
      | error error =>
          have same : replies ((.error error, uiGone) :: later) = replies later :=
            List.countP_cons_of_neg nofun
          have now := @round_error api reader error uiGone
          rw [same]
          split at now
          next gaveUp =>
              rw [sleeps_stop later now]
              exact .stop under _
          next goesOn =>
              rw [sleeps_again later now]
              exact (@ih { reader with failures := reader.failures + 1 }
                (Nat.lt_of_not_le goesOn)).fail
      | ok reply =>
          have counted : replies ((.ok reply, uiGone) :: later) = replies later + 1 :=
            List.countP_cons_of_pos rfl
          rw [counted]
          rcases @round_ok api reader reply uiGone with stops | ⟨next, goesOn, reset⟩
          · rw [sleeps_stop later stops]
            exact .stop under _
          · rw [sleeps_again later goesOn]
            have kept := @ih next (by rw [reset]; decide)
            rw [reset] at kept
            exact kept.reply under

/-- Whatever the calls of a reader end in, it makes at most five for each that comes back
and five more, it sleeps at most fifteen seconds for each and fifteen more, and never longer
than eight at a time. -/
theorem retries_bounded (prefix' : Str) (queues : List Str)
    (outcomes : List (Result Value × Bool)) :
    ((new prefix' queues).sleeps api outcomes).length ≤ 5 * (replies outcomes + 1) ∧
      ((new prefix' queues).sleeps api outcomes).sum ≤ 15 * (replies outcomes + 1) ∧
      ∀ seconds ∈ (new prefix' queues).sleeps api outcomes, seconds ≤ 8 := by
  have keeps := @keeps_sleeps api (new prefix' queues) outcomes (Nat.succ_pos 4)
  have calls : 0 + _ ≤ _ := keeps.calls
  have slept : 0 + _ ≤ _ := keeps.slept
  rw [Nat.zero_add] at calls slept
  exact ⟨calls, slept, keeps.short⟩

end Reader

end Keylens.Events
