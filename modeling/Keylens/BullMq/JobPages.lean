import Keylens.BullMq.Lens
import Keylens.Connection.Emission

/-!
# Pages of jobs and logs

A page is read by rank.  Redis takes a negative rank from the end, so a page whose
bounds cannot be formed is empty and nothing is sent.
-/

namespace Keylens.BullMq

open Keylens.Library Keylens.Connection

/-- Inclusive bounds of a page; there are none for a page of nothing or one that
does not fit an `i64`. -/
def pageRange (offset limit : Nat) : Option (Int × Int) :=
  if limit = 0 then none
  else if i64Max < offset then none
  else if i64Max < limit then none
  else
    let start : Int := offset
    if i64Max < start + (limit - 1) then none
    else some (start, start + (limit - 1))

/-- The limit has to fit by itself, beside the last rank. -/
theorem pageRange_eq_some_iff {offset limit : Nat} {bounds : Int × Int} :
    pageRange offset limit = some bounds ↔
      0 < limit ∧ limit ≤ i64Max ∧ offset + (limit - 1 : Int) ≤ i64Max ∧
        bounds = ((offset : Int), offset + (limit - 1 : Int)) := by
  rw [pageRange]
  dsimp only
  constructor
  · intro formed
    split at formed
    next => cases formed
    next positive =>
        split at formed
        next => cases formed
        next =>
            split at formed
            next => cases formed
            next limitFits =>
                split at formed
                next => cases formed
                next fits =>
                    cases formed
                    exact ⟨Nat.pos_of_ne_zero positive, Int.not_lt.mp limitFits,
                      Int.not_lt.mp fits, rfl⟩
  · rintro ⟨positive, limitFits, fits, rfl⟩
    rw [if_neg (Nat.ne_of_gt positive), if_neg (by omega), if_neg (Int.not_lt.mpr limitFits),
      if_neg (Int.not_lt.mpr fits)]

/-- The bounds of a page in exact arithmetic, for both functions that form them. -/
structure ExactPages (offset limit : Nat) : Prop where
  formed_iff : ∀ start stop, pageRange offset limit = some (start, stop) ↔
    1 ≤ limit ∧ (offset : Int) + limit - 1 ≤ i64Max ∧ start = offset ∧ stop = offset + limit - 1
  ordered : ∀ start stop, pageRange offset limit = some (start, stop) → 0 ≤ start ∧ start ≤ stop
  tiles : ∀ start stop next last, pageRange offset limit = some (start, stop) →
    pageRange (offset + limit) limit = some (next, last) → next = stop + 1
  pageBounds_eq : ∀ kind, (pageBounds offset kind).toOption = pageRange offset page

/-- The bounds of one page are formed by both functions or by neither. -/
theorem toOption_pageBounds (offset : Nat) (kind : Kind) :
    (pageBounds offset kind).toOption = pageRange offset page := by
  have small : (page : Int) ≤ i64Max := by decide
  rcases pageBounds_cases offset kind with ⟨fits, formed⟩ | ⟨beyond, _, _, unformed⟩
  · rw [formed]
    exact (pageRange_eq_some_iff.mpr ⟨by decide, small, fits, rfl⟩).symm
  · rw [unformed]
    symm
    rw [Except.toOption, Option.eq_none_iff_forall_ne_some]
    intro bounds formed
    have fits := (pageRange_eq_some_iff.mp formed).2.2.1
    exact absurd fits (Int.not_le.mpr beyond)

/-- Of all pages one is refused that could be expressed: that of all ranks, whose length
does not fit an `i64` although its last rank does. -/
theorem exactPages_iff (offset limit : Nat) :
    ExactPages offset limit ↔ ¬(offset = 0 ∧ limit = 2 ^ 63) := by
  have bound : i64Max = 2 ^ 63 - 1 := rfl
  constructor
  · rintro exact ⟨rfl, rfl⟩
    have formed := (exact.formed_iff 0 (2 ^ 63 - 1)).mpr (by decide)
    exact absurd (pageRange_eq_some_iff.mp formed).2.1 (by decide)
  · intro other
    refine ⟨?_, ?_, ?_, toOption_pageBounds offset⟩
    · intro start stop
      rw [pageRange_eq_some_iff, Prod.mk.injEq]
      omega
    · intro start stop formed
      rcases pageRange_eq_some_iff.mp formed with ⟨positive, _, _, bounds⟩
      rw [Prod.mk.injEq] at bounds
      omega
    · intro start stop next last formed later
      rcases pageRange_eq_some_iff.mp formed with ⟨_, _, _, bounds⟩
      rcases pageRange_eq_some_iff.mp later with ⟨_, _, _, laterBounds⟩
      rw [Prod.mk.injEq] at bounds laterBounds
      omega

/-- The page of all `2 ^ 63` ranks. -/
theorem whole_range_refused :
    ¬ExactPages 0 (2 ^ 63) ∧ pageRange 0 (2 ^ 63) = none ∧
      (0 : Int) + 2 ^ 63 - 1 ≤ i64Max := by
  refine ⟨?_, by decide, by decide⟩
  intro exact
  have formed := (exact.formed_iff 0 (2 ^ 63 - 1)).mpr (by decide)
  exact absurd (pageRange_eq_some_iff.mp formed).2.1 (by decide)

namespace BullMqLens

/-- A page of job ids from one state. -/
def jobs (lens : BullMqLens) (conn : Conn) (queue : Str) (state : State) (offset limit : Nat) :
    Sent (List JobRef) :=
  match pageRange offset limit with
  | none => return []
  | some (start, stop) => do
      let keys : QueueKeys := { prefix' := lens.prefix', name := queue }
      let key := keys.state state
      let reply ←
        if state.isListBacked then
          conn.cmdSent .lrange [.string key, .integer start, .integer stop]
        else
          -- Newest first.
          conn.cmdSent .zrevrange
            [.string key, .integer start, .integer stop, .string "WITHSCORES".toList]
      match reply with
      | .array items =>
          return if state.isListBacked then
            (items.filterMap conn.client.api.asString).map fun id => { id, score := none }
          else
            (asPairs items).filterMap fun (member, score) =>
              (conn.client.api.asString member).map fun id =>
                { id, score := conn.client.api.asF64 score }
      | _ => return []

/-- Per-job logs, newest last. -/
def jobLogs (lens : BullMqLens) (conn : Conn) (queue id : Str) (limit : Nat) : Sent (List Str) :=
  match pageRange 0 limit with
  | none => return []
  | some (start, stop) => do
      let keys : QueueKeys := { prefix' := lens.prefix', name := queue }
      let reply ← conn.cmdSent .lrange
        [.string (keys.jobLogs id), .integer start, .integer stop]
      match reply with
      | .array items => return items.filterMap conn.client.api.asString
      | _ => return []

variable {lens : BullMqLens} {conn : Conn} {queue id : Str} {state : State} {offset limit : Nat}

theorem pageRange_inRange {bounds : Int × Int} (formed : pageRange offset limit = some bounds) :
    InRange limit bounds.1 bounds.2 := by
  rcases pageRange_eq_some_iff.mp formed with ⟨positive, _, fits, rfl⟩
  exact inRange_of_fits positive fits

/-- A page of jobs whose bounds cannot be formed sends nothing and is empty. -/
theorem jobs_of_none (unformed : pageRange offset limit = none) :
    lens.jobs conn queue state offset limit = .done (.ok []) := by
  rw [jobs, unformed]
  rfl

theorem jobLogs_of_none (unformed : pageRange 0 limit = none) :
    lens.jobLogs conn queue id limit = .done (.ok []) := by
  rw [jobLogs, unformed]
  rfl

theorem jobs_bounded (lens : BullMqLens) (conn : Conn) (queue : Str) (state : State)
    (offset limit : Nat) :
    (lens.jobs conn queue state offset limit).Causes
      (Bounded (QueueKeys.state { prefix' := lens.prefix', name := queue } state) limit) := by
  cases formed : pageRange offset limit with
  | none =>
      rw [jobs_of_none formed]
      exact Traced.causes_done _
  | some bounds =>
      have within := pageRange_inRange formed
      rw [jobs, formed]
      dsimp only
      split
      next =>
          refine (Conn.cmdSent_causes (.lrange within)).bind ?_
          intro reply
          split <;> exact Traced.causes_pure _
      next =>
          refine (Conn.cmdSent_causes (.scored (.inr rfl) within)).bind ?_
          intro reply
          split <;> exact Traced.causes_pure _

theorem jobLogs_bounded (lens : BullMqLens) (conn : Conn) (queue id : Str) (limit : Nat) :
    (lens.jobLogs conn queue id limit).Causes
      (Bounded (QueueKeys.jobLogs { prefix' := lens.prefix', name := queue } id) limit) := by
  cases formed : pageRange 0 limit with
  | none =>
      rw [jobLogs_of_none formed]
      exact Traced.causes_done _
  | some bounds =>
      have within := pageRange_inRange formed
      rw [jobLogs, formed]
      refine (Conn.cmdSent_causes (.lrange within)).bind ?_
      intro reply
      split <;> exact Traced.causes_pure _

/-- No read of a value, of a page of jobs or of logs is unbounded.  Where the
bounds cannot be formed nothing is sent, and the answer is an error or an empty
page; where a bounded read is missing nothing is sent in its place. -/
theorem reads_bounded (conn : Conn) (lens : BullMqLens) (key : Str) (kind : Kind)
    (offset limit : Nat) (queue id : Str) (state : State) :
    let keys : QueueKeys := { prefix' := lens.prefix', name := queue }
    (conn.readKeySent key).Causes (Bounded key page) ∧
    (conn.readKeySequentiallySent key).Causes (Bounded key page) ∧
    (conn.readValueSent key kind offset).Causes (Bounded key page) ∧
    (lens.jobs conn queue state offset limit).Causes (Bounded (keys.state state) limit) ∧
    (lens.jobLogs conn queue id limit).Causes (Bounded (keys.jobLogs id) limit) ∧
    (∀ error, pageBounds offset kind = .error error →
      conn.readValueSent key kind offset = .done (.error error)) ∧
    (pageRange offset limit = none → lens.jobs conn queue state offset limit = .done (.ok [])) ∧
    (pageRange 0 limit = none → lens.jobLogs conn queue id limit = .done (.ok [])) ∧
    (¬conn.capabilities.has .getRange →
      (conn.readValueSent key .string offset).events = []) ∧
    (¬conn.capabilities.has .cursorCollectionScan →
      (conn.readValueSent key .hash offset).events = [] ∧
      (conn.readValueSent key .set offset).events = []) := by
  intro keys
  refine ⟨Conn.readKeySent_bounded key, Conn.readKeySequentiallySent_bounded key,
    Conn.readValueSent_bounded key kind offset, jobs_bounded lens conn queue state offset limit,
    jobLogs_bounded lens conn queue id limit, ?_, jobs_of_none, jobLogs_of_none, ?_, ?_⟩
  · intro error unformed
    exact Conn.readValueSent_of_error unformed key
  · intro lacks
    exact Conn.events_readValueSent_of_unsupported key offset (.inl ⟨rfl, lacks⟩)
  · intro lacks
    exact ⟨Conn.events_readValueSent_of_unsupported key offset (.inr ⟨.inl rfl, lacks⟩),
      Conn.events_readValueSent_of_unsupported key offset (.inr ⟨.inr rfl, lacks⟩)⟩

end BullMqLens

end Keylens.BullMq
