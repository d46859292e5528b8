import Keylens.BullMq.Keys
import Keylens.Connection.Pipeline
import Keylens.Connection.Redis

/-!
# The queue table

One pipeline reads everything the table shows: for each queue its meta hash and a
count for each state.  The flat list of replies goes back to the queues by
position.
-/

namespace Keylens.BullMq

open Keylens.Library Keylens.Connection

/-- How many jobs are in a state. -/
def QueueSummary.count (summary : QueueSummary) (state : State) : Nat :=
  match summary.counts.find? fun entry => entry.1 = state with
  | some entry => entry.2
  | none => 0

structure BullMqLens where
  prefix' : Str

namespace BullMqLens

/-- The commands of one queue: its meta hash, then a count for each state. -/
def metaCmd (lens : BullMqLens) (name : Str) : Command :=
  let keys : QueueKeys := { prefix' := lens.prefix', name }
  (.hmget, [.string keys.meta', .string "version".toList, .string "paused".toList])

def stateCmd (lens : BullMqLens) (name : Str) (state : State) : Command :=
  let keys : QueueKeys := { prefix' := lens.prefix', name }
  (state.countCmd, [.string (keys.state state)])

def queueCmds (lens : BullMqLens) (name : Str) : List Command :=
  lens.metaCmd name :: State.all.map (lens.stateCmd name)

def perQueue : Nat := 1 + State.all.length

/-- Counts and paused state for many queues in a single round trip, whose
commands end in the given outcomes. -/
def summaries (lens : BullMqLens) (conn : Conn) (outcome : Outcome) (names : List Str) :
    Result (List QueueSummary) :=
  if names = [] then .ok []
  else do
    let replies ← conn.pipelineRun outcome (names.flatMap lens.queueCmds)
    let reply (i : Nat) := (replies[i]?).bind Except.toOption
    .ok (names.mapIdx fun i name =>
      let base := i * perQueue
      let paused :=
        match reply base with
        | some (.array fields) => isPaused ((fields[1]?).bind conn.client.api.asString)
        | _ => false
      let counts := State.all.mapIdx fun j state =>
        (state, ((reply (base + 1 + j)).bind conn.client.api.asU64).getD 0)
      { name, paused, counts })

/-! ## Attribution -/

/-- Whether the outcome of a queue's meta command says that it is paused. -/
def pausedBy (api : ValueApi) : Except ClientError Value → Bool
  | .ok (.array fields) => isPaused ((fields[1]?).bind api.asString)
  | _ => false

/-- The number that the outcome of a count command stands for. -/
def countBy (api : ValueApi) (outcome : Except ClientError Value) : Nat :=
  (outcome.toOption.bind api.asU64).getD 0

/-- The place of a queue's meta command in the pipeline. -/
def metaSlot (i : Nat) : Nat :=
  i * perQueue

/-- The place of a queue's count command. -/
def stateSlot (i : Nat) (state : State) : Nat :=
  i * perQueue + 1 + State.all.idxOf state

variable {lens : BullMqLens} {conn : Conn} {outcome : Outcome} {names : List Str}

theorem length_queueCmds (lens : BullMqLens) (name : Str) :
    (lens.queueCmds name).length = perQueue := by
  rw [queueCmds, List.length_cons, List.length_map]
  rfl

theorem queueCmds_allowed (api : ValueApi) (lens : BullMqLens) (name : Str) :
    ∀ cmd ∈ lens.queueCmds name, readOnlyCommand api cmd.1 cmd.2 := by
  intro cmd member
  rcases List.mem_cons.mp member with rfl | counted
  · rfl
  · rcases List.mem_map.mp counted with ⟨state, _, rfl⟩
    cases state <;> rfl

/-- What the table holds for one queue. -/
def summaryAt (lens : BullMqLens) (api : ValueApi) (outcome : Outcome) (i : Nat) (name : Str) :
    QueueSummary where
  name
  paused := pausedBy api (outcome (metaSlot i) (lens.metaCmd name))
  counts := State.all.map fun state =>
    (state, countBy api (outcome (stateSlot i state) (lens.stateCmd name state)))

theorem count_summaryAt (api : ValueApi) (i : Nat) (name : Str) (state : State) :
    (lens.summaryAt api outcome i name).count state =
      countBy api (outcome (stateSlot i state) (lens.stateCmd name state)) := by
  cases state <;> rfl

theorem allowed_queueCmds (api : ValueApi) (lens : BullMqLens) (names : List Str) :
    ∀ cmd ∈ names.flatMap lens.queueCmds, readOnlyCommand api cmd.1 cmd.2 := by
  intro cmd member
  rcases List.mem_flatMap.mp member with ⟨name, _, here⟩
  exact queueCmds_allowed api lens name cmd here

/-- What stands in each place of the pipeline. -/
theorem getElem?_cmds (lens : BullMqLens) {i j : Nat} {name : Str} (here : names[i]? = some name)
    (inside : j < perQueue) :
    (names.flatMap lens.queueCmds)[i * perQueue + j]? = (lens.queueCmds name)[j]? := by
  rw [Nat.mul_comm]
  exact getElem?_flatMap_block (length_queueCmds lens) names here inside

theorem getElem?_metaSlot (lens : BullMqLens) {i : Nat} {name : Str}
    (here : names[i]? = some name) :
    (names.flatMap lens.queueCmds)[metaSlot i]? = some (lens.metaCmd name) :=
  getElem?_cmds lens here (j := 0) (by decide)

theorem getElem?_stateSlot (lens : BullMqLens) {i j : Nat} {name : Str} {state : State}
    (here : names[i]? = some name) (there : State.all[j]? = some state) :
    (names.flatMap lens.queueCmds)[i * perQueue + 1 + j]? = some (lens.stateCmd name state) := by
  have inside : 1 + j < perQueue := Nat.add_lt_add_left (List.getElem?_eq_some_iff.mp there).1 1
  rw [Nat.add_assoc, getElem?_cmds lens here inside, queueCmds, Nat.add_comm,
    List.getElem?_cons_succ, List.getElem?_map, there, Option.map_some]

theorem stateSlot_eq (i : Nat) {j : Nat} {state : State} (there : State.all[j]? = some state) :
    stateSlot i state = i * perQueue + 1 + j := by
  have distinct : State.all.Nodup := by decide
  rcases List.getElem?_eq_some_iff.mp there with ⟨inside, rfl⟩
  rw [stateSlot, distinct.idxOf_getElem]

/-- The replies are read in the places of the commands they answer. -/
theorem reply_eq {cmds : List Command} {place : Nat} {cmd : Command}
    (here : cmds[place]? = some cmd) :
    ((cmds.mapIdx fun place cmd =>
      ((outcome place cmd).mapError (ConnError.command cmd.1) : Result Value))[place]?).bind
        Except.toOption = (outcome place cmd).toOption := by
  rw [List.getElem?_mapIdx, here, Option.map_some, Option.bind_some]
  cases outcome place cmd <;> rfl

/-- The table has one row for each queue, filled from that queue's own replies. -/
theorem summaries_eq (sends : conn.Sends) :
    lens.summaries conn outcome names =
      .ok (names.mapIdx (lens.summaryAt conn.client.api outcome)) := by
  rw [summaries]
  split
  next none =>
      rw [none]
      rfl
  next =>
      rw [Conn.pipelineRun_eq sends outcome (allowed_queueCmds _ lens names)]
      change Except.ok _ = Except.ok _
      congr 1
      apply List.ext_getElem?
      intro i
      rw [List.getElem?_mapIdx, List.getElem?_mapIdx]
      cases here : names[i]? with
      | none => rfl
      | some name =>
          rw [Option.map_some, Option.map_some, summaryAt, Option.some_inj, QueueSummary.mk.injEq]
          refine ⟨rfl, ?_, ?_⟩
          · dsimp only
            rw [← metaSlot, reply_eq (getElem?_metaSlot lens here)]
            cases outcome (metaSlot i) (lens.metaCmd name) with
            | error error => rfl
            | ok value => cases value <;> rfl
          · apply List.ext_getElem?
            intro j
            rw [List.getElem?_mapIdx, List.getElem?_map]
            cases there : State.all[j]? with
            | none => rfl
            | some state =>
                dsimp only
                rw [Option.map_some, Option.map_some, stateSlot_eq i there,
                  reply_eq (getElem?_stateSlot lens here there), countBy]

/-- Every cell of the table is decided by the outcome of that cell's own command,
and one command that fails changes no other cell. -/
theorem summaries_attributed (lens : BullMqLens) (conn : Conn) (outcome : Outcome)
    (names : List Str) (sends : conn.Sends) :
    ∃ table, lens.summaries conn outcome names = .ok table ∧
      table.map QueueSummary.name = names ∧
      (∀ i summary, table[i]? = some summary →
        summary.paused = pausedBy conn.client.api
          (outcome (metaSlot i) (lens.metaCmd summary.name)) ∧
        ∀ state, summary.count state = countBy conn.client.api
          (outcome (stateSlot i state) (lens.stateCmd summary.name state))) ∧
      ∀ slot error, ∃ other, lens.summaries conn (outcome.fail slot error) names = .ok other ∧
        other.map QueueSummary.name = names ∧
        ∀ i before after, table[i]? = some before → other[i]? = some after →
          (slot ≠ metaSlot i → after.paused = before.paused) ∧
          ∀ state, slot ≠ stateSlot i state → after.count state = before.count state := by
  have columns (outcome : Outcome) :
      (names.mapIdx (lens.summaryAt conn.client.api outcome)).map QueueSummary.name = names := by
    apply List.ext_getElem?
    intro i
    rw [List.getElem?_map, List.getElem?_mapIdx, Option.map_map]
    cases names[i]? <;> rfl
  have cell {outcome : Outcome} {i : Nat} {summary : QueueSummary}
      (there : (names.mapIdx (lens.summaryAt conn.client.api outcome))[i]? = some summary) :
      ∃ name, names[i]? = some name ∧ lens.summaryAt conn.client.api outcome i name = summary := by
    rw [List.getElem?_mapIdx] at there
    exact Option.map_eq_some_iff.mp there
  refine ⟨_, summaries_eq sends, columns outcome, ?_, ?_⟩
  · intro i summary there
    rcases cell there with ⟨name, _, rfl⟩
    exact ⟨rfl, count_summaryAt _ i name⟩
  · intro slot error
    refine ⟨_, summaries_eq sends, columns _, ?_⟩
    intro i before after thereBefore thereAfter
    rcases cell thereBefore with ⟨name, here, rfl⟩
    rcases cell thereAfter with ⟨same, hereSame, rfl⟩
    cases here.symm.trans hereSame
    constructor
    · intro apart
      rw [summaryAt, summaryAt, Outcome.fail, if_neg apart.symm]
    · intro state apart
      rw [count_summaryAt, count_summaryAt, Outcome.fail, if_neg apart.symm]

/-- With a mistyped `wait` key in the first of two queues, only that count is
lost. -/
theorem summaries_with_mistyped_wait :
    let lens : BullMqLens := { prefix' := "bull".toList }
    let conn := Conn.answering plainApi plainWire (fun _ => none) {}
    let outcome : Outcome := fun _ cmd =>
      if cmd.1 = .hmget then .ok (.array [.null, .string "1".toList]) else .ok (.integer 3)
    let names := ["emails".toList, "jobs".toList]
    ∃ table, lens.summaries conn (outcome.fail (stateSlot 0 .waiting) wrongType) names = .ok table ∧
      table.map QueueSummary.name = names ∧
      table.map QueueSummary.paused = [true, true] ∧
      table.map (fun summary => summary.count .waiting) = [0, 3] ∧
      table.map (fun summary => summary.count .active) = [3, 3] := by
  intro lens conn outcome names
  have sends : conn.Sends := .inr fun _ _ => rfl
  rcases summaries_attributed lens conn outcome names sends with ⟨_, _, _, _, failing⟩
  rcases failing (stateSlot 0 .waiting) wrongType with ⟨table, ran, columns, _⟩
  have rows : table = names.mapIdx
      (lens.summaryAt plainApi (outcome.fail (stateSlot 0 .waiting) wrongType)) :=
    Except.ok.inj (ran.symm.trans (summaries_eq sends))
  refine ⟨table, ran, columns, ?_⟩
  rw [rows]
  decide +kernel

end BullMqLens

end Keylens.BullMq
