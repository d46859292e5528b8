import Keylens.Connection.Command
import Keylens.Library.Blocks

/-!
# One run of a pipeline

`Client` answers equal commands equally.  Between two commands of one pipeline a
key may change and a connection may fail, so a run of `pipeline` is modelled over
any outcome of each command separately.
-/

namespace Keylens.Connection

open Keylens.Library

/-- What each command of one pipeline ends in, by its place. -/
abbrev Outcome := Nat → Command → Except ClientError Value

/-- The outcome with the command in one place failing instead. -/
def Outcome.fail (outcome : Outcome) (slot : Nat) (error : ClientError) : Outcome :=
  fun place cmd => if place = slot then .error error else outcome place cmd

/-- A computation that succeeds has succeeded at each step. -/
theorem bind_eq_ok {ε α β : Type} {first : Except ε α} {rest : α → Except ε β} {value : β} :
    first >>= rest = .ok value ↔ ∃ middle, first = .ok middle ∧ rest middle = .ok value := by
  cases first with
  | error error => simp [bind, Except.bind]
  | ok middle => simp [bind, Except.bind]

namespace Conn

/-- `pipeline` when the commands end in the given outcomes. -/
def pipelineRun (conn : Conn) (outcome : Outcome) (cmds : List Command) :
    Result (List (Result Value)) :=
  match cmds.find? fun cmd => !readOnlyCommand conn.client.api cmd.1 cmd.2 with
  | some cmd => .error (.unsafeCommand cmd.1)
  | none =>
      if conn.client.isClustered then
        .ok ((chunks 64 cmds).foldl (fun replies chunk =>
          replies ++ chunk.mapIdx fun i cmd =>
            (outcome (replies.length + i) cmd).mapError (.command cmd.1)) [])
      else do
        cmds.forM fun cmd =>
          (conn.client.buffer cmd.1 cmd.2).mapError (.command (.other "PIPELINE".toList))
        let replies := cmds.mapIdx outcome
        if replies.length ≠ cmds.length then
          .error (.reply (.other "PIPELINE".toList)
            ("expected ".toList ++ decimal cmds.length ++ " replies, got ".toList ++
              decimal replies.length))
        else
          .ok ((replies.zip cmds).map fun (reply, cmd) => reply.mapError (.command cmd.1))

/-- The commands of a pipeline can be sent: a cluster takes them one by one, any
other server once all are buffered. -/
def Sends (conn : Conn) : Prop :=
  conn.client.isClustered ∨ ∀ name args, conn.client.buffer name args = .ok ()

/-- Both branches report every outcome in the place of its command. -/
theorem pipelineRun_eq {conn : Conn} (sends : conn.Sends) (outcome : Outcome)
    {cmds : List Command}
    (allowed : ∀ cmd ∈ cmds, readOnlyCommand conn.client.api cmd.1 cmd.2) :
    conn.pipelineRun outcome cmds =
      .ok (cmds.mapIdx fun place cmd => (outcome place cmd).mapError (.command cmd.1)) := by
  rw [pipelineRun, find?_refused_eq_none allowed]
  dsimp only
  split
  next clustered =>
      rw [foldl_mapIdx fun place cmd => (outcome place cmd).mapError (ConnError.command cmd.1),
        flatten_chunks (by decide)]
  next standalone =>
      have buffers : ∀ name args, conn.client.buffer name args = .ok () :=
        sends.resolve_left standalone
      have zipped : ((cmds.mapIdx outcome).zip cmds).map
          (fun (reply, cmd) => reply.mapError (ConnError.command cmd.1)) =
          cmds.mapIdx fun place cmd => (outcome place cmd).mapError (.command cmd.1) := by
        apply List.ext_getElem?
        intro place
        simp only [List.getElem?_map, List.getElem?_mapIdx, List.zip,
          List.getElem?_zipWith]
        cases cmds[place]? <;> rfl
      rw [forM_buffer buffers, ← zipped]
      simp only [List.length_mapIdx, ne_eq, not_true_eq_false, if_false]
      rfl

/-- A client that answers pipelines command by command has one outcome for each
command, wherever it stands. -/
theorem pipeline_eq_pipelineRun {conn : Conn} (pipelines : conn.client.Pipelines)
    {cmds : List Command}
    (allowed : ∀ cmd ∈ cmds, readOnlyCommand conn.client.api cmd.1 cmd.2) :
    conn.pipeline cmds = conn.pipelineRun (fun _ cmd => conn.client.custom cmd.1 cmd.2) cmds := by
  rw [pipeline_eq pipelines allowed, pipelineRun_eq (.inr pipelines.buffer_ok) _ allowed]
  congr 1
  apply List.ext_getElem?
  intro place
  rw [List.getElem?_map, List.getElem?_mapIdx]
  rfl

/-! ## Slots -/

/-- Both branches have a slot for each command. -/
theorem length_of_pipeline {conn : Conn} {cmds : List Command}
    {replies : List (Result Value)} (answered : conn.pipeline cmds = .ok replies) :
    replies.length = cmds.length := by
  rw [pipeline] at answered
  split at answered
  next => cases answered
  next =>
      rw [pipelineUnchecked] at answered
      split at answered
      next =>
          cases answered
          rw [List.flatMap_def, ← List.map_flatten, flatten_chunks (by decide), List.length_map]
      next =>
          rcases bind_eq_ok.mp answered with ⟨_, _, rest⟩
          dsimp only at rest
          split at rest
          next => cases rest
          next sameLength =>
              cases rest
              rw [List.length_map, List.length_zip, min_eq_right]
              exact (not_not.mp sameLength).ge

end Conn

end Keylens.Connection
