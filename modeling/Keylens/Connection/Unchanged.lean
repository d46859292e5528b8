import Keylens.Connection.Session

/-!
# Sessions over a client that answers the same at any time

Over a client that answers every command the same at any time, a session comes to
what the plain function says, whatever other tasks do in between.
-/

namespace Keylens.Connection

open Keylens.Library

/-- How a client that answers every command the same at any time answers a call; what
a scan finds is left open. -/
def Client.Tells (client : Client) : calls.Answers
  | .custom name args, answer => answer = client.custom name args
  | .together cmds, answer => answer.val = cmds.map fun cmd => client.custom cmd.1 cmd.2
  | .buffer name args, answer => answer = client.buffer name args
  | .tryAll cmds, answer => answer = client.tryAll cmds
  | .openScan _ _ _, _ | .nextPage _, _ => True

/-- Over a client, a session comes to a result. -/
def Session.ComesTo {α : Type} (client : Client) (session : Session α) (result : Result α) :
    Prop :=
  session.run.Every client.Tells (fun _ => True) fun found => found = result

namespace Session

variable {α β : Type} {client : Client} {session : Session α} {result : Result α}

theorem comesTo_give (result : Result α) : (give result).ComesTo client result := rfl

theorem comesTo_pure (value : α) : (pure value : Session α).ComesTo client (.ok value) := rfl

theorem comesTo_ask {call : Call} {read : call.Answer → Result α}
    (reads : ∀ answer : call.Answer, client.Tells call answer → read answer = result) :
    (ask call read).ComesTo client result :=
  ⟨trivial, reads⟩

theorem ComesTo.bind {rest : α → Session β} {plain : α → Result β}
    (first : session.ComesTo client result)
    (later : ∀ value, (rest value).ComesTo client (plain value)) :
    (session >>= rest).ComesTo client (result >>= plain) := by
  apply Prog.Every.failing first
  · rintro value rfl
    exact later value
  · rintro error rfl
    rfl

theorem ComesTo.attempt (comes : session.ComesTo client result) :
    session.attempt.ComesTo client (.ok result) := by
  apply Prog.Every.bind comes
  rintro _ rfl
  rfl

/-- Going on from a value that is known. -/
theorem ComesTo.bind_ok {rest : α → Session β} {value : α} {plain : Result β}
    (first : session.ComesTo client (.ok value)) (later : (rest value).ComesTo client plain) :
    (session >>= rest).ComesTo client plain := by
  apply Prog.Every.failing first
  · rintro _ ⟨⟩
    exact later
  · rintro _ ⟨⟩

/-! ## Commands -/

variable (conn : Conn)

theorem execute_comesTo (name : CmdName) (args : List Value) :
    (execute name args).ComesTo conn.client (conn.execute name args) := by
  apply comesTo_ask
  rintro _ rfl
  rfl

theorem cmd_comesTo (name : CmdName) (args : List Value) :
    (cmd conn name args).ComesTo conn.client (conn.cmd name args) := by
  rw [cmd, Conn.cmd]
  split
  next => exact comesTo_give _
  next => exact execute_comesTo conn name args

theorem executeChunks_comesTo (chunks : List (List Command)) :
    (executeChunks chunks).ComesTo conn.client
      (.ok (chunks.flatMap fun chunk => chunk.map fun cmd => conn.execute cmd.1 cmd.2)) := by
  induction chunks with
  | nil => exact comesTo_pure _
  | cons chunk later ih =>
      have here : (ask (.together chunk) fun replies : Call.Answer (.together chunk) =>
          .ok (attributed chunk replies.val)).ComesTo conn.client
          (.ok (chunk.map fun cmd => conn.execute cmd.1 cmd.2)) := by
        apply comesTo_ask
        intro replies told
        have same : replies.val = chunk.map fun cmd => conn.client.custom cmd.1 cmd.2 := told
        rw [same, attributed, List.map_zip_eq_zipWith, List.zipWith_map_left, List.zipWith_self]
        rfl
      exact here.bind fun replies => ih.bind fun others => comesTo_pure _

theorem bufferAll_comesTo (cmds : List Command) :
    (bufferAll cmds).ComesTo conn.client (cmds.forM fun cmd =>
      (conn.client.buffer cmd.1 cmd.2).mapError (.command (.other "PIPELINE".toList))) := by
  induction cmds with
  | nil => exact comesTo_pure _
  | cons cmd later ih =>
      have here : (ask (.buffer cmd.1 cmd.2) fun buffered : Except ClientError Unit =>
          (buffered.mapError (.command (.other "PIPELINE".toList)) : Result Unit)).ComesTo
          conn.client
          ((conn.client.buffer cmd.1 cmd.2).mapError
            (.command (.other "PIPELINE".toList))) := by
        apply comesTo_ask
        rintro _ rfl
        rfl
      exact here.bind fun _ => ih

theorem pipeline_comesTo (cmds : List Command) :
    (pipeline conn cmds).ComesTo conn.client (conn.pipeline cmds) := by
  rw [pipeline, Conn.pipeline]
  cases cmds.find? fun cmd => !readOnlyCommand conn.client.api cmd.1 cmd.2 with
  | some cmd => exact comesTo_give _
  | none =>
      dsimp only
      rw [pipelineUnchecked, Conn.pipelineUnchecked]
      split
      next => exact executeChunks_comesTo conn _
      next =>
          apply (bufferAll_comesTo conn cmds).bind
          intro _
          apply comesTo_ask
          rintro _ rfl
          rfl

/-! ## Keys -/

theorem keyHead_comesTo (key : Str) :
    (keyHead conn key).ComesTo conn.client (conn.keyHead key) :=
  (pipeline_comesTo conn _).bind fun _ => comesTo_pure _

theorem keySize_comesTo (key : Str) (kind : Kind) :
    (keySize conn key kind).ComesTo conn.client (conn.keySize key kind) := by
  rw [keySize, Conn.keySize]
  cases kind.sizeCmd with
  | none => exact comesTo_give _
  | some name => exact (cmd_comesTo conn name _).bind fun _ => comesTo_pure _

theorem readValue_comesTo (key : Str) (kind : Kind) (offset : Nat) :
    (readValue conn key kind offset).ComesTo conn.client (conn.readValue key kind offset) := by
  apply (comesTo_give _).bind
  intro bounds
  cases kind with
  | none | other => exact comesTo_pure _
  | list | zset | stream => exact (cmd_comesTo conn _ _).bind fun _ => comesTo_pure _
  | string =>
      dsimp only
      split
      next => exact (cmd_comesTo conn _ _).bind fun _ => comesTo_pure _
      next => exact comesTo_pure _
  | hash | set =>
      dsimp only
      split
      next => exact (cmd_comesTo conn _ _).bind fun _ => comesTo_give _
      next => exact comesTo_pure _

theorem readKey_comesTo (key : Str) :
    (readKey conn key).ComesTo conn.client (conn.readKey key) := by
  rw [readKey, Conn.readKey]
  split
  next =>
      apply (keyHead_comesTo conn key).bind
      intro head
      split
      next => exact comesTo_pure _
      next =>
          apply (keySize_comesTo conn key head.kind).attempt.bind_ok
          apply (readValue_comesTo conn key head.kind 0).attempt.bind_ok
          exact comesTo_give _
  next =>
      apply (pipeline_comesTo conn _).bind
      intro replies
      dsimp only
      cases (conn.kindOf (replyAt replies slotType)).slot.bind fun s =>
          replyAt replies (valueBase + s) with
      | none => exact (comesTo_give _).bind fun _ => comesTo_pure _
      | some reply => exact (comesTo_give _).bind fun _ => comesTo_pure _

/-! ## Streams -/

theorem groupConsumers_comesTo (key name : Str) :
    (groupConsumers conn key name).ComesTo conn.client (.ok (conn.groupConsumers key name)) := by
  apply (cmd_comesTo conn _ _).attempt.bind_ok
  rw [Conn.groupConsumers]
  cases conn.cmd .xinfo [.string "CONSUMERS".toList, .string key, .string name] <;>
    exact comesTo_pure _

theorem pendingRange_comesTo (key name : Str) (pending : Nat) :
    (pendingRange conn key name pending).ComesTo conn.client
      (.ok (conn.pendingRange key name pending)) := by
  rw [pendingRange, Conn.pendingRange]
  split
  next =>
      apply (cmd_comesTo conn _ _).attempt.bind_ok
      cases conn.cmd .xpending [.string key, .string name] with
      | error error => exact comesTo_pure _
      | ok reply =>
          cases reply with
          | array summary =>
              rcases summary with _ | ⟨_, _ | ⟨_, _ | ⟨_, _⟩⟩⟩ <;> exact comesTo_pure _
          | _ => exact comesTo_pure _
  next => exact comesTo_pure _

theorem groupInfo_comesTo (key : Str) (reply : Value) :
    (groupInfo conn key reply).ComesTo conn.client (.ok (conn.groupInfo key reply)) := by
  apply (groupConsumers_comesTo conn key _).bind_ok
  apply (pendingRange_comesTo conn key _ _).bind_ok
  exact comesTo_pure _

theorem groupInfos_comesTo (key : Str) (replies : List Value) :
    (groupInfos conn key replies).ComesTo conn.client (.ok (replies.map (conn.groupInfo key))) := by
  induction replies with
  | nil => exact comesTo_pure _
  | cons reply later ih =>
      apply (groupInfo_comesTo conn key reply).bind_ok
      exact ih.bind_ok (comesTo_pure _)

theorem streamInfo_comesTo (key : Str) :
    (streamInfo conn key).ComesTo conn.client (conn.streamInfo key) := by
  rw [streamInfo, Conn.streamInfo]
  split
  next => exact comesTo_give _
  next =>
      apply (cmd_comesTo conn _ _).bind
      intro raw
      apply (cmd_comesTo conn _ _).bind
      intro groups
      cases groups with
      | array groups => exact (groupInfos_comesTo conn key _).bind_ok (comesTo_pure _)
      | _ => exact comesTo_pure _

/-! ## The server -/

theorem clusterTopology_comesTo :
    (clusterTopology conn).ComesTo conn.client conn.clusterTopology := by
  rw [clusterTopology, Conn.clusterTopology]
  split
  next => exact comesTo_give _
  next =>
      apply (cmd_comesTo conn _ _).bind
      intro info
      dsimp only
      split
      next =>
          apply (cmd_comesTo conn _ _).attempt.bind_ok
          cases conn.cmd .cluster [.string "NODES".toList] <;> exact comesTo_pure _
      next => exact comesTo_pure _

theorem refreshInfo_comesTo (api : InfoApi) :
    (refreshInfo api).ComesTo conn.client (conn.refreshInfo api) := by
  have raw : (rawInfo api).ComesTo conn.client (Connection.rawInfo api conn.client) := by
    apply comesTo_ask
    rintro _ rfl
    rfl
  have mapped : conn.refreshInfo api =
      Connection.rawInfo api conn.client >>= fun raw => .ok (ServerInfo.parse raw) := by
    rw [Conn.refreshInfo]
    cases Connection.rawInfo api conn.client <;> rfl
  rw [mapped]
  exact raw.bind fun _ => comesTo_pure _

end Session

end Keylens.Connection
