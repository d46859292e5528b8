import Keylens.Connection.Session

/-!
# How a session behaves

Whatever the client library answers, a session sends nothing but reads and `INFO`,
and it waits for the server only so often.
-/

namespace Keylens.Connection

open Keylens.Library

/-- Nothing is sent but the commands of the allowlist and the bare `INFO`. -/
def Call.ReadsOnly (api : ValueApi) (call : Call) : Prop :=
  ∀ cmd, call.Sends cmd → readOnlyCommand api cmd.1 cmd.2 = true ∨ cmd = (.other "INFO".toList, [])

/-- Such a call that has nothing to do with a scanner. -/
def Call.Plain (api : ValueApi) (call : Call) : Prop :=
  call.scans = false ∧ call.ReadsOnly api

/-- Every call of a session, on every path, is of a kind. -/
def Session.Asks {α : Type} (asks : Call → Prop) (session : Session α) : Prop :=
  session.run.Every calls.anything asks fun _ => True

/-- On every path a session waits for the server at most so often. -/
def Session.Waits {α : Type} (most : Nat) (session : Session α) : Prop :=
  session.run.Within (I := calls) Call.roundTrips most

/-- Whatever is answered, a session that succeeds gives a value of a kind. -/
def Session.Gives {α : Type} (gives : α → Prop) (session : Session α) : Prop :=
  session.run.Every calls.anything (fun _ => True) fun result =>
    ∀ value, result = .ok value → gives value

namespace Session

section Rules

variable {α β : Type} {asks : Call → Prop} {most more : Nat}
variable {session : Session α} {rest : α → Session β} {gives : α → Prop} {after : β → Prop}

theorem asks_give (result : Result α) : (give result).Asks asks := trivial

theorem asks_pure (value : α) : (pure value : Session α).Asks asks := trivial

theorem asks_ask {call : Call} (asking : asks call) (read : call.Answer → Result α) :
    (ask call read).Asks asks :=
  ⟨asking, fun _ _ => trivial⟩

theorem Asks.bind (first : session.Asks asks) (later : ∀ value, (rest value).Asks asks) :
    (session >>= rest).Asks asks :=
  Prog.Every.failing first (fun value _ => later value) fun _ _ => trivial

theorem Asks.attempt (asking : session.Asks asks) : session.attempt.Asks asks :=
  Prog.Every.bind asking fun _ _ => trivial

theorem Asks.readsOnly {api : ValueApi} (asks : session.Asks (Call.Plain api)) :
    session.Asks (Call.ReadsOnly api) :=
  Prog.Every.mono asks (fun _ plain => plain.2) fun _ _ => trivial

theorem gives_pure {value : α} (holds : gives value) : (pure value : Session α).Gives gives := by
  rintro _ ⟨⟩
  exact holds

theorem gives_give {result : Result α} (holds : ∀ value, result = .ok value → gives value) :
    (give result).Gives gives :=
  holds

theorem gives_true (session : Session α) : session.Gives fun _ => True :=
  Prog.Every.mono (Prog.every_true _) (fun _ _ => trivial) fun _ _ _ _ => trivial

theorem Gives.bind (first : session.Gives gives)
    (later : ∀ value, gives value → (rest value).Gives after) :
    (session >>= rest).Gives after := by
  apply Prog.Every.failing first
  · exact fun value holds => later value (holds value rfl)
  · rintro error _ _ ⟨⟩

theorem waits_give (result : Result α) : (give result).Waits most := trivial

theorem waits_pure (value : α) : (pure value : Session α).Waits most := trivial

theorem waits_ask {call : Call} (cheap : call.roundTrips ≤ most) (read : call.Answer → Result α) :
    (ask call read).Waits most :=
  ⟨cheap, fun _ => trivial⟩

theorem Waits.mono (waits : session.Waits most) (le : most ≤ more) : session.Waits more :=
  Prog.Within.mono waits le

theorem Waits.bind (first : session.Waits most) (later : ∀ value, (rest value).Waits more) :
    (session >>= rest).Waits (most + more) :=
  Prog.Within.failing first later

/-- What follows does not wait. -/
theorem Waits.then (first : session.Waits most) (later : ∀ value, (rest value).Waits 0) :
    (session >>= rest).Waits most :=
  first.bind later

/-- The same, where what follows depends on what is known of the value. -/
theorem Waits.bind_gives (first : session.Waits most) (given : session.Gives gives)
    (later : ∀ value, gives value → (rest value).Waits more) :
    (session >>= rest).Waits (most + more) := by
  rw [Waits, Prog.failing_bind]
  apply Prog.Within.bind_every first given
  intro result holds
  cases result with
  | ok value => exact later value (holds value rfl)
  | error error => trivial

theorem Waits.attempt (waits : session.Waits most) : session.attempt.Waits most := by
  change Prog.Within (I := calls) Call.roundTrips (most + 0) _
  exact Prog.Within.bind waits fun _ => trivial

end Rules

/-! ## Commands -/

variable (conn : Conn)

theorem asks_cmd (name : CmdName) (args : List Value) :
    (cmd conn name args).Asks (Call.Plain conn.client.api) := by
  rw [cmd]
  split
  next => exact asks_give _
  next allowed =>
      apply asks_ask
      refine ⟨rfl, ?_⟩
      intro sent isSent
      cases isSent
      exact .inl (by simpa using allowed)

theorem waits_cmd (name : CmdName) (args : List Value) : (cmd conn name args).Waits 1 := by
  rw [cmd]
  split
  next => exact waits_give _
  next => exact waits_ask (Nat.le_refl 1) _

variable {conn}

theorem asks_executeChunks {chunks : List (List Command)}
    (allowed : ∀ chunk ∈ chunks, ∀ cmd ∈ chunk, readOnlyCommand conn.client.api cmd.1 cmd.2) :
    (executeChunks chunks).Asks (Call.Plain conn.client.api) := by
  induction chunks with
  | nil => exact asks_pure _
  | cons chunk later ih =>
      have here : (Call.together chunk).Plain conn.client.api :=
        ⟨rfl, fun cmd sent => .inl (allowed chunk List.mem_cons_self cmd sent)⟩
      apply (asks_ask here _).bind
      intro replies
      apply (ih fun other member => allowed other (List.mem_cons_of_mem _ member)).bind
      exact fun _ => asks_pure _

theorem waits_executeChunks (chunks : List (List Command)) :
    (executeChunks chunks).Waits chunks.length := by
  induction chunks with
  | nil => exact waits_pure _
  | cons chunk later ih =>
      rw [List.length_cons, Nat.add_comm]
      apply (waits_ask (Nat.le_refl 1) _).bind
      exact fun _ => ih.then fun _ => waits_pure _

theorem asks_bufferAll (cmds : List Command) :
    (bufferAll cmds).Asks (Call.Plain conn.client.api) := by
  induction cmds with
  | nil => exact asks_pure _
  | cons cmd later ih => exact (asks_ask ⟨rfl, fun _ sent => sent.elim⟩ _).bind fun _ => ih

theorem waits_bufferAll (cmds : List Command) : (bufferAll cmds).Waits 0 := by
  induction cmds with
  | nil => exact waits_pure _
  | cons cmd later ih => exact (waits_ask (Nat.le_refl 0) _).then fun _ => ih

/-- A pipeline with a command that is not allowed sends nothing at all. -/
theorem asks_pipeline (conn : Conn) (cmds : List Command) :
    (pipeline conn cmds).Asks (Call.Plain conn.client.api) := by
  rw [pipeline]
  split
  next => exact asks_give _
  next noneRefused =>
      have allowed : ∀ cmd ∈ cmds, readOnlyCommand conn.client.api cmd.1 cmd.2 := by
        intro cmd member
        simpa using List.find?_eq_none.mp noneRefused cmd member
      rw [pipelineUnchecked]
      split
      next =>
          apply asks_executeChunks
          intro chunk inChunks cmd inChunk
          apply allowed
          rw [← flatten_chunks (by decide : 0 < 64) cmds]
          exact List.mem_flatten_of_mem inChunks inChunk
      next =>
          apply (asks_bufferAll cmds).bind
          exact fun _ => asks_ask ⟨rfl, fun cmd sent => .inl (allowed cmd sent)⟩ _

/-- How often a pipeline waits: on a cluster once for every 64 commands. -/
def pipelineTrips (conn : Conn) (count : Nat) : Nat :=
  if conn.client.isClustered then (count + 63) / 64 else 1

theorem waits_pipeline (conn : Conn) (cmds : List Command) :
    (pipeline conn cmds).Waits (pipelineTrips conn cmds.length) := by
  rw [pipeline]
  split
  next => exact waits_give _
  next =>
      rw [pipelineUnchecked, pipelineTrips]
      split
      next =>
          rw [← length_chunks (by decide : 0 < 64)]
          exact waits_executeChunks _
      next =>
          change Waits (0 + 1) _
          exact (waits_bufferAll cmds).bind fun _ => waits_ask (Nat.le_refl 1) _

/-- A short pipeline is one round trip, on a cluster too. -/
theorem waits_pipeline_short (conn : Conn) {cmds : List Command} (short : cmds.length ≤ 64) :
    (pipeline conn cmds).Waits 1 := by
  apply (waits_pipeline conn cmds).mono
  rw [pipelineTrips]
  split <;> omega

theorem pipelineTrips_mono (conn : Conn) {few many : Nat} (le : few ≤ many) :
    pipelineTrips conn few ≤ pipelineTrips conn many := by
  rw [pipelineTrips, pipelineTrips]
  split <;> omega

theorem asks_keyScanner (api : ValueApi) (pattern : Option Str) (count : Nat)
    (typeFilter : Option Str) :
    (keyScanner pattern count typeFilter).Asks (Call.ReadsOnly api) := by
  apply asks_ask
  intro cmd sent
  left
  rw [show cmd.1 = .scan from sent]
  rfl

theorem waits_keyScanner (pattern : Option Str) (count : Nat) (typeFilter : Option Str) :
    (keyScanner pattern count typeFilter).Waits 0 :=
  waits_ask (Nat.le_refl 0) _

theorem asks_nextPage (api : ValueApi) (scanner : Nat) :
    (nextPage scanner).Asks (Call.ReadsOnly api) := by
  apply asks_ask
  intro cmd sent
  left
  rw [show cmd.1 = .scan from sent]
  rfl

theorem waits_nextPage (scanner : Nat) : (nextPage scanner).Waits 1 :=
  waits_ask (Nat.le_refl 1) _

/-! ## Keys -/

theorem asks_keyHead (conn : Conn) (key : Str) :
    (keyHead conn key).Asks (Call.Plain conn.client.api) :=
  (asks_pipeline conn _).bind fun _ => asks_pure _

theorem waits_keyHead (conn : Conn) (key : Str) : (keyHead conn key).Waits 1 := by
  have short : (headCmds (conn.capabilities.has .memoryStats) key).length ≤ 64 := by
    rw [headCmds]
    split <;> simp
  exact (waits_pipeline_short conn short).then fun _ => waits_pure _

theorem asks_keySize (conn : Conn) (key : Str) (kind : Kind) :
    (keySize conn key kind).Asks (Call.Plain conn.client.api) := by
  rw [keySize]
  split
  next => exact (asks_cmd conn _ _).bind fun _ => asks_pure _
  next => exact asks_give _

theorem waits_keySize (conn : Conn) (key : Str) (kind : Kind) :
    (keySize conn key kind).Waits 1 := by
  rw [keySize]
  split
  next => exact (waits_cmd conn _ _).then fun _ => waits_pure _
  next => exact waits_give _

theorem asks_readValue (conn : Conn) (key : Str) (kind : Kind) (offset : Nat) :
    (readValue conn key kind offset).Asks (Call.Plain conn.client.api) := by
  apply (asks_give _).bind
  intro bounds
  cases kind with
  | none | other => exact asks_pure _
  | list | zset | stream => exact (asks_cmd conn _ _).bind fun _ => asks_pure _
  | string =>
      dsimp only
      split
      next => exact (asks_cmd conn _ _).bind fun _ => asks_pure _
      next => exact asks_pure _
  | hash | set =>
      dsimp only
      split
      next => exact (asks_cmd conn _ _).bind fun _ => asks_give _
      next => exact asks_pure _

theorem waits_readValue (conn : Conn) (key : Str) (kind : Kind) (offset : Nat) :
    (readValue conn key kind offset).Waits 1 := by
  change Waits (0 + 1) _
  apply (waits_give _).bind
  intro bounds
  cases kind with
  | none | other => exact waits_pure _
  | list | zset | stream => exact (waits_cmd conn _ _).then fun _ => waits_pure _
  | string =>
      dsimp only
      split
      next => exact (waits_cmd conn _ _).then fun _ => waits_pure _
      next => exact waits_pure _
  | hash | set =>
      dsimp only
      split
      next => exact (waits_cmd conn _ _).then fun _ => waits_give _
      next => exact waits_pure _

theorem asks_readKey (conn : Conn) (key : Str) :
    (readKey conn key).Asks (Call.Plain conn.client.api) := by
  rw [readKey]
  split
  next =>
      apply (asks_keyHead conn key).bind
      intro head
      split
      next => exact asks_pure _
      next =>
          apply (asks_keySize conn key head.kind).attempt.bind
          intro size
          apply (asks_readValue conn key head.kind 0).attempt.bind
          exact fun _ => asks_give _
  next =>
      apply (asks_pipeline conn _).bind
      intro replies
      dsimp only
      cases (conn.kindOf (replyAt replies slotType)).slot.bind fun s =>
          replyAt replies (valueBase + s) with
      | none => exact (asks_give _).bind fun _ => asks_pure _
      | some reply => exact (asks_give _).bind fun _ => asks_pure _

/-- What is read is about the key that was asked for. -/
theorem gives_readKey (conn : Conn) (key : Str) :
    (readKey conn key).Gives fun read => read.1.key = key := by
  rw [readKey]
  split
  next =>
      apply (gives_true _).bind
      intro head _
      split
      next => exact gives_pure rfl
      next =>
          apply (gives_true _).bind
          intro size _
          apply (gives_true _).bind
          intro value _
          apply gives_give
          intro read made
          cases value <;> cases made
          rfl
  next =>
      apply (gives_true _).bind
      intro replies _
      dsimp only
      cases (conn.kindOf (replyAt replies slotType)).slot.bind fun s =>
          replyAt replies (valueBase + s) with
      | none => exact (gives_true _).bind fun _ _ => gives_pure rfl
      | some reply => exact (gives_true _).bind fun _ _ => gives_pure rfl

/-- Everything about a key is one round trip, or three without every bounded read. -/
theorem waits_readKey (conn : Conn) (key : Str) : (readKey conn key).Waits 3 := by
  rw [readKey]
  split
  next =>
      change Waits (1 + 2) _
      apply (waits_keyHead conn key).bind
      intro head
      split
      next => exact waits_pure _
      next =>
          change Waits (1 + 1) _
          apply (waits_keySize conn key head.kind).attempt.bind
          intro size
          exact (waits_readValue conn key head.kind 0).attempt.then fun _ => waits_give _
  next =>
      have short : (speculativeCmds (conn.capabilities.has .memoryStats) key).length ≤ 64 := by
        rw [speculativeCmds]
        split <;> simp [speculativeKinds]
      change Waits (1 + 2) _
      apply (waits_pipeline_short conn short).bind
      intro replies
      dsimp only
      change Waits (0 + 2) _
      cases (conn.kindOf (replyAt replies slotType)).slot.bind fun s =>
          replyAt replies (valueBase + s) with
      | none => exact (waits_give _).bind fun _ => waits_pure _
      | some reply => exact (waits_give _).bind fun _ => waits_pure _

/-! ## Streams -/

theorem asks_groupConsumers (conn : Conn) (key name : Str) :
    (groupConsumers conn key name).Asks (Call.Plain conn.client.api) := by
  apply (asks_cmd conn _ _).attempt.bind
  intro reply
  cases reply <;> exact asks_pure _

theorem waits_groupConsumers (conn : Conn) (key name : Str) :
    (groupConsumers conn key name).Waits 1 := by
  apply (waits_cmd conn _ _).attempt.then
  intro reply
  cases reply <;> exact waits_pure _

theorem asks_pendingRange (conn : Conn) (key name : Str) (pending : Nat) :
    (pendingRange conn key name pending).Asks (Call.Plain conn.client.api) := by
  rw [pendingRange]
  split
  next =>
      apply (asks_cmd conn _ _).attempt.bind
      intro reply
      split <;> exact asks_pure _
  next => exact asks_pure _

theorem waits_pendingRange (conn : Conn) (key name : Str) (pending : Nat) :
    (pendingRange conn key name pending).Waits 1 := by
  rw [pendingRange]
  split
  next =>
      apply (waits_cmd conn _ _).attempt.then
      intro reply
      split <;> exact waits_pure _
  next => exact waits_pure _

theorem asks_groupInfos (conn : Conn) (key : Str) (replies : List Value) :
    (groupInfos conn key replies).Asks (Call.Plain conn.client.api) := by
  induction replies with
  | nil => exact asks_pure _
  | cons reply later ih =>
      apply Asks.bind
      · apply (asks_groupConsumers conn key _).bind
        intro consumers
        exact (asks_pendingRange conn key _ _).bind fun _ => asks_pure _
      · exact fun _ => ih.bind fun _ => asks_pure _

theorem waits_groupInfos (conn : Conn) (key : Str) (replies : List Value) :
    (groupInfos conn key replies).Waits (2 * replies.length) := by
  induction replies with
  | nil => exact waits_pure _
  | cons reply later ih =>
      rw [List.length_cons, Nat.mul_succ, Nat.add_comm]
      apply Waits.bind
      · change Waits (1 + 1) _
        apply (waits_groupConsumers conn key _).bind
        intro consumers
        exact (waits_pendingRange conn key _ _).then fun _ => waits_pure _
      · exact fun _ => ih.then fun _ => waits_pure _

theorem asks_streamInfo (conn : Conn) (key : Str) :
    (streamInfo conn key).Asks (Call.Plain conn.client.api) := by
  rw [streamInfo]
  split
  next => exact asks_give _
  next =>
      apply (asks_cmd conn _ _).bind
      intro raw
      apply (asks_cmd conn _ _).bind
      intro groups
      split
      next => exact (asks_groupInfos conn key _).bind fun _ => asks_pure _
      next => exact asks_pure _

/-- However many groups a stream has, few of them are inspected. -/
theorem waits_streamInfo (conn : Conn) (key : Str) :
    (streamInfo conn key).Waits (2 + 2 * Xinfo.maxGroups) := by
  rw [streamInfo]
  split
  next => exact waits_give _
  next =>
      rw [Nat.add_assoc 1 1]
      apply (waits_cmd conn _ _).bind
      intro raw
      apply (waits_cmd conn _ _).bind
      intro groups
      split
      next groups =>
          have few : ((groups.take Xinfo.maxGroups).filter (Xinfo.Named conn.client.api)).length ≤
              Xinfo.maxGroups :=
            (List.length_filter_le _ _).trans (List.length_take_le _ _)
          apply ((waits_groupInfos conn key _).mono (Nat.mul_le_mul_left 2 few)).then
          exact fun _ => waits_pure _
      next => exact waits_pure _

/-! ## The server -/

theorem asks_clusterTopology (conn : Conn) :
    (clusterTopology conn).Asks (Call.Plain conn.client.api) := by
  rw [clusterTopology]
  split
  next => exact asks_give _
  next =>
      apply (asks_cmd conn _ _).bind
      intro info
      dsimp only
      split
      next =>
          apply (asks_cmd conn _ _).attempt.bind
          intro nodes
          cases nodes <;> exact asks_pure _
      next => exact asks_pure _

theorem waits_clusterTopology (conn : Conn) : (clusterTopology conn).Waits 2 := by
  rw [clusterTopology]
  split
  next => exact waits_give _
  next =>
      change Waits (1 + 1) _
      apply (waits_cmd conn _ _).bind
      intro info
      dsimp only
      split
      next =>
          apply (waits_cmd conn _ _).attempt.then
          intro nodes
          cases nodes <;> exact waits_pure _
      next => exact waits_pure _

theorem asks_refreshInfo (api : ValueApi) (info : InfoApi) :
    (refreshInfo info).Asks (Call.Plain api) := by
  apply (asks_ask _ _).bind
  · exact fun _ => asks_pure _
  · refine ⟨rfl, ?_⟩
    intro cmd sent
    cases sent
    exact .inr rfl

theorem waits_refreshInfo (info : InfoApi) : (refreshInfo info).Waits 1 :=
  (waits_ask (Nat.le_refl 1) _).then fun _ => waits_pure _

end Session

end Keylens.Connection
