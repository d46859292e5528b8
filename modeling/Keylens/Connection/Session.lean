import Keylens.Connection.Cluster
import Keylens.Connection.Info
import Keylens.Connection.Stream
import Keylens.Library.Prog

/-!
# Talking to the client library

The reads of a connection call by call, so that other tasks can come in between
and the keyspace can change.  Of the connection they use only what it knows
without asking.  Over a client that answers the same at any time, they come to
what `Conn` says.
-/

namespace Keylens.Connection

open Keylens.Library

/-- One call of the client library. -/
inductive Call where
  | custom (name : CmdName) (args : List Value)
  /-- Commands that are awaited together. -/
  | together (cmds : List Command)
  /-- Put a command into a pipeline; nothing is sent. -/
  | buffer (name : CmdName) (args : List Value)
  | tryAll (cmds : List Command)
  | openScan (pattern : Str) (count : Nat) (typeFilter : Option Str)
  | nextPage (scanner : Nat)

/-- What comes back from a call; a scanner is known by its number. -/
def Call.Answer : Call → Type
  | .custom _ _ => Except ClientError Value
  | .together cmds => { replies : List (Except ClientError Value) // replies.length = cmds.length }
  | .buffer _ _ => Except ClientError Unit
  | .tryAll _ => List (Except ClientError Value)
  | .openScan _ _ _ => Nat
  | .nextPage _ => Except ClientError (Option (List Str))

/-- A call sends a command.  The arguments of `SCAN` are the client library's own. -/
def Call.Sends (call : Call) (cmd : Command) : Prop :=
  match call with
  | .custom name args => cmd = (name, args)
  | .together cmds | .tryAll cmds => cmd ∈ cmds
  | .buffer _ _ => False
  | .openScan _ _ _ | .nextPage _ => cmd.1 = .scan

/-- A call has to do with a scanner. -/
def Call.scans : Call → Bool
  | .openScan _ _ _ | .nextPage _ => true
  | _ => false

/-- How often a call waits for the server. -/
def Call.roundTrips : Call → Nat
  | .buffer _ _ | .openScan _ _ _ => 0
  | .custom _ _ | .together _ | .tryAll _ | .nextPage _ => 1

def calls : Interface :=
  { Call, Answer := Call.Answer }

/-- A computation that talks to the client library and may fail. -/
abbrev Session (α : Type) := ExceptT ConnError (Prog calls) α

namespace Session

variable {α β : Type}

/-- No call at all. -/
def give (result : Result α) : Session α :=
  ExceptT.mk (.done result)

/-- One call, and what is made of its answer. -/
def ask (call : Call) (read : call.Answer → Result α) : Session α :=
  ExceptT.mk (.ask call fun answer => .done (read answer))

/-- The outcome of a session, whatever it is. -/
def attempt (session : Session α) : Session (Result α) :=
  ExceptT.mk (session.run >>= fun result => .done (.ok result))

/-! ## Commands -/

section Conn

variable (conn : Conn)

def execute (name : CmdName) (args : List Value) : Session Value :=
  ask (.custom name args) fun reply => reply.mapError (.command name)

/-- Run a command through the read-only allowlist. -/
def cmd (name : CmdName) (args : List Value) : Session Value :=
  if !readOnlyCommand conn.client.api name args then give (.error (.unsafeCommand name))
  else execute name args

/-- Each reply in the place of its command. -/
def attributed (cmds : List Command) (replies : List (Except ClientError Value)) :
    List (Result Value) :=
  (replies.zip cmds).map fun (reply, cmd) => reply.mapError (.command cmd.1)

/-- Send some chunks of commands, each chunk when the one before is answered. -/
def executeChunks : List (List Command) → Session (List (Result Value))
  | [] => return []
  | chunk :: later => do
      let replies ← ask (.together chunk) fun replies => .ok (attributed chunk replies.val)
      let others ← executeChunks later
      return replies ++ others

def bufferAll : List Command → Session Unit
  | [] => return ()
  | cmd :: later => do
      ask (.buffer cmd.1 cmd.2) fun buffered =>
        buffered.mapError (.command (.other "PIPELINE".toList))
      bufferAll later

def pipelineUnchecked (cmds : List Command) : Session (List (Result Value)) :=
  if conn.client.isClustered then executeChunks (chunks 64 cmds)
  else do
    bufferAll cmds
    ask (.tryAll cmds) fun replies =>
      if replies.length ≠ cmds.length then
        .error (.reply (.other "PIPELINE".toList)
          ("expected ".toList ++ decimal cmds.length ++ " replies, got ".toList ++
            decimal replies.length))
      else .ok (attributed cmds replies)

/-- Run many commands in one round trip, reporting each outcome separately. -/
def pipeline (cmds : List Command) : Session (List (Result Value)) :=
  match cmds.find? fun cmd => !readOnlyCommand conn.client.api cmd.1 cmd.2 with
  | some cmd => give (.error (.unsafeCommand cmd.1))
  | none => pipelineUnchecked conn cmds

/-- Start a throttled scan. -/
def keyScanner (pattern : Option Str) (count : Nat) (typeFilter : Option Str) : Session Nat :=
  ask (.openScan (pattern.getD "*".toList) count typeFilter) .ok

/-- The next page, or `none` at the end. -/
def nextPage (scanner : Nat) : Session (Option (List Str)) :=
  ask (.nextPage scanner) fun page => page.mapError (.command .scan)

/-! ## Keys -/

def keyHead (key : Str) : Session KeyHead := do
  let wantMemory := conn.capabilities.has .memoryStats
  let replies ← pipeline conn (headCmds wantMemory key)
  return {
    kind := conn.kindOf (replyAt replies 0)
    ttlMs := conn.ttlOf (replyAt replies 1)
    memory := if wantMemory then (replyAt replies 2).bind conn.client.api.asU64 else none }

def keySize (key : Str) (kind : Kind) : Session Nat :=
  match kind.sizeCmd with
  | some name => do
      let reply ← cmd conn name [.string key]
      return (conn.client.api.asU64 reply).getD 0
  | none => give (.ok 0)

/-- Read up to a page of elements starting at `offset`. -/
def readValue (key : Str) (kind : Kind) (offset : Nat) : Session KeyValue := do
  let (start, stop) ← give (pageBounds offset kind)
  match kind with
  | .none => return .missing
  | .string =>
      if conn.capabilities.has .getRange then
        let reply ← cmd conn .getrange
          [.string key, .integer 0, .integer (maxStringBound - 1)]
        return conn.client.api.decodeString reply
      else
        return .unsupported "this server has no bounded string read (GETRANGE)".toList
  | .list =>
      let reply ← cmd conn .lrange [.string key, .integer start, .integer stop]
      return .list (conn.client.api.asStringVec reply)
  | .zset =>
      let reply ← cmd conn .zrange
        [.string key, .integer start, .integer stop, .string "WITHSCORES".toList]
      return .zset (conn.client.api.asScoredPairs reply)
  | .hash =>
      if conn.capabilities.has .cursorCollectionScan then
        let reply ← cmd conn .hscan
          [.string key, .string "0".toList, .string "COUNT".toList, .integer pageBound]
        give (conn.client.api.decodeHash reply)
      else
        return .unsupported "this server has no bounded hash read (HSCAN)".toList
  | .set =>
      if conn.capabilities.has .cursorCollectionScan then
        let reply ← cmd conn .sscan
          [.string key, .string "0".toList, .string "COUNT".toList, .integer pageBound]
        give (conn.client.api.decodeSet reply)
      else
        return .unsupported "this server has no bounded set read (SSCAN)".toList
  | .stream =>
      let reply ← cmd conn .xrange
        [.string key, .string "-".toList, .string "+".toList, .string "COUNT".toList,
          .integer pageBound]
      return .stream (conn.client.api.asStreamEntries reply)
  | .other => return absent .other

/-- Size and value go out together, the command for the size first. -/
def readKeySequentially (key : Str) : Session (KeyMeta × KeyValue) := do
  let head ← keyHead conn key
  if head.kind = .none then
    return ({ key, kind := head.kind, ttlMs := none, size := 0, memory := none }, .missing)
  else
    let size ← attempt (keySize conn key head.kind)
    let value ← attempt (readValue conn key head.kind 0)
    give do
      return ({ key, kind := head.kind, ttlMs := head.ttlMs, size := size.toOption.getD 0,
                memory := head.memory }, ← value)

def readKey (key : Str) : Session (KeyMeta × KeyValue) :=
  if !(conn.capabilities.has .getRange && conn.capabilities.has .cursorCollectionScan) then
    readKeySequentially conn key
  else do
    let wantMemory := conn.capabilities.has .memoryStats
    let replies ← pipeline conn (speculativeCmds wantMemory key)
    let kind := conn.kindOf (replyAt replies slotType)
    let slot := kind.slot
    let keyMeta : KeyMeta := {
      key
      kind
      ttlMs := conn.ttlOf (replyAt replies slotPttl)
      size := ((slot.bind fun s => replyAt replies (sizeBase + s)).bind
        conn.client.api.asU64).getD 0
      memory :=
        if wantMemory then (replyAt replies slotMemory).bind conn.client.api.asU64 else none }
    let value ← match slot.bind fun s => replyAt replies (valueBase + s) with
      | some reply => give (conn.client.api.decodeValue kind reply)
      | none => give (.ok (absent kind))
    return (keyMeta, value)

/-! ## Streams -/

/-- The consumers of a group; a refused command leaves none. -/
def groupConsumers (key name : Str) : Session (List ConsumerInfo) := do
  match ← attempt (cmd conn .xinfo [.string "CONSUMERS".toList, .string key, .string name]) with
  | .ok reply => return Xinfo.parseConsumers conn.client.api reply
  | .error _ => return []

/-- The id range still outstanding, asked for only where something is pending. -/
def pendingRange (key name : Str) (pending : Nat) : Session (Str × Str) := do
  if 0 < pending then
    match ← attempt (cmd conn .xpending [.string key, .string name]) with
    | .ok (.array (_ :: low :: high :: _)) =>
        return (conn.client.api.displayString low, conn.client.api.displayString high)
    | _ => return ([], [])
  else return ([], [])

/-- One group of `XINFO GROUPS`. -/
def groupInfo (key : Str) (reply : Value) : Session GroupInfo := do
  let api := conn.client.api
  let fields := Xinfo.fields api reply
  let name := Xinfo.text api fields "name".toList
  let pending := Xinfo.counter api fields "pending".toList
  let consumers ← groupConsumers conn key name
  let (pendingMinId, pendingMaxId) ← pendingRange conn key name pending
  return {
    name
    consumerCount := Xinfo.counter api fields "consumers".toList
    pending
    lastDeliveredId := Xinfo.text api fields "last-delivered-id".toList
    entriesRead := Xinfo.num api fields "entries-read".toList
    lag := Xinfo.num api fields "lag".toList
    consumers
    pendingMinId
    pendingMaxId }

/-- The groups one after the other. -/
def groupInfos (key : Str) : List Value → Session (List GroupInfo)
  | [] => return []
  | reply :: later => do
      let group ← groupInfo conn key reply
      let groups ← groupInfos key later
      return group :: groups

def streamInfo (key : Str) : Session StreamInfo :=
  if !conn.supportsStreams then give (.ok .empty)
  else do
    let api := conn.client.api
    let raw ← cmd conn .xinfo [.string "STREAM".toList, .string key]
    let fields := Xinfo.fields api raw
    let info : StreamInfo :=
      { length := Xinfo.counter api fields "length".toList
        entriesAdded := (Xinfo.num api fields "entries-added".toList).map Machine.asUnsigned
        lastGeneratedId := Xinfo.text api fields "last-generated-id".toList
        maxDeletedId := Xinfo.text api fields "max-deleted-entry-id".toList
        firstEntryId := Xinfo.text api fields "recorded-first-entry-id".toList
        groups := []
        groupsTruncated := false }
    match ← cmd conn .xinfo [.string "GROUPS".toList, .string key] with
    | .array groups =>
        let inspected ← groupInfos conn key
          ((groups.take Xinfo.maxGroups).filter (Xinfo.Named api))
        return { info with
          groupsTruncated := Xinfo.maxGroups < groups.length
          groups := inspected }
    | _ => return info

/-! ## The server -/

def clusterTopology : Session ClusterTopology :=
  if !conn.capabilities.has .cluster then give (.ok .empty)
  else do
    let api := conn.client.api
    let info ← cmd conn .cluster [.string "INFO".toList]
    let topology := parseClusterInfo (api.displayString info)
    if topology.enabled then
      match ← attempt (cmd conn .cluster [.string "NODES".toList]) with
      | .ok nodes => return { topology with nodes := parseClusterNodes (api.displayString nodes) }
      | .error _ => return topology
    else return topology

def rawInfo (api : InfoApi) : Session Str :=
  ask (.custom (.other "INFO".toList) []) fun reply =>
    (reply.bind api.text).mapError (.command (.other "INFO".toList))

/-- Re-read `INFO`. -/
def refreshInfo (api : InfoApi) : Session ServerInfo := do
  let raw ← rawInfo api
  return ServerInfo.parse raw

end Conn

end Session

end Keylens.Connection
