import Keylens.Connection.Value
import Keylens.Library.Text

/-!
# Commands and pipelines

All access to the server goes through `Conn`.  A command has to pass the
read-only allowlist; a pipeline reports the outcome of each of its commands
separately.  The client library is a parameter: `Client` says what each command
answers while the keyspace does not change.
-/

namespace Keylens.Connection

open Keylens.Library

/-- Something the server may or may not offer. -/
inductive Feature where
  | serverInfo | config | clientList | slowlog | memoryStats | cluster | modules
  | scanTypeFilter | getRange | cursorCollectionScan | streams | pubSub
  deriving DecidableEq, Repr

inductive Availability where
  | available
  | denied (why : Str)
  | unsupported
  deriving DecidableEq, Repr

/-- Why something is not available. -/
def Availability.reason : Availability → Option Str
  | .available => none
  | .denied why => some why
  | .unsupported => some "not implemented by this server".toList

/-- What the server offers; a feature that was never probed is unsupported. -/
structure Capabilities where
  get : Feature → Availability := fun _ => .unsupported

def Capabilities.has (capabilities : Capabilities) (feature : Feature) : Bool :=
  capabilities.get feature = .available

/-- The name of a command. -/
inductive CmdName where
  | client | cluster | config | memory | module | pubsub | slowlog | xinfo
  | getrange | hget | hmget | hscan | hlen | llen | lrange | pttl | scan
  | scard | sscan | strlen | type | xlen | xpending | xrange | zcard
  | zrange | zrevrange
  | other (name : Str)
  deriving DecidableEq, Repr

/-- The name as it is sent. -/
def CmdName.text : CmdName → Str
  | .client => "CLIENT".toList
  | .cluster => "CLUSTER".toList
  | .config => "CONFIG".toList
  | .memory => "MEMORY".toList
  | .module => "MODULE".toList
  | .pubsub => "PUBSUB".toList
  | .slowlog => "SLOWLOG".toList
  | .xinfo => "XINFO".toList
  | .getrange => "GETRANGE".toList
  | .hget => "HGET".toList
  | .hmget => "HMGET".toList
  | .hscan => "HSCAN".toList
  | .hlen => "HLEN".toList
  | .llen => "LLEN".toList
  | .lrange => "LRANGE".toList
  | .pttl => "PTTL".toList
  | .scan => "SCAN".toList
  | .scard => "SCARD".toList
  | .sscan => "SSCAN".toList
  | .strlen => "STRLEN".toList
  | .type => "TYPE".toList
  | .xlen => "XLEN".toList
  | .xpending => "XPENDING".toList
  | .xrange => "XRANGE".toList
  | .zcard => "ZCARD".toList
  | .zrange => "ZRANGE".toList
  | .zrevrange => "ZREVRANGE".toList
  | .other name => name

/-- A command with its arguments. -/
abbrev Command := CmdName × List Value

/-- The kinds of error of the client library, by the name that is printed.  Only two of them
are told apart. -/
inductive ErrorKind where
  | protocol | parse
  | other (name : Str)
  deriving DecidableEq, Repr

def ErrorKind.text : ErrorKind → Str
  | .protocol => "Protocol Error".toList
  | .parse => "Parse Error".toList
  | .other name => name

/-- An error of the client library.  For one that the server answers with, the details are
the server's own words. -/
structure ClientError where
  kind : ErrorKind
  details : Str
  deriving DecidableEq, Repr

/-- How an error is printed. -/
def ClientError.text (error : ClientError) : Str :=
  error.kind.text ++ ": ".toList ++ error.details

/-- The errors a command can end in. -/
inductive ConnError where
  | command (cmd : CmdName) (source : ClientError)
  | reply (cmd : CmdName) (detail : Str)
  | range (cmd : CmdName) (offset : Nat) (detail : Str)
  | unsafeCommand (cmd : CmdName)
  deriving DecidableEq, Repr

/-- The message of an error. -/
def ConnError.text : ConnError → Str
  | .command cmd source =>
      "command `".toList ++ cmd.text ++ "` failed: ".toList ++ source.text
  | .reply cmd detail =>
      "unexpected reply shape for `".toList ++ cmd.text ++ "`: ".toList ++ detail
  | .range cmd offset detail =>
      "cannot page `".toList ++ cmd.text ++ "` from offset ".toList ++ decimal offset ++
        ": ".toList ++ detail
  | .unsafeCommand cmd =>
      "command `".toList ++ cmd.text ++
        "` is not allowed through the read-only connection API".toList

abbrev Result (α : Type) := Except ConnError α

/-- The `CONFIG GET` parameters a lens may ask for. -/
def configParams : List Str :=
  ["maxmemory", "maxmemory-policy", "appendonly", "save", "databases", "timeout"].map
    String.toList

/-- The public connection surface is an allowlist. -/
def readOnlyCommand (api : ValueApi) (name : CmdName) (args : List Value) : Bool :=
  let argAt (i : Nat) := ((args[i]?).bind api.asString).getD []
  let subcommand := (argAt 0).map Char.toUpper
  match name with
  | .client => subcommand ∈ ["INFO".toList, "LIST".toList]
  | .cluster => subcommand ∈ ["INFO".toList, "NODES".toList, "SHARDS".toList, "SLOTS".toList]
  | .config =>
      subcommand = "GET".toList && args.length = 2 &&
        (argAt 1).map Char.toLower ∈ configParams
  | .memory => subcommand = "USAGE".toList
  | .module => subcommand = "LIST".toList
  | .pubsub => subcommand ∈ ["CHANNELS".toList, "NUMPAT".toList, "NUMSUB".toList]
  | .slowlog => subcommand ∈ ["GET".toList, "LEN".toList]
  | .xinfo => subcommand ∈ ["STREAM".toList, "GROUPS".toList, "CONSUMERS".toList]
  | .getrange | .hget | .hmget | .hscan | .hlen | .llen | .lrange | .pttl | .scan
  | .scard | .sscan | .strlen | .type | .xlen | .xpending | .xrange | .zcard
  | .zrange | .zrevrange => true
  | .other _ => false

/-- The client library over a keyspace that does not change. -/
structure Client where
  api : ValueApi
  isClustered : Bool
  /-- The answer to one command. -/
  custom : CmdName → List Value → Except ClientError Value
  /-- Putting a command into a pipeline, before anything is sent. -/
  buffer : CmdName → List Value → Except ClientError Unit
  /-- The answers to a pipeline. -/
  tryAll : List Command → List (Except ClientError Value)

/-- Every command can be buffered, and a pipeline answers each of its commands
as if it were sent alone. -/
structure Client.Pipelines (client : Client) : Prop where
  buffer_ok : ∀ name args, client.buffer name args = .ok ()
  tryAll_eq : ∀ cmds, client.tryAll cmds = cmds.map fun cmd => client.custom cmd.1 cmd.2

structure Conn where
  client : Client
  capabilities : Capabilities

namespace Conn

def execute (conn : Conn) (name : CmdName) (args : List Value) : Result Value :=
  (conn.client.custom name args).mapError (.command name)

/-- Run a command through the read-only allowlist. -/
def cmd (conn : Conn) (name : CmdName) (args : List Value) : Result Value :=
  if !readOnlyCommand conn.client.api name args then .error (.unsafeCommand name)
  else conn.execute name args

theorem cmd_eq_execute {conn : Conn} {name : CmdName} {args : List Value}
    (allowed : readOnlyCommand conn.client.api name args) :
    conn.cmd name args = conn.execute name args := by
  simp [Conn.cmd, allowed]

/-- The clustered branch sends the commands one by one, in chunks of 64; the
other sends one pipeline and checks that every command was answered. -/
def pipelineUnchecked (conn : Conn) (cmds : List Command) : Result (List (Result Value)) :=
  if conn.client.isClustered then
    .ok ((chunks 64 cmds).flatMap fun chunk =>
      chunk.map fun cmd => conn.execute cmd.1 cmd.2)
  else do
    cmds.forM fun cmd =>
      (conn.client.buffer cmd.1 cmd.2).mapError (.command (.other "PIPELINE".toList))
    let replies := conn.client.tryAll cmds
    if replies.length ≠ cmds.length then
      .error (.reply (.other "PIPELINE".toList)
        ("expected ".toList ++ decimal cmds.length ++ " replies, got ".toList ++
          decimal replies.length))
    else
      .ok ((replies.zip cmds).map fun (reply, cmd) => reply.mapError (.command cmd.1))

/-- Run many commands in one round trip, reporting each outcome separately. -/
def pipeline (conn : Conn) (cmds : List Command) : Result (List (Result Value)) :=
  match cmds.find? fun cmd => !readOnlyCommand conn.client.api cmd.1 cmd.2 with
  | some cmd => .error (.unsafeCommand cmd.1)
  | none => conn.pipelineUnchecked cmds

theorem forM_buffer {conn : Conn} (buffers : ∀ name args, conn.client.buffer name args = .ok ())
    (cmds : List Command) :
    (cmds.forM fun cmd => (conn.client.buffer cmd.1 cmd.2).mapError
      (ConnError.command (.other "PIPELINE".toList))) = .ok () := by
  induction cmds with
  | nil => rfl
  | cons cmd cmds ih =>
      simp only [List.forM_eq_forM, List.forM_cons, buffers] at ih ⊢
      exact ih

/-- Of allowed commands none is refused. -/
theorem find?_refused_eq_none {api : ValueApi} {cmds : List Command}
    (allowed : ∀ cmd ∈ cmds, readOnlyCommand api cmd.1 cmd.2) :
    cmds.find? (fun cmd => !readOnlyCommand api cmd.1 cmd.2) = none := by
  apply List.find?_eq_none.mpr
  intro cmd member
  simp [allowed cmd member]

/-- Over a client that answers pipelines command by command, so does
`pipeline`. -/
theorem pipeline_eq {conn : Conn} (pipelines : conn.client.Pipelines) {cmds : List Command}
    (allowed : ∀ cmd ∈ cmds, readOnlyCommand conn.client.api cmd.1 cmd.2) :
    conn.pipeline cmds = .ok (cmds.map fun cmd => conn.execute cmd.1 cmd.2) := by
  rw [pipeline, find?_refused_eq_none allowed]
  change conn.pipelineUnchecked cmds = _
  rw [pipelineUnchecked]
  split
  next clustered =>
      rw [List.flatMap_def, ← List.map_flatten, flatten_chunks (by decide)]
  next standalone =>
      rw [forM_buffer pipelines.buffer_ok, pipelines.tryAll_eq]
      simp only [List.length_map, ne_eq, not_true_eq_false, if_false, List.map_zip_eq_zipWith,
        List.zipWith_map_left, List.zipWith_self]
      rfl

end Conn

end Keylens.Connection
