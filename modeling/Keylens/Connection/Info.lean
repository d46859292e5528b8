import Keylens.Connection.Command
import Keylens.Connection.Server
import Keylens.Library.Trie
import Mathlib.Data.List.Lex

/-!
# The handshake

A connection starts with `INFO` and with one harmless read for each feature.  What
`INFO` says becomes the description of the server, and how the reads end says which
features it offers; a server without `INFO` can still be browsed.
-/

namespace Keylens.Connection

open Keylens.Library

/-! ## The answer to `INFO` -/

/-- Who made the server, from what it says about itself. -/
def detectVendor (fields : List (Str × Str)) : Vendor :=
  let announces (name : String) : Bool := (fields.lookup name.toList).isSome
  match fields.lookup "server_name".toList with
  | some name =>
      let name := name.map Char.toLower
      if name = "valkey".toList then .valkey
      else if name = "redis".toList then .redis
      else if name = "dragonfly".toList then .dragonfly
      else if name = "keydb".toList then .keyDb
      else if name = "garnet".toList then .garnet
      else if name = "recached".toList then .recached
      else .unknown name
  | none =>
      if announces "valkey_version" then .valkey
      else if announces "dragonfly_version" then .dragonfly
      else if announces "keydb_version" || announces "mvcc_depth" then .keyDb
      else if announces "garnet_version" then .garnet
      else if announces "recached_version" then .recached
      else if announces "redis_version" then .redis
      else .unknown "unknown".toList

namespace ServerInfo

/-- What is known about a server that did not answer `INFO`: nothing. -/
def unknown : ServerInfo where
  vendor := .unknown "unknown".toList
  version := "unknown".toList
  mode := "standalone".toList
  fields := []

/-- The fields of an answer: the lines with a colon, but for the headings. -/
def parseFields (raw : Str) : List (Str × Str) :=
  (lines raw).foldl (fun fields line =>
    let line := trim line
    if line = [] || line.head? = some '#' then fields
    else
      match splitOnce line ":".toList with
      | some (name, value) => upsert name (fun _ => value) fields
      | none => fields) []

def parse (raw : Str) : ServerInfo :=
  let fields := parseFields raw
  let named (name : String) : Option Str := fields.lookup name.toList
  { vendor := detectVendor fields
    version := ((named "valkey_version").or (named "redis_version")).getD "unknown".toList
    mode := ((named "redis_mode").or (named "server_mode")).getD "standalone".toList
    fields }

example :
    parse "# Server\r\nredis_version:8.0.1\r\nredis_mode:standalone\r\n".toList =
      { vendor := .redis
        version := "8.0.1".toList
        mode := "standalone".toList
        fields := [("redis_mode".toList, "standalone".toList),
          ("redis_version".toList, "8.0.1".toList)] } := by
  decide +kernel

end ServerInfo

/-! ## What a failed command says about a feature -/

def unsupportedPhrases : List Str :=
  ["unknown command", "unknown subcommand", "not supported"].map String.toList

def deniedPhrases : List Str :=
  ["noperm", "no permissions", "not allowed", "disabled", "unauthorized", "restricted",
    "forbidden"].map String.toList

/-- Whether one of the phrases is in a message, in letters of any case. -/
def mentions (phrases : List Str) (message : Str) : Bool :=
  phrases.any fun phrase => decide (phrase <:+: message.map Char.toLower)

/-- An error is not the same as a missing feature: a command may fail on its
arguments, or on a key that does not exist. -/
def classify (details : Str) : Availability :=
  if mentions unsupportedPhrases details then .unsupported
  else if mentions deniedPhrases details then .denied (trim ((lines details).headD details))
  else .available

/-- A message that refuses the command, as opposed to one about this use of it. -/
def refuses (details : Str) : Bool :=
  mentions (unsupportedPhrases ++ deniedPhrases) details

theorem classify_eq_available_iff (details : Str) :
    classify details = .available ↔ refuses details = false := by
  rw [refuses, mentions, List.any_append, Bool.or_eq_false_iff, ← mentions, ← mentions, classify]
  cases mentions unsupportedPhrases details <;> cases mentions deniedPhrases details <;> simp

/-- What the client library makes of its own values. -/
structure InfoApi where
  /-- A reply as text. -/
  text : Value → Except ClientError Str

def classifyFrom : ConnError → Availability
  | .command _ source => classify source.details
  | _ => .unsupported

/-! ## The probes -/

def Capabilities.set (capabilities : Capabilities) (feature : Feature)
    (availability : Availability) : Capabilities where
  get other := if other = feature then availability else capabilities.get other

theorem Capabilities.get_set (capabilities : Capabilities) (feature other : Feature)
    (availability : Availability) :
    (capabilities.set feature availability).get other =
      if other = feature then availability else capabilities.get other :=
  rfl

/-- The key no probe finds anything at. -/
def probeKey : Value := .string "keylens:__probe__".toList

/-- Every capability probe: one harmless read each. -/
def probeCommands : List (Feature × Command) :=
  let word (text : String) : Value := .string text.toList
  [(.config, .config, [word "GET", word "maxmemory"]),
    (.clientList, .client, [word "INFO"]),
    (.slowlog, .slowlog, [word "LEN"]),
    (.memoryStats, .memory, [word "USAGE", probeKey]),
    (.cluster, .cluster, [word "INFO"]),
    (.modules, .module, [word "LIST"]),
    (.streams, .xlen, [probeKey]),
    (.pubSub, .pubsub, [word "CHANNELS", probeKey]),
    (.getRange, .getrange, [probeKey, .integer 0, .integer 0]),
    (.cursorCollectionScan, .hscan, [probeKey, word "0", word "COUNT", .integer 1]),
    (.scanTypeFilter, .scan, [word "0", word "COUNT", .integer 1, word "TYPE", word "string"])]

/-- Only `INFO` itself is not probed; its own call answers for it. -/
theorem mem_probeCommands_iff (feature : Feature) :
    feature ∈ probeCommands.map Prod.fst ↔ feature ≠ .serverInfo := by
  cases feature <;> decide

def probeSerially (client : Client) (probes : List (Feature × Command)) :
    List (Except ClientError Value) :=
  probes.map fun (_, cmd, args) => client.custom cmd args

/-- All probes in one round trip, or one after the other on a cluster and when the
pipeline fails as a whole. -/
def runProbePipeline (client : Client) (probes : List (Feature × Command)) :
    List (Except ClientError Value) :=
  if client.isClustered then probeSerially client probes
  else if probes.any fun (_, cmd, args) => !(client.buffer cmd args).isOk then
    probeSerially client probes
  else
    let replies := client.tryAll (probes.map Prod.snd)
    if replies.length = probes.length then replies else probeSerially client probes

/-- What the outcome of its probe says about a feature.  A syntax error of `SCAN` is
a server that does not know `TYPE`. -/
def probed (feature : Feature) : Except ClientError Value → Availability
  | .ok _ => .available
  | .error e =>
      if feature = .scanTypeFilter ∧ "syntax".toList <:+: e.details.map Char.toLower then
        .unsupported
      else classify e.details

/-- The names in a `MODULE LIST`, each entry of which is a flat map or a map. -/
def parseModuleNames (api : ValueApi) : Value → List Str
  | .array modules =>
      modules.filterMap fun
        | .array items =>
            ((items.zip items.tail).find? fun pair =>
              api.asString pair.1 = some "name".toList).bind fun pair => api.asString pair.2
        | .map entries =>
            (entries.find? fun entry =>
              api.keyAsStr entry.1 = some "name".toList).bind fun entry => api.asString entry.2
        | _ => none
  | _ => []

/-- What the server offers, with the names of its modules. -/
def applyProbeResults (client : Client) (capabilities : Capabilities)
    (probes : List (Feature × Command)) (replies : List (Except ClientError Value)) :
    Capabilities × List Str :=
  let capabilities := (probes.zip replies).foldl (fun capabilities (probe, reply) =>
    capabilities.set probe.1 (probed probe.1 reply)) capabilities
  let modules :=
    match (probes.findIdx? fun probe => probe.1 = .modules).bind fun i => replies[i]? with
    | some (.ok reply) =>
        if capabilities.has .modules then parseModuleNames client.api reply else []
    | _ => []
  (capabilities, modules)

def probe (client : Client) : Capabilities × List Str :=
  applyProbeResults client {} probeCommands (runProbePipeline client probeCommands)

/-- A feature without a probe stays as it was. -/
theorem get_applyProbeResults {feature : Feature} {probes : List (Feature × Command)}
    (unprobed : feature ∉ probes.map Prod.fst) (client : Client)
    (capabilities : Capabilities) (replies : List (Except ClientError Value)) :
    (applyProbeResults client capabilities probes replies).1.get feature =
      capabilities.get feature := by
  rw [applyProbeResults]
  induction probes generalizing capabilities replies with
  | nil => rfl
  | cons first probes ih =>
      rw [List.map_cons, List.mem_cons, not_or] at unprobed
      cases replies with
      | nil => rfl
      | cons reply replies =>
          rw [List.zip_cons_cons, List.foldl_cons, ih unprobed.2, Capabilities.get_set,
            if_neg unprobed.1]

/-! ## The handshake -/

/-- The outcome of the `INFO` call. -/
def infoReply (api : InfoApi) (client : Client) : Except ClientError Str :=
  (client.custom (.other "INFO".toList) []).bind api.text

def rawInfo (api : InfoApi) (client : Client) : Result Str :=
  (infoReply api client).mapError (.command (.other "INFO".toList))

/-- A connection with what its handshake learned. -/
structure Connected extends Conn where
  server : ServerInfo
  /-- The names of the modules the server has loaded. -/
  modules : List Str

/-- What a client that is up learns of its server. -/
def handshake (api : InfoApi) (client : Client) : Connected :=
  let (capabilities, modules) := probe client
  let (server, capabilities) :=
    match rawInfo api client with
    | .ok raw => (ServerInfo.parse raw, capabilities)
    | .error e => (ServerInfo.unknown, capabilities.set .serverInfo (classifyFrom e))
  let capabilities :=
    if capabilities.get .serverInfo = .unsupported ∧ server.fields ≠ [] then
      capabilities.set .serverInfo .available
    else capabilities
  { client, capabilities, server, modules }

namespace Conn

/-- Whether the server answered `INFO` at all. -/
def hasServerInfo (conn : Conn) : Bool :=
  conn.capabilities.has .serverInfo

def refreshInfo (api : InfoApi) (conn : Conn) : Result ServerInfo :=
  (rawInfo api conn.client).map ServerInfo.parse

end Conn

/-- After an answer to `INFO` the flag is true of the fields. -/
theorem hasServerInfo_handshake_ok {api : InfoApi} {client : Client} {raw : Str}
    (answered : infoReply api client = .ok raw) :
    (handshake api client).hasServerInfo ↔ (handshake api client).server.fields ≠ [] := by
  have unprobed : (probe client).1.get .serverInfo = .unsupported :=
    get_applyProbeResults ((mem_probeCommands_iff _).not.mpr (not_not.mpr rfl)) ..
  have info : rawInfo api client = .ok raw := by
    rw [rawInfo, answered]
    rfl
  rw [handshake, info, Conn.hasServerInfo, Capabilities.has]
  by_cases empty : (ServerInfo.parse raw).fields = []
  · simp [empty, unprobed]
  · simp [empty, unprobed, Capabilities.get_set]

/-- After an error there are no fields, and the flag is how the error is classified. -/
theorem hasServerInfo_handshake_error {api : InfoApi} {client : Client} {error : ClientError}
    (failed : infoReply api client = .error error) :
    (handshake api client).server.fields = [] ∧
      (handshake api client).hasServerInfo = !refuses error.details := by
  have info : rawInfo api client = .error (.command (.other "INFO".toList) error) := by
    rw [rawInfo, failed]
    rfl
  rw [handshake, info, Conn.hasServerInfo, Capabilities.has]
  have classified := classify_eq_available_iff error.details
  cases refused : refuses error.details <;>
    simp [refused, ServerInfo.unknown, classifyFrom, Capabilities.get_set] at classified ⊢ <;>
    exact classified

end Keylens.Connection
