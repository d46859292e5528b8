import Keylens.BullMq.Session
import Keylens.Connection.Introspection
import Keylens.Backend.Typing

/-!
# What the worker does for a request

Each request is a program over the client library.  The main loop runs those that it
answers itself one after the other; reading a key and refreshing the stats run on
tasks of their own.
-/

namespace Keylens.Backend

open Keylens.Library Keylens.Connection Keylens.BullMq Keylens.Ui

def slowlogEntries : Nat := 128
def maxChannels : Nat := 200
/-- Job ids fetched per state page. -/
def jobPage : Nat := 200
def jobLogLines : Nat := 200

/-- What the worker is given: its connection and the libraries it reads replies with. -/
structure Setting where
  conn : Conn
  info : InfoApi
  serde : Serde

/-- What the main loop keeps from one request to the next; the scanner is known by its
number. -/
structure Loop where
  scanner : Option Nat := none
  pattern : Option Str := none
  kind : Option Kind := none
  complete : Bool := false
  bullmq : BullMqLens

/-- A computation of the worker; its failures have become updates. -/
abbrev Work (α : Type) := Prog calls α

namespace Work

variable (setting : Setting)

/-! ## Scanning -/

def serverTypeFilter (loop : Loop) (conn : Conn) : Option Str :=
  (loop.kind.filter fun _ => conn.capabilities.has .scanTypeFilter).map Kind.label

/-- The kinds of some chunks of keys; a pipeline that fails leaves its keys without. -/
def keyKinds (conn : Conn) : List (List Str) → Work (List (Result Value))
  | [] => return []
  | chunk :: later => do
      let kinds ← (do
        match ← (Session.pipeline conn (typeCmds chunk)).run with
        | .ok replies => return replies
        | .error _ =>
            return List.replicate chunk.length
              (.error (.reply .type "typing batch failed".toList)))
      let others ← keyKinds conn later
      return kinds ++ others

/-- Resolve each key's type; with a type filter, keys of other types are left out. -/
def typeKeys (loop : Loop) (conn : Conn) (keys : List Str) : Work (List (Str × Option Kind)) :=
  match loop.kind.filter fun _ => conn.capabilities.has .scanTypeFilter with
  | some kind => return keys.map fun key => (key, some kind)
  | none =>
      if keys.isEmpty then return []
      else do
        let kinds ← keyKinds conn (chunks maxTyped keys)
        return keys.zipIdx.filterMap fun (key, i) =>
          let kind := ((kinds[i]?).bind Except.toOption).map fun reply =>
            Kind.parse (conn.client.api.displayString reply)
          if loop.kind.any fun wanted => kind ≠ some wanted then none else some (key, kind)

/-- The loop of `scan_batch`, with the pages that may still be asked for, the keys so
far and the number of pages so far. -/
def gather (loop : Loop) : Nat → List Str → Nat → Work (Result (List Str × Nat) × Loop)
  | 0, keys, pages => return (.ok (keys, pages), loop)
  | left + 1, keys, pages =>
      if keys.length < batchTarget ∧ loop.complete = false then
        match loop.scanner with
        -- No `Rescan` has been handled yet.
        | none => return (.ok (keys, pages), { loop with complete := true })
        | some scanner => do
            match ← (Session.nextPage scanner).run with
            | .ok (some page) => gather loop left (keys ++ page) (pages + 1)
            | .ok none => return (.ok (keys, pages), { loop with complete := true })
            | .error error => return (.error error, loop)
      else return (.ok (keys, pages), loop)

def scanBatch (conn : Conn) (loop : Loop) (reset : Bool) : Work (Loop × Update) := do
  match ← gather loop maxPagesPerBatch [] 0 with
  | (.error error, loop) => return (loop, .error error.text)
  | (.ok (keys, pages), loop) => do
      let typed ← typeKeys loop conn keys
      return (loop, .batch typed reset loop.complete pages)

/-- Start over with a new filter. -/
def rescan (conn : Conn) (loop : Loop) (pattern : Option Str) (kind : Option Kind) :
    Work (Loop × Update) := do
  let loop := { loop with pattern, kind, complete := false }
  let scanner ← Prog.call (I := calls) (.openScan (loop.pattern.getD "*".toList) scanCount
    (serverTypeFilter loop conn))
  scanBatch conn { loop with scanner := some scanner } true

/-! ## Panes -/

/-- What a load comes to. -/
def paneOf {α : Type} : Result α → PaneState α
  | .ok value => .ready value
  | .error error => .failed error.text

/-- The capability is looked at first, so that a blocked command reports why it is
blocked. -/
def pane {α : Type} (availability : Availability) (load : Session α) : Work (PaneState α) :=
  if availability ≠ .available then
    return .unavailable (availability.reason.getD "blocked by this server".toList)
  else do
    let loaded ← load.run
    return paneOf loaded

/-- What a standalone server says of `CLUSTER`. -/
def disabledPhrase : Str := "cluster support disabled".toList

/-- A standalone server refuses `CLUSTER`, but it is not blocked: there is no cluster. -/
def clusterPane (conn : Conn) : Work (PaneState ClusterTopology) :=
  match conn.capabilities.get .cluster with
  | .denied why =>
      if disabledPhrase <:+: why.map Char.toLower then return .ready .empty
      else pane (.denied why) (Session.clusterTopology conn)
  | availability => pane availability (Session.clusterTopology conn)

/-! ## Queues -/

/-- A job with its logs; their absence is no reason to fail the whole job. -/
def job (loop : Loop) (queue id : Str) : Work (PaneState (Option JobDetail)) := do
  match ← (BullMq.Session.job loop.bullmq setting.conn setting.serde queue id).run with
  | .ok (some job) => do
      let logs ← (BullMq.Session.jobLogs loop.bullmq setting.conn queue id jobLogLines).run
      return .ready (some { job, logs := logs.toOption.getD [] })
  | .ok none => return .ready none
  | .error error => return .failed error.text

/-- The prefix that was detected is adopted for every later query. -/
def detect (loop : Loop) : Work (Loop × Update) := do
  match ← (BullMq.Session.detect loop.bullmq setting.conn).run with
  | .ok (some detection) =>
      return ({ loop with bullmq := { prefix' := detection.prefix' } }, .detected [detection])
  | .ok none | .error _ => return (loop, .detected [])

/-! ## Requests -/

/-- What the main loop does for a request that it answers itself. -/
def handle (loop : Loop) : Request → Option (Work (Loop × Update))
  | .rescan pattern kind => some (rescan setting.conn loop pattern kind)
  | .more => some (scanBatch setting.conn loop false)
  | .select _ | .refreshInfo => none
  | .loadSlowlog => some do
      let shown ← pane (setting.conn.capabilities.get .slowlog)
        (Session.slowlog setting.conn slowlogEntries)
      return (loop, .slowlog shown)
  | .loadClients => some do
      let shown ← pane (setting.conn.capabilities.get .clientList)
        (Session.clientList setting.conn)
      return (loop, .clients shown)
  | .loadCluster => some do
      let shown ← clusterPane setting.conn
      return (loop, .cluster shown)
  | .loadPubSub => some do
      let shown ← pane (setting.conn.capabilities.get .pubSub)
        (Session.pubsubChannels setting.conn maxChannels)
      return (loop, .pubSub shown)
  | .detect => some (detect setting loop)
  | .loadQueues => some do
      let loaded ← (BullMq.Session.allQueues loop.bullmq setting.conn).run
      return (loop, .queues (paneOf loaded))
  | .loadJobs queue state => some do
      let loaded ← (BullMq.Session.jobs loop.bullmq setting.conn queue state 0 jobPage).run
      return (loop, .jobs state (paneOf loaded))
  | .loadJob queue id => some do
      let shown ← job setting loop queue id
      return (loop, .job shown)

/-- Read one key; for a stream its groups too, where they can be read. -/
def detail (conn : Conn) (key : Str) : Work Update := do
  match ← (Session.readKey conn key).run with
  | .error error => return .error error.text
  | .ok (keyMeta, value) =>
      if keyMeta.kind = .stream then do
        let stream ← (Session.streamInfo conn key).run
        return .detail keyMeta value stream.toOption
      else return .detail keyMeta value none

/-- Refresh the stats. -/
def stats (info : InfoApi) : Work Update := do
  match ← (Session.refreshInfo info).run with
  | .ok server => return .info server
  | .error error => return .error error.text

end Work

end Keylens.Backend
