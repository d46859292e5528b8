import Keylens.BullMq.Keys
import Keylens.Library.Text
import Keylens.Backend.Messages

/-!
# Reading the events streams

`Reader` is what the live events reader keeps between two `XREAD` calls: the
keys of the streams it watches and a cursor for each.  `parseXread` reads a
reply and moves the cursors; `Reader.round` is what the loop does with the
outcome of one call.
-/

namespace Keylens.Events

open Keylens.Library Keylens.Connection Keylens.BullMq Keylens.Backend

/-- Entries per stream per read. -/
def count : Nat := 500

/-- Consecutive failures before the reader stops trying. -/
def maxConsecutiveFailures : Nat := 5

/-- The id that means "only entries added from now on". -/
def newEntries : Str := "$".toList

def asText (api : ValueApi) (value : Value) : Str :=
  (api.asString value).getD []

/-- The milliseconds of a stream entry id. -/
def entryIdMs (id : Str) : Option Int :=
  parseInt (-(2 ^ 63)) (2 ^ 63 - 1) (id.takeWhile (· ≠ '-'))

/-- The kind of an entry, from its flat list of names and values. -/
def eventKind (api : ValueApi) (fields : List Value) : Option EventKind :=
  ((asPairs fields).find? fun field => asText api field.1 = "event".toList).map fun field =>
    EventKind.parse (asText api field.2)

/-- The cursors and the events read so far. -/
structure Parsed where
  ids : List Str
  out : List StreamEvent := []

section Parse

variable (api : ValueApi) (keys queues : List Str)

/-- Read one entry of the stream at a position.  The cursor moves even when the
entry cannot be classified. -/
def readEntry (idx : Nat) (parsed : Parsed) (entry : Value) : Parsed :=
  match entry with
  | .array [id, body] =>
      let id := asText api id
      let parsed := { parsed with ids := parsed.ids.set idx id }
      match entryIdMs id, body with
      | some atMs, .array fields =>
          match eventKind api fields with
          | some kind =>
              { parsed with
                out := parsed.out ++ [{ queue := queues.getD idx [], kind, atMs }] }
          | none => parsed
      | _, _ => parsed
  | _ => parsed

/-- Read the entries of one stream. -/
def readStream (parsed : Parsed) (stream : Str × Value) : Parsed :=
  match keys.idxOf? stream.1, stream.2 with
  | some idx, .array entries => entries.foldl (readEntry api queues idx) parsed
  | _, _ => parsed

/-- The streams of a reply: an array of pairs under RESP2, a map under RESP3. -/
def replyStreams : Value → List (Str × Value)
  | .array items => items.filterMap fun
      | .array [key, entries] => some (asText api key, entries)
      | _ => none
  | .map entries => entries.map fun (key, entries) => ((api.keyAsStr key).getD [], entries)
  | _ => []

/-- Parse an `XREAD` reply and advance each stream's cursor. -/
def parseXread (reply : Value) (ids : List Str) : Parsed :=
  (replyStreams api reply).foldl (readStream api keys queues) { ids }

end Parse

/-- The reader between two calls. -/
structure Reader where
  keys : List Str
  queues : List Str
  ids : List Str
  failures : Nat := 0

/-- What follows a round of the loop. -/
inductive Round where
  | again (reader : Reader)
  | stop

namespace Reader

/-- The reader of some queues, before its first call. -/
def new (prefix' : Str) (queues : List Str) : Reader :=
  { keys := queues.map fun name => QueueKeys.events { prefix', name }
    queues
    ids := List.replicate queues.length newEntries }

/-- The status the reader starts with, or `none` when there is nothing to
watch. -/
def attach (conn : Conn) (keySlot : Str → Nat) (reader : Reader) : Option EventsStatus :=
  if reader.queues.isEmpty then none
  else if !conn.capabilities.has .streams then
    some (.unavailable
      (((conn.capabilities.get .streams).reason).getD "XREAD is not available".toList))
  else if conn.client.isClustered ∧ 1 < (reader.keys.map keySlot).dedup.length then
    some (.unavailable
      ("live throughput needs the watched streams in one Redis Cluster hash slot; " ++
        "use a shared BullMQ hash-tag prefix").toList)
  else some .live

/-- One round of the loop, with the outcome of the call.  The updates are what
the UI is sent; the reader stops when the UI is gone. -/
def round (api : ValueApi) (reader : Reader) (outcome : Result Value) (uiGone : Bool) :
    Round × List Update :=
  match outcome with
  | .error error =>
      let failures := reader.failures + 1
      if failures ≥ maxConsecutiveFailures then
        (.stop, [.eventsStatus (.unavailable error.text)])
      else (.again { reader with failures }, [])
  | .ok reply =>
      let parsed := parseXread api reader.keys reader.queues reply reader.ids
      -- A read that came back resets the budget.
      let reader := { reader with ids := parsed.ids, failures := 0 }
      if parsed.out.isEmpty then (.again reader, [])
      else if uiGone then (.stop, [])
      else (.again reader, [.events parsed.out])

end Reader

end Keylens.Events
