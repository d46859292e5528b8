import Keylens.Connection.Command
import Keylens.Connection.ReadKey
import Keylens.Connection.Server
import Keylens.Library.KeyedRow
import Keylens.Library.Machine
import Mathlib.Data.Prod.Lex

/-!
# Stream introspection

`XINFO STREAM`, `XINFO GROUPS`, `XINFO CONSUMERS` and the summary of `XPENDING`,
put together to say which consumer is stuck and how far behind it is.
-/

namespace Keylens.Connection

open Keylens.Library

namespace Xinfo

/-- Cap on groups inspected per stream. -/
def maxGroups : Nat := 32

/-! ## Named fields -/

/-- `XINFO` returns a flat array under RESP2 and a map under RESP3. -/
def fields (api : ValueApi) : Value → List (Str × Value)
  | .array items => (asPairs items).map fun (name, value) => (api.displayString name, value)
  | .map entries => entries.map fun (name, value) => ((api.keyAsStr name).getD [], value)
  | _ => []

/-- The first field of a name. -/
def find (fields : List (Str × Value)) (name : Str) : Option Value :=
  (fields.find? fun field => field.1 = name).map Prod.snd

def text (api : ValueApi) (fields : List (Str × Value)) (name : Str) : Str :=
  ((find fields name).map api.displayString).getD []

/-- `none` for a missing field and for an explicit nil. -/
def num (api : ValueApi) (fields : List (Str × Value)) (name : Str) : Option Int :=
  match find fields name with
  | none | some .null => none
  | some value => api.asI64 value

/-- A counter, cast to a `u64`. -/
def counter (api : ValueApi) (fields : List (Str × Value)) (name : Str) : Nat :=
  Machine.asUnsigned ((num api fields name).getD 0)

/-! ## Consumers -/

/-- A group or a consumer without a name is dropped. -/
def Named (api : ValueApi) (reply : Value) : Prop :=
  text api (fields api reply) "name".toList ≠ []

instance (api : ValueApi) : DecidablePred (Named api) :=
  fun _ => inferInstanceAs (Decidable (_ ≠ _))

def parseConsumer (api : ValueApi) (reply : Value) : ConsumerInfo :=
  let fields := fields api reply
  { name := text api fields "name".toList
    pending := counter api fields "pending".toList
    idleMs := (num api fields "idle".toList).getD 0
    inactiveMs := num api fields "inactive".toList }

def parseConsumers (api : ValueApi) : Value → List ConsumerInfo
  | .array items => (items.filter (Named api)).map (parseConsumer api)
  | _ => []

end Xinfo

open Xinfo

/-- Consumers holding pending entries, worst first. -/
def GroupInfo.stuckConsumers (group : GroupInfo) : List ConsumerInfo :=
  sortByKey (fun consumer => OrderDual.toDual consumer.idleMs)
    (group.consumers.filter fun consumer => 0 < consumer.pending)

/-- What a server without streams has to show. -/
def StreamInfo.empty : StreamInfo :=
  { length := 0, entriesAdded := none, lastGeneratedId := [], maxDeletedId := [],
    firstEntryId := [], groups := [], groupsTruncated := false }

namespace Conn

/-- Whether the server answered the stream probe. -/
def supportsStreams (conn : Conn) : Bool :=
  conn.capabilities.has .streams

/-- The consumers of a group; a refused command leaves none. -/
def groupConsumers (conn : Conn) (key name : Str) : List ConsumerInfo :=
  match conn.cmd .xinfo [.string "CONSUMERS".toList, .string key, .string name] with
  | .ok reply => parseConsumers conn.client.api reply
  | .error _ => []

/-- The id range still outstanding, asked for only where something is pending. -/
def pendingRange (conn : Conn) (key name : Str) (pending : Nat) : Str × Str :=
  if 0 < pending then
    match conn.cmd .xpending [.string key, .string name] with
    | .ok (.array (_ :: low :: high :: _)) =>
        (conn.client.api.displayString low, conn.client.api.displayString high)
    | _ => ([], [])
  else ([], [])

/-- One group of `XINFO GROUPS`. -/
def groupInfo (conn : Conn) (key : Str) (reply : Value) : GroupInfo :=
  let api := conn.client.api
  let fields := fields api reply
  let name := text api fields "name".toList
  let pending := counter api fields "pending".toList
  let (pendingMinId, pendingMaxId) := conn.pendingRange key name pending
  { name
    consumerCount := counter api fields "consumers".toList
    pending
    lastDeliveredId := text api fields "last-delivered-id".toList
    entriesRead := num api fields "entries-read".toList
    lag := num api fields "lag".toList
    consumers := conn.groupConsumers key name
    pendingMinId
    pendingMaxId }

/-- Everything about a stream that is not its entries. -/
def streamInfo (conn : Conn) (key : Str) : Result StreamInfo :=
  if !conn.supportsStreams then .ok .empty
  else do
    let api := conn.client.api
    let raw ← conn.cmd .xinfo [.string "STREAM".toList, .string key]
    let fields := fields api raw
    let info : StreamInfo :=
      { length := counter api fields "length".toList
        entriesAdded := (num api fields "entries-added".toList).map Machine.asUnsigned
        lastGeneratedId := text api fields "last-generated-id".toList
        maxDeletedId := text api fields "max-deleted-entry-id".toList
        firstEntryId := text api fields "recorded-first-entry-id".toList
        groups := []
        groupsTruncated := false }
    match ← conn.cmd .xinfo [.string "GROUPS".toList, .string key] with
    | .array groups =>
        .ok
          { info with
            groupsTruncated := maxGroups < groups.length
            groups := ((groups.take maxGroups).filter (Named api)).map (conn.groupInfo key) }
    | _ => .ok info

end Conn

end Keylens.Connection
