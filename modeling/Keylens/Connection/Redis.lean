import Keylens.Connection.ReadKey
import Keylens.Library.Utf8Text

/-!
# What Redis answers

The commands that read one key, over a keyspace that does not change.  `Wire`
holds what the semantics leaves open: how the client library shows a payload, how
the scores of a sorted set come back, which elements a cursor page has, and how
much memory a key takes.
-/

namespace Keylens.Connection

open Keylens.Library

/-- A module's type has a name of exactly nine characters. -/
abbrev ModuleType := { name : Str // name.length = 9 }

/-- What a key holds. -/
inductive RedisData where
  | string (payload : Bytes)
  | hash (fields : List (Bytes × Bytes))
  | list (items : List Bytes)
  | set (members : List Bytes)
  /-- By ascending score. -/
  | zset (members : List (Bytes × F64))
  /-- By ascending id. -/
  | stream (entries : List (Bytes × List (Bytes × Bytes)))
  | module (type : ModuleType)

structure RedisKey where
  data : RedisData
  /-- Milliseconds until the key expires. -/
  ttl : Option Nat

abbrev Keyspace := Str → Option RedisKey

structure Wire where
  bulk : Bytes → Value
  scored : List (Bytes × F64) → Value
  /-- The first cursor page of some payloads, for a `COUNT`. -/
  scanPage : List Bytes → Int → Bytes × List Bytes
  memoryUsage : Str → RedisKey → Nat

/-- The reply of `TYPE`. -/
def RedisData.typeName : RedisData → Str
  | .string _ => "string".toList
  | .hash _ => "hash".toList
  | .list _ => "list".toList
  | .set _ => "set".toList
  | .zset _ => "zset".toList
  | .stream _ => "stream".toList
  | .module type => type

/-- The elements from `start` to `stop`, both inclusive; a negative index counts
from the end. -/
def rangeOf {α : Type} (items : List α) (start stop : Int) : List α :=
  let start := if start < 0 then max 0 (start + items.length) else start
  let stop := if stop < 0 then stop + items.length else stop
  if stop < start then [] else (items.drop start.toNat).take (stop - start + 1).toNat

/-- A command on a key that holds another type. -/
def wrongType : ClientError :=
  { kind := .other "Invalid Argument".toList
    details := "WRONGTYPE Operation against a key holding the wrong kind of value".toList }

/-- The server has been started again. -/
def stillLoading : ClientError :=
  { kind := .other "Unknown Error".toList
    details := "LOADING Redis is loading the dataset in memory".toList }

/-- A command that is not modelled, or with arguments it does not take. -/
def badCommand : ClientError :=
  { kind := .other "Unknown Error".toList, details := "ERR".toList }

namespace Wire

variable (wire : Wire)

def cursorPage (payloads : List Bytes) (count : Int) : Value :=
  let (cursor, items) := wire.scanPage payloads count
  .array [wire.bulk cursor, .array (items.map wire.bulk)]

def flatFields (fields : List (Bytes × Bytes)) : List Bytes :=
  fields.flatMap fun (field, value) => [field, value]

/-- A read of one key, with the answer for a key that is not there and the answer
from a key of the right type. -/
def readTyped (keyspace : Keyspace) (key : Str) (missing : Value)
    (read : RedisData → Option Value) : Except ClientError Value :=
  match keyspace key with
  | none => .ok missing
  | some entry =>
      match read entry.data with
      | some reply => .ok reply
      | none => .error wrongType

/-- The answer of the server to one command. -/
def reply (keyspace : Keyspace) : CmdName → List Value → Except ClientError Value
  | .type, [.string key] =>
      .ok (.string (match keyspace key with
        | none => "none".toList
        | some entry => entry.data.typeName))
  | .pttl, [.string key] =>
      .ok (.integer (match keyspace key with
        | none => -2
        | some entry =>
            match entry.ttl with
            | none => -1
            | some ttl => ttl))
  | .memory, [.string _, .string key] =>
      .ok (match keyspace key with
        | none => .null
        | some entry => .integer (wire.memoryUsage key entry))
  | .strlen, [.string key] =>
      readTyped keyspace key (.integer 0) fun
        | .string payload => some (.integer payload.length)
        | _ => none
  | .hlen, [.string key] =>
      readTyped keyspace key (.integer 0) fun
        | .hash fields => some (.integer fields.length)
        | _ => none
  | .llen, [.string key] =>
      readTyped keyspace key (.integer 0) fun
        | .list items => some (.integer items.length)
        | _ => none
  | .scard, [.string key] =>
      readTyped keyspace key (.integer 0) fun
        | .set members => some (.integer members.length)
        | _ => none
  | .zcard, [.string key] =>
      readTyped keyspace key (.integer 0) fun
        | .zset members => some (.integer members.length)
        | _ => none
  | .xlen, [.string key] =>
      readTyped keyspace key (.integer 0) fun
        | .stream entries => some (.integer entries.length)
        | _ => none
  | .getrange, [.string key, .integer start, .integer stop] =>
      readTyped keyspace key (wire.bulk []) fun
        | .string payload => some (wire.bulk (rangeOf payload start stop))
        | _ => none
  | .hscan, [.string key, .string _, .string _, .integer count] =>
      readTyped keyspace key (wire.cursorPage [] count) fun
        | .hash fields => some (wire.cursorPage (flatFields fields) count)
        | _ => none
  | .sscan, [.string key, .string _, .string _, .integer count] =>
      readTyped keyspace key (wire.cursorPage [] count) fun
        | .set members => some (wire.cursorPage members count)
        | _ => none
  | .lrange, [.string key, .integer start, .integer stop] =>
      readTyped keyspace key (.array []) fun
        | .list items => some (.array ((rangeOf items start stop).map wire.bulk))
        | _ => none
  | .zrange, [.string key, .integer start, .integer stop, .string _] =>
      readTyped keyspace key (wire.scored []) fun
        | .zset members => some (wire.scored (rangeOf members start stop))
        | _ => none
  | .xrange, [.string key, .string _, .string _, .string _, .integer count] =>
      readTyped keyspace key (.array []) fun
        | .stream entries =>
            some (.array ((entries.take count.toNat).map fun (id, fields) =>
              .array [wire.bulk id, .array ((flatFields fields).map wire.bulk)]))
        | _ => none
  | _, _ => .error badCommand

end Wire

/-- A connection to a server that refuses nothing and answers as Redis does. -/
structure Conn.Serves (conn : Conn) (wire : Wire) (keyspace : Keyspace) : Prop where
  lawful : conn.client.api.Lawful
  pipelines : conn.client.Pipelines
  custom_eq : conn.client.custom = wire.reply keyspace

/-- A standalone connection to such a server. -/
def Conn.answering (api : ValueApi) (wire : Wire) (keyspace : Keyspace)
    (capabilities : Capabilities) : Conn :=
  { client :=
      { api
        isClustered := false
        custom := wire.reply keyspace
        buffer := fun _ _ => .ok ()
        tryAll := fun cmds => cmds.map fun cmd => wire.reply keyspace cmd.1 cmd.2 }
    capabilities }

theorem Conn.serves_answering {api : ValueApi} (lawful : api.Lawful) (wire : Wire)
    (keyspace : Keyspace) (capabilities : Capabilities) :
    (Conn.answering api wire keyspace capabilities).Serves wire keyspace :=
  { lawful
    pipelines := { buffer_ok := fun _ _ => rfl, tryAll_eq := fun _ => rfl }
    custom_eq := rfl }

/-- A payload that is the encoding of a text comes back as that text. -/
structure Wire.ShowsText (wire : Wire) (api : ValueApi) : Prop where
  asString_bulk : ∀ text, api.asString (wire.bulk (utf8Encode text)) = some text
  keyAsStr_utf8Encode : ∀ text, api.keyAsStr (utf8Encode text) = some text

/-- The bytes of a payload survive, and a payload that is no text does not read as one. -/
structure Wire.ShowsBytes (wire : Wire) (api : ValueApi) : Prop where
  asString_bulk : ∀ payload, api.asString (wire.bulk payload) = utf8Decode payload
  asBytes_bulk : ∀ payload, api.asBytes (wire.bulk payload) = some payload

/-- Conversions as the client library makes them on text, payloads and integers. -/
def plainApi : ValueApi where
  asString
    | .string text => some text
    | .bytes payload => utf8Decode payload
    | .integer value => some (toString value).toList
    | _ => none
  asBytes
    | .string text => some (utf8Encode text)
    | .bytes payload => some payload
    | _ => none
  asI64
    | .integer value => some value
    | _ => none
  asU64
    | .integer value => if 0 ≤ value then some value.toNat else none
    | _ => none
  asF64 := fun _ => none
  keyAsStr := utf8Decode
  debug := fun _ => []

theorem plainApi_lawful : plainApi.Lawful where
  asString_string _ := rfl
  asI64_integer _ := rfl
  asU64_integer _ := rfl
  asU64_null := rfl

/-- A payload becomes a text when it is one. -/
def plainBulk (payload : Bytes) : Value :=
  match utf8Decode payload with
  | some text => .string text
  | none => .bytes payload

/-- Payloads as the client library shows them. -/
def plainWire : Wire where
  bulk := plainBulk
  scored members := .array (members.flatMap fun (member, score) =>
    [plainBulk member, .double score])
  scanPage payloads _ := ([48], payloads)
  memoryUsage _ _ := 0

theorem plainWire_showsText : plainWire.ShowsText plainApi where
  asString_bulk text := by
    change plainApi.asString (plainBulk (utf8Encode text)) = _
    rw [plainBulk, utf8Decode_utf8Encode]
    rfl
  keyAsStr_utf8Encode := utf8Decode_utf8Encode

theorem plainWire_showsBytes : plainWire.ShowsBytes plainApi where
  asString_bulk payload := by
    change plainApi.asString (plainBulk payload) = _
    rw [plainBulk]
    cases decoded : utf8Decode payload with
    | none => exact decoded
    | some text => rfl
  asBytes_bulk payload := by
    change plainApi.asBytes (plainBulk payload) = _
    rw [plainBulk]
    cases decoded : utf8Decode payload with
    | none => rfl
    | some text => exact congrArg some (utf8Decode_eq_some_iff.mp decoded).symm

end Keylens.Connection
