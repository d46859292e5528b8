import Keylens.Connection.Redis
import Keylens.Events.Xread
import Keylens.Library.Log
import Keylens.Library.Runs
import Mathlib.Data.Prod.Lex
import Mathlib.Order.Nat

/-!
# The reader and the streams it watches

Producers append to the streams at any time.  Between them the reader makes one
`XREAD` call after another: the server takes a call up, which fixes the id after
which each stream is read, and answers it later, when the streams may have grown
further.  A call can fail before or after it was taken up.

`start` and `delivered` are not part of the program.  They keep the length of
every stream at the moment the first call was taken up, and the entries that the
replies have contained.
-/

namespace Keylens.Events

open Keylens.Library Keylens.Connection Keylens.BullMq Keylens.Backend

/-- A stream entry id: milliseconds and a sequence number. -/
abbrev EntryId := Nat ×ₗ Nat

namespace EntryId

/-- An id as it is written. -/
def text (id : EntryId) : Str :=
  decimal (ofLex id).1 ++ "-".toList ++ decimal (ofLex id).2

/-- Read an id; without a sequence number it is 0. -/
def parse (text : Str) : Option EntryId :=
  match splitOnce text "-".toList with
  | some (ms, seq) => do
      let ms ← parseNat ms
      let seq ← parseNat seq
      some (toLex (ms, seq))
  | none => (parseNat text).map fun ms => toLex (ms, 0)

@[simp] theorem parse_text (id : EntryId) : parse id.text = some id := by
  have fresh : ¬"-".toList <:+: decimal (ofLex id).1 := by
    intro occurs
    have member : '-' ∈ decimal (ofLex id).1 := occurs.subset (List.mem_singleton_self '-')
    exact not_mem_decimal (by decide) member
  have split : splitOnce id.text "-".toList =
      some (decimal (ofLex id).1, decimal (ofLex id).2) :=
    splitOnce_append _ (by decide) fresh
  rw [parse, split]
  simp only [parseNat_decimal]
  rfl

theorem text_ne_newEntries (id : EntryId) : id.text ≠ newEntries := by
  intro same
  have parsed := parse_text id
  rw [same] at parsed
  revert parsed
  have unreadable : parse newEntries = none := by decide
  rw [unreadable]
  exact nofun

end EntryId

/-- An entry of a stream. -/
structure Entry where
  id : EntryId
  fields : List (Bytes × Bytes)
  deriving DecidableEq

/-- A stream only grows, by entries with higher ids. -/
abbrev Stream := Log Entry.id

/-- The protocol that the connection has negotiated. -/
inductive Protocol where
  | resp2 | resp3

/-- An entry in a reply. -/
def Entry.reply (wire : Wire) (entry : Entry) : Value :=
  .array [wire.bulk (utf8Encode entry.id.text),
    .array ((Wire.flatFields entry.fields).map wire.bulk)]

/-- The reply of `XREAD`; one that has nothing to report is null. -/
def xreadReply (wire : Wire) (protocol : Protocol) (parts : List (Str × List Entry)) : Value :=
  if parts.isEmpty then .null
  else
    match protocol with
    | .resp2 => .array (parts.map fun (key, entries) =>
        .array [wire.bulk (utf8Encode key), .array (entries.map (Entry.reply wire))])
    | .resp3 => .map (parts.map fun (key, entries) =>
        (utf8Encode key, .array (entries.map (Entry.reply wire))))

/-- The reader's call of `XREAD`. -/
inductive Call where
  /-- Not yet taken up by the server. -/
  | sent
  /-- Taken up: the id after which each stream is read. -/
  | waiting (marks : List (Str × EntryId))
  /-- The reader has stopped. -/
  | stopped

structure System where
  streams : Str → Stream
  reader : Reader
  call : Call
  updates : List Update := []
  start : Option (Str → Nat) := none
  delivered : Str → List Entry := fun _ => []

/-- What can happen. -/
inductive Event where
  /-- A producer appends an entry. -/
  | xadd (key : Str) (entry : Entry)
  /-- The server takes the reader's call up. -/
  | accept
  /-- The call is answered for the streams in `order`: for all of them, for the
  one that woke a blocked call, or for none when the block has timed out. -/
  | reply (protocol : Protocol) (order : List Str) (uiGone : Bool)
  /-- The call fails. -/
  | fail (source : ClientError)

namespace System

/-- The id after which a stream is read. -/
def resolve (stream : Stream) (id : Str) : Option EntryId :=
  if id = newEntries then some stream.lastId else EntryId.parse id

/-- What a call that was taken up reports about one stream. -/
def part (state : System) (marks : List (Str × EntryId)) (key : Str) :
    Option (Str × List Entry) := do
  let mark ← marks.lookup key
  let entries := ((state.streams key).after mark).take count
  if entries.isEmpty then none else some (key, entries)

def parts (state : System) (marks : List (Str × EntryId)) (order : List Str) :
    List (Str × List Entry) :=
  order.dedup.filterMap (state.part marks)

/-- Add the entries of a reply to those delivered before. -/
def deliver (delivered : Str → List Entry) (parts : List (Str × List Entry)) :
    Str → List Entry :=
  parts.foldl (fun delivered part =>
    Function.update delivered part.1 (delivered part.1 ++ part.2)) delivered

/-- The reader's loop goes on with the outcome of its call. -/
def next (state : System) (outcome : Round × List Update) : System :=
  match outcome with
  | (.again reader, updates) =>
      { state with reader, call := .sent, updates := state.updates ++ updates }
  | (.stop, updates) => { state with call := .stopped, updates := state.updates ++ updates }

/-- The call ends in an error. -/
def failed (api : ValueApi) (state : System) (source : ClientError) : System :=
  state.next
    (state.reader.round api (.error (.command (.other "XREAD".toList) source)) false)

/-- The answer to an id that is none. -/
def invalidId : ClientError :=
  { kind := .other "Unknown Error".toList
    details := "ERR Invalid stream ID specified as stream command argument".toList }

def step (api : ValueApi) (wire : Wire) (state : System) : Event → System
  | .xadd key entry =>
      { state with
        streams := Function.update state.streams key ((state.streams key).append entry) }
  | .accept =>
      match state.call with
      | .sent =>
          let marks := (state.reader.keys.zip state.reader.ids).mapM fun (key, id) =>
            (resolve (state.streams key) id).map fun mark => (key, mark)
          match marks with
          | some marks =>
              { state with
                call := .waiting marks
                start := some (state.start.getD fun key => (state.streams key).items.length) }
          | none => state.failed api invalidId
      | _ => state
  | .reply protocol order uiGone =>
      match state.call with
      | .waiting marks =>
          let parts := state.parts marks order
          ({ state with delivered := deliver state.delivered parts } : System).next
            (state.reader.round api (.ok (xreadReply wire protocol parts)) uiGone)
      | _ => state
  | .fail source =>
      match state.call with
      | .stopped => state
      | _ => state.failed api source

/-- The reader starts to follow some streams. -/
def initial (conn : Conn) (keySlot : Str → Nat) (prefix' : Str) (queues : List Str)
    (uiGone : Bool) (streams : Str → Stream) : System :=
  let reader := Reader.new prefix' queues
  let status := reader.attach conn keySlot
  { streams
    reader
    call := if status = some .live ∧ !uiGone then .sent else .stopped
    updates := status.toList.map .eventsStatus }

/-- On every watched stream, the entries delivered so far are a stretch without
gaps or repetitions, right after the entries from before the first call; and the
reader never asks for what lies after an entry that it was not given. -/
def GapFree (state : System) : Prop :=
  ∀ start, state.start = some start → ∀ key ∈ state.reader.keys,
    state.delivered key <+: (state.streams key).items.drop (start key) ∧
      ∀ marks mark, state.call = .waiting marks → (key, mark) ∈ marks →
        ∀ entry ∈ (state.streams key).items.drop (start key),
          entry.id ≤ mark → entry ∈ state.delivered key

/-- When a call after the first is taken up, the streams that are still asked
for "only entries added from now on" have got none since the first call. -/
def SilentStreamsEmpty (state : System) (event : Event) : Prop :=
  match event, state.call, state.start with
  | .accept, .sent, some start =>
      ∀ watched ∈ state.reader.keys.zip state.reader.ids, watched.2 = newEntries →
        (state.streams watched.1).items.length = start watched.1
  | _, _, _ => True

end System

end Keylens.Events
