import Keylens.Events.GapFree

/-!
# What the reader reports

As long as the UI is there, the reader reports what it is given: of each stream, in order,
every entry that names an event and has a time that fits.  Nothing is reported twice, left
out or filed under another queue, whatever the replies contain and whichever calls fail.
-/

namespace Keylens.Events

open Keylens.Library Keylens.Connection Keylens.BullMq Keylens.Backend

/-! ## Entries -/

/-- The kind of the event that an entry names. -/
def Entry.kind (api : ValueApi) (wire : Wire) (entry : Entry) : Option EventKind :=
  eventKind api ((Wire.flatFields entry.fields).map wire.bulk)

/-- The event that an entry stands for; a time that does not fit is no time. -/
def Entry.event (api : ValueApi) (wire : Wire) (queue : Str) (entry : Entry) :
    Option StreamEvent :=
  if (ofLex entry.id).1 < 2 ^ 63 then
    (entry.kind api wire).map fun kind => { queue, kind, atMs := ((ofLex entry.id).1 : Int) }
  else none

theorem entryIdMs_text (id : EntryId) :
    entryIdMs id.text = if (ofLex id).1 < 2 ^ 63 then some ((ofLex id).1 : Int) else none := by
  have digits : id.text.takeWhile (· ≠ '-') = decimal (ofLex id).1 := by
    have inside : ∀ c ∈ decimal (ofLex id).1, (c ≠ '-' : Bool) := by
      intro c member
      have apart : c ≠ '-' := fun same => not_mem_decimal (by decide) (same ▸ member)
      simpa using apart
    rw [EntryId.text, List.append_assoc, List.takeWhile_append_of_pos inside]
    simp
  rw [entryIdMs, digits, parseInt_decimal, Option.filter_some]
  have fits : (-(2 ^ 63) ≤ ((ofLex id).1 : Int) ∧ ((ofLex id).1 : Int) ≤ 2 ^ 63 - 1) ↔
      (ofLex id).1 < 2 ^ 63 := by omega
  simp only [decide_eq_true_eq, fits]

section Entries

variable {api : ValueApi} {wire : Wire} (shows : wire.ShowsText api)

include shows

theorem entryEvent_reply (queue : Str) (entry : Entry) :
    entryEvent api queue (entry.reply wire) = entry.event api wire queue := by
  rw [Entry.reply, entryEvent, asText, shows.asString_bulk, Option.getD_some, entryIdMs_text,
    Entry.event]
  split
  next => cases named : entry.kind api wire <;> simp [Entry.kind] at named <;> simp [itemsOf, named]
  next => rfl

end Entries

/-- The events in some updates, in their order. -/
def reported (updates : List Update) : List StreamEvent :=
  updates.flatMap fun update =>
    match update with
    | .events events => events
    | _ => []

theorem reported_append (front back : List Update) :
    reported (front ++ back) = reported front ++ reported back :=
  List.flatMap_append

theorem reported_cons (update : Update) (updates : List Update) :
    reported (update :: updates) = reported [update] ++ reported updates :=
  reported_append [update] updates

/-- The UI has not gone away. -/
def Event.keepsUi : Event → Bool
  | .reply _ _ uiGone => !uiGone
  | _ => true

/-! ## Deliveries -/

namespace System

theorem deliver_eq (delivered : Str → List Entry) (parts : List (Str × List Entry)) (key : Str) :
    deliver delivered parts key =
      delivered key ++ (parts.filter fun part => part.1 = key).flatMap Prod.snd := by
  induction parts generalizing delivered with
  | nil => exact (List.append_nil _).symm
  | cons part parts ih =>
      rw [deliver, List.foldl_cons, ← deliver, ih]
      by_cases here : part.1 = key
      · rw [← here, Function.update_self, List.filter_cons_of_pos (by simp), List.flatMap_cons,
          List.append_assoc]
      · rw [Function.update_of_ne (Ne.symm here), List.filter_cons_of_neg (by simpa using here)]

/-- What the reader keeps of its streams, and what it has reported of each. -/
structure Reports (api : ValueApi) (wire : Wire) (prefix' : Str) (queues : List Str)
    (state : System) : Prop where
  keys : state.reader.keys = queues.map fun name => QueueKeys.events { prefix', name }
  queues_eq : state.reader.queues = queues
  ids : ∃ cursor : Str → Str, state.reader.ids = queues.map cursor
  each : ∀ queue ∈ queues,
    (reported state.updates).filter (fun event => event.queue = queue) =
      (state.delivered (QueueKeys.events { prefix', name := queue })).filterMap
        (Entry.event api wire queue)

variable {api : ValueApi} {wire : Wire} {prefix' : Str} {queues : List Str} {state : System}

/-- Nothing is reported, and nothing more was delivered. -/
theorem Reports.next (reports : state.Reports api wire prefix' queues)
    {outcome : Round × List Update} (silent : reported outcome.2 = [])
    (same : ∀ reader, outcome.1 = .again reader → reader.keys = state.reader.keys ∧
      reader.queues = state.reader.queues ∧ reader.ids = state.reader.ids) :
    (state.next outcome).Reports api wire prefix' queues := by
  have updates : reported (state.updates ++ outcome.2) = reported state.updates := by
    rw [reported_append, silent, List.append_nil]
  rcases outcome with ⟨again | _, later⟩
  · rcases same again rfl with ⟨keys, queues_eq, ids⟩
    refine ⟨keys.trans reports.keys, queues_eq.trans reports.queues_eq, ?_, ?_⟩
    · rcases reports.ids with ⟨cursor, cursors⟩
      exact ⟨cursor, ids.trans cursors⟩
    · intro queue member
      change (reported (state.updates ++ later)).filter _ = _
      rw [updates]
      exact reports.each queue member
  · refine ⟨reports.keys, reports.queues_eq, reports.ids, ?_⟩
    intro queue member
    change (reported (state.updates ++ later)).filter _ = _
    rw [updates]
    exact reports.each queue member

theorem Reports.failed (reports : state.Reports api wire prefix' queues) (source : ClientError) :
    (state.failed api source).Reports api wire prefix' queues := by
  apply reports.next
  · rw [Reader.round]
    split <;> rfl
  · intro reader goesOn
    rw [Reader.round] at goesOn
    split at goesOn <;> cases goesOn
    exact ⟨rfl, rfl, rfl⟩

/-! ## Replies -/

/-- The watches of some queues. -/
def watchesOf (prefix' : Str) (queues : List Str) (cursor : Str → Str) : List Watch :=
  queues.map fun name =>
    { key := QueueKeys.events { prefix', name }, queue := name, cursor := cursor name }

section Watches

variable {cursor : Str → Str}

theorem parseWatched_watchesOf (reply : Value) :
    parseWatched api (watchesOf prefix' queues cursor) reply =
      parseXread api (queues.map fun name => QueueKeys.events { prefix', name }) queues reply
        (queues.map cursor) := by
  have names : (watchesOf prefix' queues cursor).map Watch.queue = queues := by
    rw [watchesOf, List.map_map]
    exact List.map_id queues
  rw [parseWatched, names, watchesOf, List.map_map, List.map_map]
  rfl

theorem distinct_watchesOf (nodup : queues.Nodup) :
    ((watchesOf prefix' queues cursor).map Watch.key).Nodup := by
  have keys : (watchesOf prefix' queues cursor).map Watch.key =
      queues.map fun name => QueueKeys.events { prefix', name } := by
    simp [watchesOf]
  rw [keys]
  exact nodup.map (QueueKeys.events_injective prefix')

theorem oneStreamEach_watchesOf : OneStreamEach (watchesOf prefix' queues cursor) := by
  intro watch member other among same
  rcases List.mem_map.mp member with ⟨name, _, rfl⟩
  rcases List.mem_map.mp among with ⟨another, _, rfl⟩
  cases (show name = another from same)
  rfl

/-- The entries of a stream in a reply are those of its part. -/
theorem entriesFor_xreadReply (shows : wire.ShowsText api) (protocol : Protocol)
    (parts : List (Str × List Entry)) (key : Str) :
    entriesFor key (replyStreams api (xreadReply wire protocol parts)) =
      ((parts.filter fun part => part.1 = key).flatMap Prod.snd).map (Entry.reply wire) := by
  rw [replyStreams_xreadReply shows, entriesFor, List.filter_map, List.flatMap_map,
    List.map_flatMap]
  rfl

/-- A reply yields, of each queue, the events of what it delivers. -/
theorem filter_parseXread (shows : wire.ShowsText api) (nodup : queues.Nodup)
    (protocol : Protocol) (parts : List (Str × List Entry)) {queue : Str}
    (member : queue ∈ queues) :
    (parseWatched api (watchesOf prefix' queues cursor) (xreadReply wire protocol parts)).out.filter
        (fun event => event.queue = queue) =
      ((parts.filter fun part =>
          part.1 = QueueKeys.events { prefix', name := queue }).flatMap Prod.snd).filterMap
        (Entry.event api wire queue) := by
  let watch : Watch :=
    { key := QueueKeys.events { prefix', name := queue }, queue, cursor := cursor queue }
  have watched : watch ∈ watchesOf prefix' queues cursor := List.mem_map_of_mem member
  rw [parseWatched_eq (distinct_watchesOf nodup),
    filter_events (distinct_watchesOf nodup) oneStreamEach_watchesOf watched,
    entriesFor_xreadReply shows, List.filterMap_map]
  congr 1
  funext entry
  exact entryEvent_reply shows queue entry

end Watches

theorem Reports.reply (reports : state.Reports api wire prefix' queues)
    (shows : wire.ShowsText api) (nodup : queues.Nodup) {marks : List (Str × EntryId)}
    (waiting : state.call = .waiting marks) (protocol : Protocol) (order : List Str) :
    (state.step api wire (.reply protocol order false)).Reports api wire prefix' queues := by
  let parts := state.parts marks order
  rcases reports.ids with ⟨cursor, ids⟩
  have parsed : parseXread api state.reader.keys state.reader.queues
      (xreadReply wire protocol parts) state.reader.ids =
        parseWatched api (watchesOf prefix' queues cursor) (xreadReply wire protocol parts) := by
    rw [reports.keys, reports.queues_eq, ids, parseWatched_watchesOf]
  let out :=
    (parseWatched api (watchesOf prefix' queues cursor) (xreadReply wire protocol parts)).out
  let reader : Reader :=
    { state.reader with
      ids := queues.map fun name => Watch.cursorAfter api
        { key := QueueKeys.events { prefix', name }, queue := name, cursor := cursor name }
        (replyStreams api (xreadReply wire protocol parts))
      failures := 0 }
  have ⟨later, round, reportedLater⟩ : ∃ later,
      state.reader.round api (.ok (xreadReply wire protocol parts)) false =
        (.again reader, later) ∧ reported later = out := by
    have again : { state.reader with
        ids := (parseWatched api (watchesOf prefix' queues cursor)
          (xreadReply wire protocol parts)).ids
        failures := 0 } = reader := by
      rw [parseWatched_eq (distinct_watchesOf nodup), watchesOf, List.map_map]
      rfl
    rw [Reader.round, parsed, again]
    split
    next empty => exact ⟨[], rfl, (List.isEmpty_iff.mp empty).symm⟩
    next => exact ⟨[.events out], rfl, List.append_nil out⟩
  have stepEq : state.step api wire (.reply protocol order false) =
      { state with
        delivered := deliver state.delivered parts
        reader, call := .sent, updates := state.updates ++ later } := by
    simp only [step, waiting]
    change System.next _ (state.reader.round api (.ok (xreadReply wire protocol parts)) false) = _
    rw [round]
    rfl
  rw [stepEq]
  refine ⟨reports.keys, reports.queues_eq, ⟨_, rfl⟩, ?_⟩
  intro queue member
  dsimp only
  rw [reported_append, reportedLater, List.filter_append, reports.each queue member, deliver_eq,
    List.filterMap_append, filter_parseXread shows nodup protocol parts member]

/-! ## Every run -/

theorem Reports.step (reports : state.Reports api wire prefix' queues)
    (shows : wire.ShowsText api) (nodup : queues.Nodup) {event : Event} (keeps : event.keepsUi) :
    (state.step api wire event).Reports api wire prefix' queues := by
  cases event with
  | xadd key entry => exact ⟨reports.keys, reports.queues_eq, reports.ids, reports.each⟩
  | accept =>
      rw [System.step]
      split
      next =>
          dsimp only
          split
          next => exact ⟨reports.keys, reports.queues_eq, reports.ids, reports.each⟩
          next => exact reports.failed invalidId
      next => exact reports
  | reply protocol order uiGone =>
      cases (show uiGone = false by simpa [Event.keepsUi] using keeps)
      cases phase : state.call with
      | waiting marks => exact reports.reply shows nodup phase protocol order
      | sent | stopped => simpa only [System.step, phase] using reports
  | fail source =>
      rw [System.step]
      split
      next => exact reports
      next => exact reports.failed source

theorem reports_initial (conn : Conn) (keySlot : Str → Nat) (uiGone : Bool)
    (streams : Str → Stream) :
    (initial conn keySlot prefix' queues uiGone streams).Reports api wire prefix' queues := by
  refine ⟨rfl, rfl, ⟨fun _ => newEntries, ?_⟩, ?_⟩
  · exact List.map_const'.symm
  · intro queue member
    have silent : reported ((Reader.attach conn keySlot (Reader.new prefix' queues)).toList.map
        .eventsStatus) = [] := by
      cases Reader.attach conn keySlot (Reader.new prefix' queues) <;> rfl
    change (reported (List.map _ _)).filter _ = _
    rw [silent]
    rfl

/-- In every run during which the UI is there, what was reported of each queue is what was
delivered of its stream: each entry that stands for an event, once and in order. -/
theorem reports_deliveries (conn : Conn) {wire : Wire} (shows : wire.ShowsText conn.client.api)
    (keySlot : Str → Nat) (prefix' : Str) {queues : List Str} (nodup : queues.Nodup)
    (streams : Str → Stream) (events : List Event) (keeps : ∀ event ∈ events, event.keepsUi) :
    let state := run (step conn.client.api wire)
      (initial conn keySlot prefix' queues false streams) events
    ∀ queue ∈ queues,
      (reported state.updates).filter (fun event => event.queue = queue) =
        (state.delivered (QueueKeys.events { prefix', name := queue })).filterMap
          (Entry.event conn.client.api wire queue) := by
  intro state
  have reports : state.Reports conn.client.api wire prefix' queues := by
    apply @run_invariant _ _ _ (fun _ event => event.keepsUi)
    · exact fun before event reports keepsUi => reports.step shows nodup keepsUi
    · exact reports_initial conn keySlot false streams
    · exact along_of_forall fun event member _ => keeps event member
  exact reports.each

end System

end Keylens.Events
