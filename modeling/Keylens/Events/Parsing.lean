import Keylens.Connection.Redis
import Keylens.Events.Xread

/-!
# What a reply of `XREAD` says

A reply is read stream by stream and entry by entry, with two things kept on the way:
the cursors and the events so far.  Both are functions of the reply alone: the events
are those of the entries, in order, and a cursor is the id of the last entry.
-/

namespace Keylens.Events

open Keylens.Library Keylens.Connection Keylens.BullMq Keylens.Backend

/-- A watched stream. -/
structure Watch where
  key : Str
  queue : Str
  cursor : Str

/-- The items of an array; anything else has none. -/
def itemsOf : Value → List Value
  | .array items => items
  | _ => []

/-- The id of an entry, which has to be a pair. -/
def entryId (api : ValueApi) : Value → Option Str
  | .array [id, _] => some (asText api id)
  | _ => none

/-- The event an entry stands for. -/
def entryEvent (api : ValueApi) (queue : Str) : Value → Option StreamEvent
  | .array [id, body] => do
      let atMs ← entryIdMs (asText api id)
      let kind ← eventKind api (itemsOf body)
      some { queue, kind, atMs }
  | _ => none

/-- The id of the last entry that has one. -/
def lastId (api : ValueApi) (entries : List Value) : Option Str :=
  (entries.filterMap (entryId api)).getLast?

section Entries

variable {api : ValueApi} {queues : List Str} {idx : Nat}

theorem lastId_append (api : ValueApi) (front back : List Value) :
    lastId api (front ++ back) = (lastId api back).or (lastId api front) := by
  rw [lastId, List.filterMap_append, List.getLast?_append, lastId, lastId]

theorem lastId_cons (api : ValueApi) (entry : Value) (entries : List Value) :
    lastId api (entry :: entries) = (lastId api entries).or (entryId api entry) := by
  rw [← List.singleton_append, lastId_append]
  cases found : entryId api entry <;> simp [lastId, found]

/-- One entry moves the cursor to its id and adds its event. -/
theorem readEntry_eq (parsed : Parsed) (entry : Value) :
    readEntry api queues idx parsed entry =
      { ids := ((entryId api entry).map (parsed.ids.set idx)).getD parsed.ids
        out := parsed.out ++ (entryEvent api (queues.getD idx []) entry).toList } := by
  rw [readEntry.eq_def]
  generalize queues.getD idx [] = queue
  split
  next id body =>
      rw [entryId, entryEvent]
      dsimp only
      cases entryIdMs (asText api id) with
      | none => simp
      | some atMs =>
          cases body with
          | array fields =>
              dsimp only [itemsOf]
              cases eventKind api fields <;> simp
          | _ => simp [itemsOf, eventKind, asPairs]
  next noPair =>
      rw [entryId.eq_2 api entry noPair, entryEvent.eq_2 api queue entry noPair]
      simp

/-- The entries of one stream. -/
theorem foldl_readEntry (parsed : Parsed) (entries : List Value) :
    entries.foldl (readEntry api queues idx) parsed =
      { ids := ((lastId api entries).map (parsed.ids.set idx)).getD parsed.ids
        out := parsed.out ++ entries.filterMap (entryEvent api (queues.getD idx [])) } := by
  induction entries generalizing parsed with
  | nil => simp [lastId]
  | cons entry entries ih =>
      rw [List.foldl_cons, ih, readEntry_eq, lastId_cons, Parsed.mk.injEq]
      generalize queues.getD idx [] = queue
      constructor
      · cases entryId api entry <;> cases lastId api entries <;> simp
      · cases added : entryEvent api queue entry <;> simp [added]

end Entries

/-! ## Reading a reply -/

/-- The entries of the streams with a key. -/
def entriesFor (key : Str) (streams : List (Str × Value)) : List Value :=
  (streams.filter fun stream => stream.1 = key).flatMap fun stream => itemsOf stream.2

/-- The events of one stream, under each watch of its key. -/
def streamEvents (api : ValueApi) (watches : List Watch) (stream : Str × Value) :
    List StreamEvent :=
  (watches.filter fun watch => watch.key = stream.1).flatMap fun watch =>
    (itemsOf stream.2).filterMap (entryEvent api watch.queue)

/-- Where a cursor stands after some streams. -/
def Watch.cursorAfter (api : ValueApi) (watch : Watch) (streams : List (Str × Value)) : Str :=
  (lastId api (entriesFor watch.key streams)).getD watch.cursor

/-- Read a reply to a call for some watches. -/
def parseWatched (api : ValueApi) (watches : List Watch) (reply : Value) : Parsed :=
  parseXread api (watches.map Watch.key) (watches.map Watch.queue) reply
    (watches.map Watch.cursor)

section Streams

variable {api : ValueApi} {watches : List Watch}

/-- The watch of a key, and those before and after it. -/
theorem exists_watch_of_idxOf? {key : Str} {idx : Nat} (distinct : (watches.map Watch.key).Nodup)
    (found : (watches.map Watch.key).idxOf? key = some idx) :
    ∃ front watch back, watches = front ++ watch :: back ∧ front.length = idx ∧ watch.key = key ∧
      ∀ other ∈ front ++ back, other.key ≠ key := by
  rcases List.idxOf?_eq_some_iff.mp found with ⟨inside, isKey, _⟩
  rw [List.length_map] at inside
  rw [List.getElem_map] at isKey
  have parts : watches = watches.take idx ++ watches[idx] :: watches.drop (idx + 1) := by
    rw [List.cons_getElem_drop_succ, List.take_append_drop]
  refine ⟨_, _, _, parts, by rw [List.length_take]; omega, isKey, ?_⟩
  rw [parts, List.map_append, List.map_cons, List.nodup_middle, List.nodup_cons, isKey,
    ← List.map_append] at distinct
  rintro other member rfl
  exact distinct.1 (List.mem_map_of_mem member)

/-- A further stream moves the cursor of its own key only. -/
theorem cursorAfter_concat (watch : Watch) (streams : List (Str × Value)) (stream : Str × Value) :
    watch.cursorAfter api (streams ++ [stream]) =
      if watch.key = stream.1 then
        (lastId api (itemsOf stream.2)).getD (watch.cursorAfter api streams)
      else watch.cursorAfter api streams := by
  rw [Watch.cursorAfter, entriesFor, List.filter_append, List.flatMap_append, ← entriesFor]
  split
  next here =>
      have last : [stream].filter (fun other => other.1 = watch.key) = [stream] := by simp [here]
      rw [last, List.flatMap_singleton, lastId_append, Watch.cursorAfter]
      cases lastId api (itemsOf stream.2) <;> rfl
  next apart =>
      have none : [stream].filter (fun other => other.1 = watch.key) = [] := by
        simp [Ne.symm apart]
      rw [none, List.flatMap_nil, List.append_nil, Watch.cursorAfter]

theorem readStream_unwatched {parsed : Parsed} {stream : Str × Value}
    (unwatched : ∀ watch ∈ watches, watch.key ≠ stream.1) :
    readStream api (watches.map Watch.key) (watches.map Watch.queue) parsed stream = parsed := by
  have absent : (watches.map Watch.key).idxOf? stream.1 = none := by
    rw [List.idxOf?_eq_none_iff, List.mem_map]
    rintro ⟨watch, member, isKey⟩
    exact unwatched watch member isKey
  rw [readStream, absent]

/-- Reading a stream under the watch in the middle. -/
theorem readStream_watched {front back : List Watch} {watch : Watch} {ids : List Str}
    {out : List StreamEvent} {stream : Str × Value}
    (found : ((front ++ watch :: back).map Watch.key).idxOf? stream.1 = some front.length) :
    readStream api ((front ++ watch :: back).map Watch.key)
        ((front ++ watch :: back).map Watch.queue) { ids, out } stream =
      { ids := ((lastId api (itemsOf stream.2)).map (ids.set front.length)).getD ids
        out := out ++ (itemsOf stream.2).filterMap (entryEvent api watch.queue) } := by
  have queue : ((front ++ watch :: back).map Watch.queue).getD front.length [] = watch.queue := by
    simp [List.getD_eq_getElem?_getD]
  rw [readStream.eq_def, found]
  cases stream.2 with
  | array entries =>
      dsimp only
      rw [foldl_readEntry, queue, itemsOf]
  | _ => simp [itemsOf, lastId]

/-- One stream moves the cursor of its key and adds its events. -/
theorem readStream_eq (distinct : (watches.map Watch.key).Nodup) (streams : List (Str × Value))
    (out : List StreamEvent) (stream : Str × Value) :
    readStream api (watches.map Watch.key) (watches.map Watch.queue)
        { ids := watches.map fun watch => watch.cursorAfter api streams, out } stream =
      { ids := watches.map fun watch => watch.cursorAfter api (streams ++ [stream])
        out := out ++ streamEvents api watches stream } := by
  cases found : (watches.map Watch.key).idxOf? stream.1 with
  | none =>
      have unwatched : ∀ watch ∈ watches, watch.key ≠ stream.1 := by
        rw [List.idxOf?_eq_none_iff] at found
        exact fun watch member isKey => found (List.mem_map.mpr ⟨watch, member, isKey⟩)
      have silent : watches.filter (fun watch => watch.key = stream.1) = [] := by
        simpa using unwatched
      rw [readStream_unwatched unwatched, streamEvents, silent, List.flatMap_nil, List.append_nil,
        Parsed.mk.injEq]
      refine ⟨List.map_congr_left fun watch member => ?_, rfl⟩
      rw [cursorAfter_concat, if_neg (unwatched watch member)]
  | some idx =>
      rcases exists_watch_of_idxOf? distinct found with
        ⟨front, watch, back, rfl, rfl, isKey, others⟩
      have apart (side : List Watch) (among : ∀ other ∈ side, other ∈ front ++ back) :
          side.filter (fun other => other.key = stream.1) = [] ∧
          side.map (fun other => other.cursorAfter api (streams ++ [stream])) =
            side.map fun other => other.cursorAfter api streams := by
        constructor
        · simpa using fun other member => others other (among other member)
        · refine List.map_congr_left fun other member => ?_
          rw [cursorAfter_concat, if_neg (others other (among other member))]
      have ⟨silentFront, keptFront⟩ := apart front fun _ => List.mem_append_left back
      have ⟨silentBack, keptBack⟩ := apart back fun _ => List.mem_append_right front
      rw [readStream_watched found, Parsed.mk.injEq]
      constructor
      · rw [List.map_append, List.map_append, List.map_cons, List.map_cons, keptFront, keptBack,
          cursorAfter_concat, if_pos isKey]
        cases lastId api (itemsOf stream.2) with
        | none => rfl
        | some id => simp
      · rw [streamEvents, List.filter_append, List.filter_cons_of_pos (by simpa using isKey),
          silentFront, silentBack]
        simp

/-- A reply is read stream by stream. -/
theorem parseWatched_eq (distinct : (watches.map Watch.key).Nodup) (reply : Value) :
    parseWatched api watches reply =
      { ids := watches.map fun watch => watch.cursorAfter api (replyStreams api reply)
        out := (replyStreams api reply).flatMap (streamEvents api watches) } := by
  rw [parseWatched, parseXread]
  induction replyStreams api reply using List.reverseRecOn with
  | nil => rfl
  | append_singleton streams stream ih =>
      rw [List.foldl_concat, ih, readStream_eq distinct, List.flatMap_append,
        List.flatMap_singleton]

end Streams

/-! ## Which entries yield an event -/

/-- The first `event` at the place of a name in a flat list of names and values, with
the kind that the value after it names. -/
def NamesEvent (api : ValueApi) (fields : List Value) (kind : EventKind) : Prop :=
  ∃ i name value, fields[2 * i]? = some name ∧ fields[2 * i + 1]? = some value ∧
    asText api name = "event".toList ∧ EventKind.parse (asText api value) = kind ∧
    ∀ j < i, ∀ earlier, fields[2 * j]? = some earlier → asText api earlier ≠ "event".toList

/-- An entry stands for an event of a queue. -/
def Yields (api : ValueApi) (queue : Str) (entry : Value) (event : StreamEvent) : Prop :=
  ∃ id fields, entry = .array [id, .array fields] ∧ event.queue = queue ∧
    entryIdMs (asText api id) = some event.atMs ∧ NamesEvent api fields event.kind

theorem eventKind_eq_some_iff {api : ValueApi} {fields : List Value} {kind : EventKind} :
    eventKind api fields = some kind ↔ NamesEvent api fields kind := by
  rw [eventKind, Option.map_eq_some_iff]
  constructor
  · rintro ⟨⟨name, value⟩, found, named⟩
    rw [List.find?_eq_some_iff_getElem] at found
    rcases found with ⟨isEvent, i, inside, here, first⟩
    have ⟨isName, isValue⟩ := getElem?_asPairs_eq_some_iff.mp
      ((List.getElem?_eq_getElem inside).trans (congrArg some here))
    refine ⟨i, name, value, isName, isValue, by simpa using isEvent, named, ?_⟩
    intro j before earlier isEarlier
    have within : j < (asPairs fields).length := before.trans inside
    have ⟨isFirst, _⟩ := getElem?_asPairs_eq_some_iff.mp (List.getElem?_eq_getElem within)
    cases isFirst.symm.trans isEarlier
    simpa using first j before
  · rintro ⟨i, name, value, isName, isValue, isEvent, named, first⟩
    refine ⟨(name, value), ?_, named⟩
    have paired : (asPairs fields)[i]? = some (name, value) :=
      getElem?_asPairs_eq_some_iff.mpr ⟨isName, isValue⟩
    rcases List.getElem?_eq_some_iff.mp paired with ⟨inside, here⟩
    rw [List.find?_eq_some_iff_getElem]
    refine ⟨by simpa using isEvent, i, inside, here, ?_⟩
    intro j before
    have ⟨isFirst, _⟩ := getElem?_asPairs_eq_some_iff.mp
      (List.getElem?_eq_getElem (before.trans inside))
    simpa using first j before _ isFirst

theorem not_namesEvent_nil (api : ValueApi) (kind : EventKind) : ¬NamesEvent api [] kind := by
  rintro ⟨i, name, value, isName, _⟩
  simp at isName

theorem entryEvent_eq_some_iff {api : ValueApi} {queue : Str} {entry : Value}
    {event : StreamEvent} :
    entryEvent api queue entry = some event ↔ Yields api queue entry event := by
  constructor
  · intro yields
    rw [entryEvent.eq_def] at yields
    split at yields
    next id body =>
        simp only [Option.bind_eq_bind, Option.bind_eq_some_iff] at yields
        rcases yields with ⟨atMs, dated, kind, named, made⟩
        cases made
        rw [eventKind_eq_some_iff] at named
        cases body with
        | array fields => exact ⟨id, fields, rfl, rfl, dated, named⟩
        | _ => exact absurd named (not_namesEvent_nil api kind)
    next => cases yields
  · rintro ⟨id, fields, rfl, rfl, dated, named⟩
    rw [← eventKind_eq_some_iff] at named
    simp [entryEvent, dated, itemsOf, named]

theorem entryId_eq_some_iff {api : ValueApi} {entry : Value} {text : Str} :
    entryId api entry = some text ↔
      ∃ id body, entry = .array [id, body] ∧ asText api id = text := by
  constructor
  · intro found
    rw [entryId.eq_def] at found
    split at found
    next id body => exact ⟨id, body, rfl, Option.some.inj found⟩
    next => cases found
  · rintro ⟨id, body, rfl, rfl⟩
    rfl

/-! ## The two shapes of a reply -/

/-- The key of a stream as text; what is no text is empty. -/
def keyText (api : ValueApi) (key : Bytes) : Str :=
  (api.keyAsStr key).getD []

/-- A reply under RESP2. -/
def resp2Reply (bulk : Bytes → Value) (streams : List (Bytes × Value)) : Value :=
  .array (streams.map fun (key, entries) => .array [bulk key, entries])

/-- A watched stream is in a reply at most once. -/
def HoldsOnce (api : ValueApi) (watches : List Watch) (streams : List (Bytes × Value)) : Prop :=
  ∀ watch ∈ watches, (streams.filter fun stream => keyText api stream.1 = watch.key).length ≤ 1

/-- A queue has one stream. -/
def OneStreamEach (watches : List Watch) : Prop :=
  ∀ watch ∈ watches, ∀ other ∈ watches, watch.queue = other.queue → watch = other

section Shapes

variable {api : ValueApi} {bulk : Bytes → Value} {watches : List Watch}

theorem replyStreams_resp2Reply (alike : ∀ key, asText api (bulk key) = keyText api key)
    (streams : List (Bytes × Value)) :
    replyStreams api (resp2Reply bulk streams) =
      streams.map fun (key, entries) => (keyText api key, entries) := by
  simp [replyStreams, resp2Reply, List.filterMap_map, alike]

theorem replyStreams_map (api : ValueApi) (streams : List (Bytes × Value)) :
    replyStreams api (.map streams) =
      streams.map fun (key, entries) => (keyText api key, entries) := rfl

/-- The entries of a stream do not depend on the order of the streams. -/
theorem entriesFor_perm {watch : Watch} {streams order : List (Bytes × Value)}
    (once : (streams.filter fun stream => keyText api stream.1 = watch.key).length ≤ 1)
    (perm : order.Perm streams) :
    entriesFor watch.key (order.map fun (key, entries) => (keyText api key, entries)) =
      entriesFor watch.key (streams.map fun (key, entries) => (keyText api key, entries)) := by
  have here (some : List (Bytes × Value)) :
      entriesFor watch.key (some.map fun (key, entries) => (keyText api key, entries)) =
        (some.filter fun stream => keyText api stream.1 = watch.key).flatMap
          fun stream => itemsOf stream.2 := by
    rw [entriesFor, List.filter_map, List.flatMap_map]
    rfl
  rw [here, here]
  congr 1
  have among := perm.filter fun stream => keyText api stream.1 = watch.key
  cases found : streams.filter fun stream => keyText api stream.1 = watch.key with
  | nil => rw [found] at among; exact among.eq_nil
  | cons first rest =>
      rw [found, List.length_cons] at once
      rw [found, List.length_eq_zero_iff.mp (by omega : rest.length = 0)] at among
      rw [List.length_eq_zero_iff.mp (by omega : rest.length = 0)]
      exact among.eq_singleton

/-- A key has one watch. -/
theorem filter_key_eq (distinct : (watches.map Watch.key).Nodup) {watch : Watch}
    (member : watch ∈ watches) :
    watches.filter (fun other => other.key = watch.key) = [watch] := by
  rcases List.append_of_mem member with ⟨front, back, rfl⟩
  rw [List.map_append, List.map_cons, List.nodup_middle, List.nodup_cons, ← List.map_append,
    List.mem_map] at distinct
  have apart : ∀ other ∈ front ++ back, other.key ≠ watch.key :=
    fun other among isKey => distinct.1 ⟨other, among, isKey⟩
  have front_apart : front.filter (fun other => other.key = watch.key) = [] := by
    simpa using fun other here => apart other (List.mem_append_left back here)
  have back_apart : back.filter (fun other => other.key = watch.key) = [] := by
    simpa using fun other here => apart other (List.mem_append_right front here)
  rw [List.filter_append, List.filter_cons_of_pos (by simp), front_apart, back_apart]
  rfl

/-- Every event is the queue's it was read for. -/
theorem filter_entryEvents (api : ValueApi) (queue other : Str) (entries : List Value) :
    (entries.filterMap (entryEvent api other)).filter (fun event => event.queue = queue) =
      if other = queue then entries.filterMap (entryEvent api queue) else [] := by
  have owned : ∀ event ∈ entries.filterMap (entryEvent api other), event.queue = other := by
    intro event member
    rcases List.mem_filterMap.mp member with ⟨entry, _, yields⟩
    rcases entryEvent_eq_some_iff.mp yields with ⟨_, _, _, isQueue, _⟩
    exact isQueue
  split
  next same =>
      rw [List.filter_eq_self.mpr fun event member => by simpa [same] using owned event member,
        same]
  next apart =>
      rw [List.filter_eq_nil_iff]
      intro event member
      simpa [owned event member] using apart

/-- The events of a queue are those of the entries of its stream. -/
theorem filter_events (distinct : (watches.map Watch.key).Nodup) (single : OneStreamEach watches)
    {watch : Watch} (member : watch ∈ watches) (streams : List (Str × Value)) :
    (streams.flatMap (streamEvents api watches)).filter (fun event => event.queue = watch.queue) =
      (entriesFor watch.key streams).filterMap (entryEvent api watch.queue) := by
  induction streams with
  | nil => rfl
  | cons stream streams ih =>
      have first : (streamEvents api watches stream).filter
          (fun event => event.queue = watch.queue) =
            if stream.1 = watch.key then
              (itemsOf stream.2).filterMap (entryEvent api watch.queue) else [] := by
        rw [streamEvents]
        split
        next here =>
            rw [here, filter_key_eq distinct member, List.flatMap_singleton, filter_entryEvents,
              if_pos rfl]
        next apart =>
            rw [List.filter_eq_nil_iff]
            intro event among
            rcases List.mem_flatMap.mp among with ⟨other, isWatch, yields⟩
            rcases List.mem_filter.mp isWatch with ⟨isOther, isKey⟩
            rcases List.mem_filterMap.mp yields with ⟨_, _, made⟩
            rcases entryEvent_eq_some_iff.mp made with ⟨_, _, _, isQueue, _⟩
            intro same
            have owned : other.queue = watch.queue := isQueue.symm.trans (by simpa using same)
            cases single other isOther watch member owned
            exact apart (by simpa using Eq.symm (of_decide_eq_true isKey))
      rw [List.flatMap_cons, List.filter_append, ih, first, entriesFor, entriesFor]
      by_cases here : stream.1 = watch.key <;> simp [here]

/-- A queue without a stream has no events. -/
theorem filter_events_of_unwatched {queue : Str}
    (unwatched : ∀ watch ∈ watches, watch.queue ≠ queue) (streams : List (Str × Value)) :
    (streams.flatMap (streamEvents api watches)).filter (fun event => event.queue = queue) =
      [] := by
  rw [List.filter_eq_nil_iff]
  intro event among
  rcases List.mem_flatMap.mp among with ⟨stream, _, read⟩
  rcases List.mem_flatMap.mp read with ⟨watch, isWatch, yields⟩
  rcases List.mem_filterMap.mp yields with ⟨_, _, made⟩
  rcases entryEvent_eq_some_iff.mp made with ⟨_, _, _, isQueue, _⟩
  have apart := unwatched watch (List.mem_filter.mp isWatch).1
  simpa [isQueue] using apart

end Shapes

/-- A reply of any shape yields the events of its entries, in order, under the queues
of their keys, and each cursor moves to the id of the last entry of its stream.  The
two shapes of one reply agree in the cursors and in the events of every queue, in
whatever order the streams of the map come. -/
theorem xread_parsed_exactly (api : ValueApi) (watches : List Watch)
    (distinct : (watches.map Watch.key).Nodup) :
    (∀ reply,
      (parseWatched api watches reply).out =
        (replyStreams api reply).flatMap (streamEvents api watches) ∧
      (parseWatched api watches reply).ids =
        watches.map fun watch => watch.cursorAfter api (replyStreams api reply)) ∧
    (∀ queue entry event, entryEvent api queue entry = some event ↔ Yields api queue entry event) ∧
    (∀ entry text, entryId api entry = some text ↔
      ∃ id body, entry = .array [id, body] ∧ asText api id = text) ∧
    ∀ bulk, (∀ key, asText api (bulk key) = keyText api key) →
      ∀ streams order, order.Perm streams → HoldsOnce api watches streams →
        let flat := parseWatched api watches (resp2Reply bulk streams)
        let keyed := parseWatched api watches (.map order)
        flat.ids = keyed.ids ∧
        (OneStreamEach watches → ∀ queue,
          flat.out.filter (fun event => event.queue = queue) =
            keyed.out.filter fun event => event.queue = queue) := by
  refine ⟨fun reply => by simp [parseWatched_eq distinct],
    fun _ _ _ => entryEvent_eq_some_iff, fun _ _ => entryId_eq_some_iff, ?_⟩
  intro bulk alike streams order perm once flat keyed
  have entries (watch : Watch) (member : watch ∈ watches) :
      entriesFor watch.key (replyStreams api (resp2Reply bulk streams)) =
        entriesFor watch.key (replyStreams api (.map order)) := by
    rw [replyStreams_resp2Reply alike, replyStreams_map]
    exact (entriesFor_perm (once watch member) perm).symm
  rw [show flat = _ from parseWatched_eq distinct _, show keyed = _ from parseWatched_eq distinct _]
  constructor
  · refine List.map_congr_left fun watch member => ?_
    rw [Watch.cursorAfter, Watch.cursorAfter, entries watch member]
  · intro single queue
    dsimp only
    by_cases watched : ∃ watch ∈ watches, watch.queue = queue
    · rcases watched with ⟨watch, member, rfl⟩
      rw [filter_events distinct single member, filter_events distinct single member,
        entries watch member]
    · have unwatched : ∀ watch ∈ watches, watch.queue ≠ queue :=
        fun watch member same => watched ⟨watch, member, same⟩
      rw [filter_events_of_unwatched unwatched, filter_events_of_unwatched unwatched]

/-- An entry without an event on one stream and a completed job on the other. -/
theorem xread_parsed_two_streams :
    let watches : List Watch :=
      [{ key := "bull:emails:events".toList, queue := "emails".toList, cursor := newEntries },
        { key := "bull:reports:events".toList, queue := "reports".toList, cursor := newEntries }]
    let word (text : String) : Value := .string text.toList
    let streams : List (Bytes × Value) :=
      [(utf8Encode "bull:reports:events".toList,
          .array [.array [word "300-0", .array [word "unrelated", word "x"]]]),
        (utf8Encode "bull:emails:events".toList,
          .array [.array [word "200-0", .array [word "event", word "completed"]]])]
    let flat := parseWatched plainApi watches (resp2Reply plainBulk streams)
    let keyed := parseWatched plainApi watches (.map streams.reverse)
    flat.ids = ["200-0".toList, "300-0".toList] ∧ keyed.ids = flat.ids ∧
      flat.out = [{ queue := "emails".toList, kind := .completed, atMs := 200 }] ∧
      keyed.out.filter (fun event => event.queue = "emails".toList) =
        flat.out.filter fun event => event.queue = "emails".toList := by
  intro watches word streams flat keyed
  have alike (key : Bytes) : asText plainApi (plainBulk key) = keyText plainApi key := by
    have shown := plainWire_showsBytes.asString_bulk key
    exact congrArg (fun text => text.getD []) shown
  have distinct : (watches.map Watch.key).Nodup := by decide
  have single : OneStreamEach watches := by
    intro watch member other among
    rcases List.mem_pair.mp member with rfl | rfl <;>
      rcases List.mem_pair.mp among with rfl | rfl <;> simp
  have once : HoldsOnce plainApi watches streams := by
    intro watch member
    rcases List.mem_pair.mp member with rfl | rfl <;> decide +kernel
  rcases xread_parsed_exactly plainApi watches distinct with ⟨_, _, _, shapes⟩
  have ⟨cursors, events⟩ :=
    shapes plainBulk alike streams streams.reverse (List.reverse_perm streams) once
  exact ⟨by decide +kernel, cursors.symm, by decide +kernel, (events single _).symm⟩

end Keylens.Events
