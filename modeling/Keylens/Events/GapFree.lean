import Keylens.Events.Parsing
import Keylens.Events.Reader
import Mathlib.Data.List.Dedup

/-!
# Whether the reader misses an entry

A stream from which nothing has been delivered is asked for "only entries added
from now on" in every call, and "now" is when that call is taken up.  What was
added between the first call and that moment is passed over.  On every other
stream the cursor stands at the last entry delivered, and nothing is missed.
-/

namespace Keylens.Events

open Keylens.Library Keylens.Connection Keylens.BullMq Keylens.Backend

/-! ## Cursors -/

/-- The cursor of a stream from which some entries have been delivered. -/
def cursorOf (delivered : List Entry) : Str :=
  (delivered.getLast?.map fun last => last.id.text).getD newEntries

@[simp] theorem cursorOf_nil : cursorOf [] = newEntries := rfl

@[simp] theorem cursorOf_concat (delivered : List Entry) (last : Entry) :
    cursorOf (delivered ++ [last]) = last.id.text := by
  simp [cursorOf]

theorem eq_nil_of_cursorOf {delivered : List Entry} (fresh : cursorOf delivered = newEntries) :
    delivered = [] := by
  cases delivered using List.reverseRecOn with
  | nil => rfl
  | append_singleton delivered last =>
      rw [cursorOf_concat] at fresh
      exact absurd fresh (EntryId.text_ne_newEntries last.id)

/-- The cursors of all streams. -/
def cursors (keys : List Str) (delivered : Str → List Entry) : List Str :=
  keys.map fun key => cursorOf (delivered key)

section Parse

variable {api : ValueApi} {wire : Wire} (shows : wire.ShowsText api)
variable {keys queues : List Str} (nodup : keys.Nodup)

include shows

theorem entryId_reply (entry : Entry) : entryId api (entry.reply wire) = some entry.id.text := by
  rw [Entry.reply, entryId, asText, shows.asString_bulk]
  rfl

theorem lastId_reply (entries : List Entry) :
    lastId api (entries.map (Entry.reply wire)) =
      entries.getLast?.map fun last => last.id.text := by
  have texts : entryId api ∘ Entry.reply wire = fun entry => some entry.id.text :=
    funext fun entry => entryId_reply shows entry
  rw [lastId, List.filterMap_map, texts, List.filterMap_eq_map', List.getLast?_map]

/-- A reply lists its streams in either shape. -/
theorem replyStreams_xreadReply (protocol : Protocol) (parts : List (Str × List Entry)) :
    replyStreams api (xreadReply wire protocol parts) =
      parts.map fun part => (part.1, .array (part.2.map (Entry.reply wire))) := by
  cases parts with
  | nil => cases protocol <;> rfl
  | cons part parts =>
      cases protocol with
      | resp2 => simp [xreadReply, replyStreams, asText, shows.asString_bulk, List.filterMap_map]
      | resp3 => simp [xreadReply, replyStreams, shows.keyAsStr_utf8Encode]

include nodup

/-- Moving one cursor. -/
theorem ids_foldl_readEntry {key : Str} (watched : key ∈ keys) (entries : List Entry)
    {delivered : Str → List Entry} {parsed : Parsed}
    (ids : parsed.ids = cursors keys delivered) :
    ((entries.map (Entry.reply wire)).foldl (readEntry api queues (keys.idxOf key)) parsed).ids =
      cursors keys (Function.update delivered key (delivered key ++ entries)) := by
  rw [foldl_readEntry, lastId_reply shows, ids]
  cases entries using List.reverseRecOn with
  | nil => simp
  | append_singleton front last =>
      have updated : (fun other =>
          cursorOf (Function.update delivered key (delivered key ++ (front ++ [last])) other)) =
          Function.update (fun other => cursorOf (delivered other)) key last.id.text := by
        funext other
        by_cases same : other = key
        · rw [same, Function.update_self, Function.update_self, ← List.append_assoc,
            cursorOf_concat]
        · rw [Function.update_of_ne same, Function.update_of_ne same]
      rw [List.getLast?_concat, Option.map_some, Option.map_some, Option.getD_some, cursors,
        cursors, updated, nodup.map_update, if_pos watched]
      dsimp only
      congr!

theorem ids_readStream {key : Str} (watched : key ∈ keys) (entries : List Entry)
    {delivered : Str → List Entry} {parsed : Parsed}
    (ids : parsed.ids = cursors keys delivered) :
    (readStream api keys queues parsed (key, .array (entries.map (Entry.reply wire)))).ids =
      cursors keys (Function.update delivered key (delivered key ++ entries)) := by
  have position : keys.idxOf? key = some (keys.idxOf key) := by
    rcases Option.isSome_iff_exists.mp (List.isSome_idxOf?.mpr watched) with ⟨idx, found⟩
    rcases List.idxOf?_eq_some_iff.mp found with ⟨within, here, _⟩
    rw [found, ← here, nodup.idxOf_getElem]
  rw [readStream, position]
  exact ids_foldl_readEntry shows nodup watched entries ids

/-- Reading a reply moves each cursor to the last entry delivered. -/
theorem ids_parseXread (protocol : Protocol) {parts : List (Str × List Entry)}
    (watched : ∀ part ∈ parts, part.1 ∈ keys) {delivered : Str → List Entry} :
    (parseXread api keys queues (xreadReply wire protocol parts) (cursors keys delivered)).ids =
      cursors keys (System.deliver delivered parts) := by
  rw [parseXread, replyStreams_xreadReply shows, List.foldl_map]
  generalize parsedEq : ({ ids := cursors keys delivered } : Parsed) = parsed
  have ids : parsed.ids = cursors keys delivered := by rw [← parsedEq]
  clear parsedEq
  induction parts generalizing delivered parsed with
  | nil => exact ids
  | cons part parts ih =>
      rw [List.foldl_cons, System.deliver, List.foldl_cons]
      apply ih
      · exact fun other later => watched other (List.mem_cons_of_mem part later)
      · exact ids_readStream shows nodup (watched part List.mem_cons_self) part.2 ids

end Parse

namespace System

/-! ## What a reply delivers -/

/-- A reply leaves what was delivered on a stream, or adds the entries it has for
it. -/
theorem deliver_cases (delivered : Str → List Entry) {parts : List (Str × List Entry)}
    (nodup : (parts.map Prod.fst).Nodup) (key : Str) :
    deliver delivered parts key = delivered key ∨
      ∃ entries, (key, entries) ∈ parts ∧
        deliver delivered parts key = delivered key ++ entries := by
  induction parts generalizing delivered with
  | nil => exact .inl rfl
  | cons part parts ih =>
      rcases List.nodup_cons.mp nodup with ⟨fresh, nodup⟩
      rw [deliver, List.foldl_cons]
      by_cases here : key = part.1
      · right
        refine ⟨part.2, List.mem_cons.mpr (.inl (Prod.ext here rfl)), ?_⟩
        rcases ih (Function.update delivered part.1 (delivered part.1 ++ part.2)) nodup with
          same | ⟨entries, later, _⟩
        · rw [deliver] at same
          rw [same, here, Function.update_self]
        · exact absurd (List.mem_map_of_mem later) (here ▸ fresh)
      · rcases ih (Function.update delivered part.1 (delivered part.1 ++ part.2)) nodup with
          same | ⟨entries, later, added⟩
        · left
          rw [deliver] at same
          rw [same, Function.update_of_ne here]
        · right
          refine ⟨entries, List.mem_cons_of_mem part later, ?_⟩
          rw [deliver] at added
          rw [added, Function.update_of_ne here]

theorem part_eq_some {state : System} {marks : List (Str × EntryId)} {key : Str}
    {found : Str × List Entry} (reported : state.part marks key = some found) :
    found.1 = key ∧ ∃ mark, (key, mark) ∈ marks ∧
      found.2 = ((state.streams key).after mark).take count := by
  rw [part] at reported
  cases looked : marks.lookup key with
  | none =>
      rw [looked] at reported
      cases reported
  | some mark =>
      rw [looked] at reported
      simp only [Option.bind_eq_bind, Option.bind_some] at reported
      split at reported
      · cases reported
      · cases reported
        rcases List.lookup_eq_some_iff.mp looked with ⟨before, after, marksEq, _⟩
        exact ⟨rfl, mark, by simp [marksEq], rfl⟩

theorem mem_parts {state : System} {marks : List (Str × EntryId)} {order : List Str} {key : Str}
    {entries : List Entry} (member : (key, entries) ∈ state.parts marks order) :
    ∃ mark, (key, mark) ∈ marks ∧ entries = ((state.streams key).after mark).take count := by
  rcases List.mem_filterMap.mp member with ⟨other, _, reported⟩
  rcases part_eq_some reported with ⟨rfl, found⟩
  exact found

theorem nodup_parts (state : System) (marks : List (Str × EntryId)) (order : List Str) :
    ((state.parts marks order).map Prod.fst).Nodup := by
  rw [parts, List.map_filterMap]
  apply (List.nodup_dedup order).filterMap
  intro left right key leftKey rightKey
  rcases Option.map_eq_some_iff.mp leftKey with ⟨leftPart, leftReported, leftEq⟩
  rcases Option.map_eq_some_iff.mp rightKey with ⟨rightPart, rightReported, rightEq⟩
  rw [← (part_eq_some leftReported).1, ← (part_eq_some rightReported).1, leftEq, rightEq]

/-! ## Taking a call up -/

/-- The id that the cursor of a stream stands for. -/
def markOf (stream : Stream) (delivered : List Entry) : EntryId :=
  delivered.getLast?.elim stream.lastId Entry.id

theorem resolve_cursorOf (stream : Stream) (delivered : List Entry) :
    resolve stream (cursorOf delivered) = some (markOf stream delivered) := by
  cases delivered using List.reverseRecOn with
  | nil => rfl
  | append_singleton delivered last =>
      rw [cursorOf_concat, resolve, if_neg (EntryId.text_ne_newEntries last.id),
        EntryId.parse_text, markOf, List.getLast?_concat]
      rfl

/-- The call that a reader with these cursors makes. -/
theorem mapM_resolve_cursors (streams : Str → Stream) (delivered : Str → List Entry)
    (keys : List Str) :
    ((keys.zip (cursors keys delivered)).mapM fun (key, id) =>
        (resolve (streams key) id).map fun mark => (key, mark)) =
      some (keys.map fun key => (key, markOf (streams key) (delivered key))) := by
  induction keys with
  | nil => rfl
  | cons key keys ih =>
      rw [cursors] at ih
      rw [cursors, List.map_cons, List.zip_cons_cons, List.mapM_cons, ih]
      simp only [resolve_cursorOf]
      rfl

/-- The cursor of a stream marks what has been delivered, unless it has passed
over the first entries. -/
theorem marks_markOf {stream : Stream} {start : Nat} {delivered : List Entry}
    (follows : stream.Delivered start delivered)
    (silent : delivered = [] → stream.items.length = start) :
    stream.Marks (start + delivered.length) (markOf stream delivered) := by
  cases isLast : delivered.getLast? with
  | none =>
      have none := List.getLast?_eq_none_iff.mp isLast
      rw [markOf, isLast, none, ← silent none]
      exact stream.marks_lastId
  | some last =>
      rw [markOf, isLast]
      exact follows.marks_last isLast

/-! ## The invariant -/

/-- The cursors stand right behind what was delivered, and so do the marks of a
call that was taken up. -/
structure Invariant (state : System) : Prop where
  nodup : state.reader.keys.Nodup
  ids_eq : state.call ≠ .stopped → state.reader.ids = cursors state.reader.keys state.delivered
  unstarted : state.start = none →
    (∀ key, state.delivered key = []) ∧ ∀ marks, state.call ≠ .waiting marks
  follows : ∀ start, state.start = some start → ∀ key ∈ state.reader.keys,
    (state.streams key).Delivered (start key) (state.delivered key)
  marked : ∀ start, state.start = some start → ∀ marks, state.call = .waiting marks →
    ∀ key mark, (key, mark) ∈ marks → key ∈ state.reader.keys ∧
      (state.streams key).Marks (start key + (state.delivered key).length) mark

variable {api : ValueApi} {wire : Wire} {state : System}

theorem Invariant.gapFree (inv : state.Invariant) : state.GapFree := by
  intro start started key watched
  refine ⟨(inv.follows start started key watched).stretch, ?_⟩
  intro marks mark waiting member entry later passed
  have marks := (inv.marked start started marks waiting key mark member).2
  have follows := inv.follows start started key watched
  rcases follows.stretch with ⟨rest, restEq⟩
  rw [← restEq] at later
  rcases List.mem_append.mp later with delivered | undelivered
  · exact delivered
  · have ahead : entry ∈ (state.streams key).items.drop
        (start key + (state.delivered key).length) := by
      rw [← List.drop_drop, ← restEq, List.drop_left]
      exact undelivered
    exact absurd passed (marks.ahead entry ahead).not_ge

/-! ## One step -/

/-- A round that goes on keeps the keys and has the cursors of the reply. -/
theorem again_of_round {reader again : Reader} {outcome : Result Value} {uiGone : Bool}
    (goesOn : (reader.round api outcome uiGone).1 = .again again) :
    again.keys = reader.keys ∧
      again.ids = match outcome with
        | .error _ => reader.ids
        | .ok reply => (parseXread api reader.keys reader.queues reply reader.ids).ids := by
  cases outcome with
  | error error =>
      rw [Reader.round] at goesOn
      split at goesOn <;> cases goesOn
      exact ⟨rfl, rfl⟩
  | ok reply =>
      rw [Reader.round] at goesOn
      split at goesOn
      · cases goesOn
        exact ⟨rfl, rfl⟩
      · split at goesOn <;> cases goesOn
        exact ⟨rfl, rfl⟩

/-- Between two calls it is enough that the cursors stand right behind what was
delivered. -/
theorem Invariant.next (nodup : state.reader.keys.Nodup)
    (unstarted : state.start = none → ∀ key, state.delivered key = [])
    (follows : ∀ start, state.start = some start → ∀ key ∈ state.reader.keys,
      (state.streams key).Delivered (start key) (state.delivered key))
    {outcome : Round × List Update}
    (cursorsEq : ∀ reader, outcome.1 = .again reader →
      reader.keys = state.reader.keys ∧ reader.ids = cursors state.reader.keys state.delivered) :
    (state.next outcome).Invariant := by
  rcases outcome with ⟨round, updates⟩
  cases round with
  | again reader =>
      rcases cursorsEq reader rfl with ⟨keysEq, idsEq⟩
      constructor
      · change reader.keys.Nodup
        rw [keysEq]
        exact nodup
      · intro _
        change reader.ids = cursors reader.keys state.delivered
        rw [keysEq, idsEq]
      · intro none
        exact ⟨unstarted none, fun _ waiting => by cases waiting⟩
      · intro start started key watched
        change key ∈ reader.keys at watched
        rw [keysEq] at watched
        exact follows start started key watched
      · intro _ _ _ waiting
        cases waiting
  | stop =>
      constructor
      · exact nodup
      · exact fun running => absurd rfl running
      · intro none
        exact ⟨unstarted none, fun _ waiting => by cases waiting⟩
      · exact follows
      · intro _ _ _ waiting
        cases waiting

theorem Invariant.failed (inv : state.Invariant) (running : state.call ≠ .stopped)
    (source : ClientError) : (state.failed api source).Invariant := by
  apply Invariant.next inv.nodup (fun none => (inv.unstarted none).1) inv.follows
  intro reader goesOn
  rcases again_of_round goesOn with ⟨keysEq, idsEq⟩
  exact ⟨keysEq, idsEq.trans (inv.ids_eq running)⟩

theorem Invariant.xadd (inv : state.Invariant) (key : Str) (entry : Entry) :
    (state.step api wire (.xadd key entry)).Invariant := by
  have grown : ∀ other, (state.step api wire (.xadd key entry)).streams other =
      state.streams other ∨
      (state.step api wire (.xadd key entry)).streams other =
        (state.streams other).append entry := by
    intro other
    by_cases here : other = key
    · right
      rw [here]
      exact Function.update_self ..
    · left
      exact Function.update_of_ne here ..
  constructor
  · exact inv.nodup
  · exact inv.ids_eq
  · exact inv.unstarted
  · intro start started other watched
    have follows := inv.follows start started other watched
    rcases grown other with same | more
    · rw [same]
      exact follows
    · rw [more]
      exact follows.append entry
  · intro start started marks waiting other mark member
    rcases inv.marked start started marks waiting other mark member with ⟨watched, marksHere⟩
    refine ⟨watched, ?_⟩
    rcases grown other with same | more
    · rw [same]
      exact marksHere
    · rw [more]
      exact marksHere.append (inv.follows start started other watched).passed_le entry

theorem Invariant.reply (shows : wire.ShowsText api) (inv : state.Invariant)
    {marks : List (Str × EntryId)} (waiting : state.call = .waiting marks) (protocol : Protocol)
    (order : List Str) (uiGone : Bool) :
    (state.step api wire (.reply protocol order uiGone)).Invariant := by
  have stepEq : state.step api wire (.reply protocol order uiGone) =
      ({ state with delivered := deliver state.delivered (state.parts marks order) } : System).next
        (state.reader.round api (.ok (xreadReply wire protocol (state.parts marks order)))
          uiGone) := by
    simp only [step, waiting]
  have started : state.start ≠ none := by
    intro none
    exact (inv.unstarted none).2 marks waiting
  rw [stepEq]
  apply Invariant.next
  · exact inv.nodup
  · exact fun none => absurd none started
  · intro start startEq key watched
    have follows := inv.follows start startEq key watched
    rcases deliver_cases state.delivered (nodup_parts state marks order) key with
      same | ⟨entries, member, added⟩
    · change (state.streams key).Delivered (start key) (deliver _ _ key)
      rw [same]
      exact follows
    · change (state.streams key).Delivered (start key) (deliver _ _ key)
      rcases mem_parts member with ⟨mark, marked, entriesEq⟩
      rw [added, entriesEq]
      exact follows.read (inv.marked start startEq marks waiting key mark marked).2 count
  · intro reader goesOn
    rcases again_of_round goesOn with ⟨keysEq, idsEq⟩
    refine ⟨keysEq, idsEq.trans ?_⟩
    have running : state.call ≠ .stopped := by
      rw [waiting]
      exact nofun
    rcases Option.ne_none_iff_exists'.mp started with ⟨start, startEq⟩
    change (parseXread api state.reader.keys state.reader.queues _ state.reader.ids).ids = _
    rw [inv.ids_eq running]
    apply ids_parseXread shows inv.nodup
    intro part member
    rcases mem_parts member with ⟨mark, marked, _⟩
    exact (inv.marked start startEq marks waiting part.1 mark marked).1

/-- In terms of what was delivered. -/
theorem Invariant.silentStreamsEmpty_iff (inv : state.Invariant) (sent : state.call = .sent)
    {start : Str → Nat} (started : state.start = some start) :
    state.SilentStreamsEmpty .accept ↔
      ∀ key ∈ state.reader.keys, state.delivered key = [] →
        (state.streams key).items.length = start key := by
  have running : state.call ≠ .stopped := by
    rw [sent]
    exact nofun
  simp only [SilentStreamsEmpty, sent, started, inv.ids_eq running, cursors,
    ← List.map_prod_left_eq_zip, List.forall_mem_map]
  constructor
  · intro silent key watched none
    exact silent key watched (by rw [none, cursorOf_nil])
  · intro silent key watched fresh
    exact silent key watched (eq_nil_of_cursorOf fresh)

/-- The state in which a call was taken up. -/
def accepted (state : System) : System :=
  { state with
    call := .waiting (state.reader.keys.map fun key =>
      (key, markOf (state.streams key) (state.delivered key)))
    start := some (state.start.getD fun key => (state.streams key).items.length) }

theorem Invariant.step_accept (inv : state.Invariant) (sent : state.call = .sent) :
    state.step api wire .accept = state.accepted := by
  have running : state.call ≠ .stopped := by
    rw [sent]
    exact nofun
  simp only [step, sent, inv.ids_eq running, mapM_resolve_cursors, accepted]

theorem Invariant.accept (inv : state.Invariant) (sent : state.call = .sent)
    (silent : state.SilentStreamsEmpty .accept) : state.accepted.Invariant := by
  have running : state.call ≠ .stopped := by
    rw [sent]
    exact nofun
  have follows : ∀ key ∈ state.reader.keys, (state.streams key).Delivered
      ((state.start.getD fun key => (state.streams key).items.length) key) (state.delivered key) ∧
      (state.delivered key = [] → (state.streams key).items.length =
        (state.start.getD fun key => (state.streams key).items.length) key) := by
    intro key watched
    cases started : state.start with
    | none =>
        rw [(inv.unstarted started).1 key]
        exact ⟨(state.streams key).delivered_nil, fun _ => rfl⟩
    | some start =>
        exact ⟨inv.follows start started key watched,
          (inv.silentStreamsEmpty_iff sent started).mp silent key watched⟩
  constructor
  · exact inv.nodup
  · exact fun _ => inv.ids_eq running
  · exact nofun
  · intro start started key watched
    cases started
    exact (follows key watched).1
  · intro start started marks waiting key mark member
    cases started
    cases waiting
    rcases List.mem_map.mp member with ⟨other, watched, pairEq⟩
    cases pairEq
    exact ⟨watched, marks_markOf (follows key watched).1 (follows key watched).2⟩

theorem Invariant.step (shows : wire.ShowsText api) (inv : state.Invariant) (event : Event)
    (silent : state.SilentStreamsEmpty event) : (state.step api wire event).Invariant := by
  cases event with
  | xadd key entry => exact inv.xadd key entry
  | accept =>
      cases phase : state.call with
      | sent =>
          rw [inv.step_accept phase]
          exact inv.accept phase silent
      | waiting marks => simpa only [System.step, phase] using inv
      | stopped => simpa only [System.step, phase] using inv
  | reply protocol order uiGone =>
      cases phase : state.call with
      | sent => simpa only [System.step, phase] using inv
      | waiting marks => exact inv.reply shows phase protocol order uiGone
      | stopped => simpa only [System.step, phase] using inv
  | fail source =>
      cases phase : state.call with
      | stopped => simpa only [System.step, phase] using inv
      | sent =>
          simp only [System.step, phase]
          exact inv.failed (by rw [phase]; exact nofun) source
      | waiting marks =>
          simp only [System.step, phase]
          exact inv.failed (by rw [phase]; exact nofun) source

/-- A call that is taken up too late passes over an entry. -/
theorem Invariant.not_gapFree (inv : state.Invariant) (event : Event)
    (late : ¬state.SilentStreamsEmpty event) : ¬(state.step api wire event).GapFree := by
  cases event with
  | xadd | reply | fail => exact absurd trivial late
  | accept =>
      cases phase : state.call with
      | waiting | stopped => exact absurd (by simp only [SilentStreamsEmpty, phase]) late
      | sent =>
          cases started : state.start with
          | none => exact absurd (by simp only [SilentStreamsEmpty, phase, started]) late
          | some start =>
              rw [inv.silentStreamsEmpty_iff phase started] at late
              push Not at late
              rcases late with ⟨key, watched, undelivered, longer⟩
              intro gapFree
              rw [inv.step_accept phase] at gapFree
              have within : start key < (state.streams key).items.length :=
                lt_of_le_of_ne (inv.follows start started key watched).start_le longer.symm
              let entry := (state.streams key).items[start key]
              have appended : entry ∈ (state.streams key).items.drop (start key) := by
                rw [List.drop_eq_getElem_cons within]
                exact List.mem_cons_self
              have acceptedStart : state.accepted.start = some start := by
                simp only [accepted, started, Option.getD_some]
              have delivered : entry ∈ state.delivered key := by
                apply (gapFree start acceptedStart key watched).2 _ _ rfl
                · exact List.mem_map_of_mem watched
                · exact appended
                · rw [undelivered]
                  exact (state.streams key).le_lastId (List.mem_of_mem_drop appended)
              rw [undelivered] at delivered
              cases delivered

/-! ## Whole runs -/

theorem invariant_initial (conn : Conn) (keySlot : Str → Nat) (prefix' : Str) {queues : List Str}
    (nodup : queues.Nodup) (uiGone : Bool) (streams : Str → Stream) :
    (initial conn keySlot prefix' queues uiGone streams).Invariant := by
  constructor
  · exact nodup.map (QueueKeys.events_injective prefix')
  · intro _
    simp only [initial, Reader.new, cursors, List.map_map]
    exact List.map_const'.symm
  · intro _
    refine ⟨fun _ => rfl, fun marks waiting => ?_⟩
    simp only [initial] at waiting
    split at waiting <;> cases waiting
  · exact nofun
  · exact nofun

/-- A run delivers every stream without gaps throughout exactly when no call is
taken up too late. -/
theorem gapFree_iff_silentStreamsEmpty (conn : Conn) {wire : Wire}
    (shows : wire.ShowsText conn.client.api) (keySlot : Str → Nat) (prefix' : Str)
    {queues : List Str} (nodup : queues.Nodup) (uiGone : Bool) (streams : Str → Stream)
    (events : List Event) :
    let start := initial conn keySlot prefix' queues uiGone streams
    (∀ front, front <+: events → (run (step conn.client.api wire) start front).GapFree) ↔
      Along (step conn.client.api wire) SilentStreamsEmpty start events := by
  intro start
  have preserves : ∀ state event, Invariant state → SilentStreamsEmpty state event →
      (state.step conn.client.api wire event).Invariant :=
    fun _ event inv silent => inv.step shows event silent
  have breaks : ∀ state event, Invariant state → ¬SilentStreamsEmpty state event →
      ¬(state.step conn.client.api wire event).GapFree :=
    fun _ event inv late => inv.not_gapFree event late
  apply forall_prefix_iff_along preserves (fun _ inv => inv.gapFree) breaks
  exact invariant_initial conn keySlot prefix' nodup uiGone streams

/-- A server with nothing but streams, and a stream of two entries. -/
def streamConn : Conn :=
  Conn.answering plainApi plainWire (fun _ => none)
    { get := fun feature => if feature = .streams then .available else .unsupported }

def emptyStream : Stream := { items := [], increasing := List.Pairwise.nil }

def entryAt (ms : Nat) : Entry :=
  { id := toLex (ms, 0), fields := [] }

/-- The first call times out on an empty stream.  An entry that is added before
the next call is taken up is passed over by it. -/
theorem gapFree_fails_after_timeout :
    let key := "bull:emails:events".toList
    let start := initial streamConn (fun _ => 0) "bull".toList ["emails".toList] false
      fun _ => emptyStream
    let events := [.accept, .reply .resp2 [] false, .xadd key (entryAt 1), .accept]
    let state := run (step plainApi plainWire) start events
    (state.streams key).items = [entryAt 1] ∧ state.delivered key = [] ∧
      state.call = .waiting [(key, toLex (1, 0))] ∧ ¬state.GapFree := by
  intro key start events state
  have appended : (state.streams key).items = [entryAt 1] := by decide
  have waiting : state.call = .waiting [(key, toLex (1, 0))] := by rfl
  refine ⟨appended, rfl, waiting, fun gapFree => ?_⟩
  have delivered : entryAt 1 ∈ state.delivered key := by
    apply (gapFree (fun _ => 0) rfl key (by decide)).2 _ _ waiting (List.mem_singleton_self _)
    · rw [appended]
      exact List.mem_singleton_self _
    · decide
  cases delivered

/-- An entry that is added while a call waits is delivered, also after a call
that has timed out. -/
theorem gapFree_iff_silentStreamsEmpty_delivers :
    let key := "bull:emails:events".toList
    let start := initial streamConn (fun _ => 0) "bull".toList ["emails".toList] false
      fun _ => emptyStream
    let events := [.accept, .reply .resp2 [] false, .accept, .xadd key (entryAt 1),
      .reply .resp3 [key] false]
    (run (step plainApi plainWire) start events).delivered key = [entryAt 1] ∧
      ∀ front, front <+: events → (run (step plainApi plainWire) start front).GapFree := by
  intro key start events
  have delivered : (run (step plainApi plainWire) start events).delivered key = [entryAt 1] := by
    decide
  refine ⟨delivered, ?_⟩
  apply (gapFree_iff_silentStreamsEmpty streamConn plainWire_showsText (fun _ => 0) "bull".toList
    (List.nodup_singleton _) false (fun _ => emptyStream) events).mpr
  refine ⟨trivial, trivial, ?_, trivial, trivial, trivial⟩
  change ∀ watched ∈ [(key, newEntries)], watched.2 = newEntries → 0 = 0
  exact fun _ _ _ => rfl

end System

end Keylens.Events
