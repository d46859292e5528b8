import Keylens.Tui.State
import Keylens.Connection.Redis
import Keylens.Backend.Completeness
import Keylens.Backend.Typing

/-!
# Filtering by type, on the server and in the client

A server that supports the type option of `SCAN` leaves keys of other types out of
its pages, and the worker trusts it.  From any other server the worker takes all
keys and drops those whose `TYPE` is another one.
-/

namespace Keylens.Backend

open Keylens.Library Keylens.Connection

/-! ## Scanners -/

/-- The type option of `SCAN`. -/
inductive ScanType where
  | string | hash | list | set | zset | stream
  deriving DecidableEq, Repr

def parseScanType (raw : Str) : Option ScanType :=
  if raw = "string".toList then some .string
  else if raw = "hash".toList then some .hash
  else if raw = "list".toList then some .list
  else if raw = "set".toList then some .set
  else if raw = "zset".toList then some .zset
  else if raw = "stream".toList then some .stream
  else none

/-- The type as the server spells it. -/
def ScanType.label : ScanType → Str
  | .string => "string".toList
  | .hash => "hash".toList
  | .list => "list".toList
  | .set => "set".toList
  | .zset => "zset".toList
  | .stream => "stream".toList

/-- The scans of the client library, by pattern, count and type. -/
structure ScanApi where
  scan : Str → Option Nat → Option ScanType → Pages
  scanCluster : Str → Option Nat → Option ScanType → Pages

/-- The pages that a connection scans. -/
def ScanApi.pages (scanApi : ScanApi) (conn : Conn) : Str → Option Nat → Option ScanType → Pages :=
  if conn.client.isClustered then scanApi.scanCluster else scanApi.scan

/-- Start a scan. -/
def keyScanner (conn : Conn) (scanApi : ScanApi) (pattern : Option Str) (count : Nat)
    (typeFilter : Option Str) : KeyScanner :=
  let pattern := pattern.getD "*".toList
  let scanType := typeFilter.bind parseScanType
  { pages := scanApi.pages conn pattern (some count) scanType }

def sceneOf (conn : Conn) (scanApi : ScanApi) : Scene :=
  { conn, keyScanner := keyScanner conn scanApi }

/-! ## A keyspace that does not change -/

/-- The scans list the keys on some pages, and a type option that is supported
takes exactly the keys of other types off them. -/
structure Lists (conn : Conn) (scanApi : ScanApi) (typeOf : Str → Str) (pattern : Option Str)
    (pages : List (List Str)) : Prop where
  all : scanApi.pages conn (pattern.getD "*".toList) (some scanCount) none =
    pages.map Except.ok
  filtered : conn.capabilities.has .scanTypeFilter → ∀ type : ScanType,
    scanApi.pages conn (pattern.getD "*".toList) (some scanCount) (some type) =
      (pages.map fun page => page.filter fun key => typeOf key = type.label).map Except.ok

/-- A `TYPE` that is answered tells the type of its key. -/
structure Typing.Truthful (typing : Typing) (api : ValueApi) (typeOf : Str → Str) : Prop where
  tells : ∀ n keys (replies : List (Result Value)) (i : Nat) key reply,
    typing.answer n (typeCmds keys) = .ok replies → keys[i]? = some key →
    replies[i]? = some (.ok reply) → api.displayString reply = typeOf key

/-- Every `TYPE` is answered. -/
structure Typing.Answers (typing : Typing) : Prop where
  answers : ∀ n keys, ∃ replies, typing.answer n (typeCmds keys) = .ok replies ∧
    ∀ reply ∈ replies, ∃ value, reply = .ok value

variable {typing : Typing} {conn : Conn} {typeOf : Str → Str}
variable {keys : List Str} {i : Nat} {key : Str}

theorem getElem?_ownChunk (keys : List Str) (i : Nat) :
    (ownChunk keys i)[i % maxTyped]? = keys[i]? := by
  have inside : i % maxTyped < maxTyped := Nat.mod_lt _ (by decide)
  rw [ownChunk, List.getElem?_take_of_lt inside, List.getElem?_drop, Nat.div_add_mod]

theorem Typing.Truthful.ownReply {api : ValueApi} (truthful : Typing.Truthful typing api typeOf)
    (here : keys[i]? = some key) {reply : Value} (replied : typing.ownReply keys i = some reply) :
    api.displayString reply = typeOf key := by
  rw [Typing.ownReply] at replied
  split at replied
  next replies answered =>
      rcases Option.bind_eq_some_iff.mp replied with ⟨slot, slotEq, some⟩
      rw [← getElem?_ownChunk] at here
      cases slot with
      | error error => cases some
      | ok value =>
          cases some
          exact truthful.tells _ _ replies _ _ _ answered here slotEq
  next => cases replied

theorem Typing.Answers.ownReply (answers : typing.Answers) (here : keys[i]? = some key) :
    ∃ reply, typing.ownReply keys i = some reply := by
  rcases answers.answers (i / maxTyped) (ownChunk keys i) with ⟨replies, answered, good⟩
  rw [← getElem?_ownChunk] at here
  have inside : i % maxTyped < replies.length := by
    rw [typing.slots _ _ _ answered, length_typeCmds]
    exact (List.getElem?_eq_some_iff.mp here).1
  rcases good _ (List.getElem_mem inside) with ⟨value, valueEq⟩
  refine ⟨value, ?_⟩
  rw [Typing.ownReply, answered]
  dsimp only
  rw [List.getElem?_eq_getElem inside, valueEq]
  rfl

/-! ## What is expected -/

/-- What a key contributes under a type filter. -/
def expected (kind : Option Kind) (typeOf : Str → Str) (key : Str) : Option (Str × Option Kind) :=
  let own := Kind.parse (typeOf key)
  if kind.any fun wanted => own ≠ wanted then none else some (key, some own)

/-- The kinds a filter can be set to are those the type option knows. -/
theorem parse_iff_of_mem_kindCycle {kind : Kind} (settable : some kind ∈ Tui.kindCycle) :
    ∃ type, parseScanType kind.label = some type ∧
      ∀ text, Kind.parse text = kind ↔ text = type.label := by
  have known : kind ∈ speculativeKinds := by
    revert settable
    cases kind <;> decide
  have labelled : ∀ text, Kind.parse text = kind ↔ text = kind.label := by
    intro text
    constructor
    · intro parsed
      subst parsed
      rw [Kind.parse] at known ⊢
      split_ifs at known ⊢ with string hash list set zset stream none
      · exact string
      · exact hash
      · exact list
      · exact set
      · exact zset
      · exact stream
      · exact none
      · exact absurd known (by decide)
    · rintro rfl
      revert known
      cases kind <;> decide
  have option : ∃ type, parseScanType kind.label = some type ∧ type.label = kind.label := by
    revert known
    cases kind <;> decide
  rcases option with ⟨type, parsed, label⟩
  refine ⟨type, parsed, ?_⟩
  rw [label]
  exact labelled

/-- What a scan with a type filter has to read: on a server that filters, the keys
of that type only. -/
def Trusted (conn : Conn) (kind : Option Kind) (typeOf : Str → Str) (keys : List Str) : Prop :=
  conn.capabilities.has .scanTypeFilter → ∀ wanted, kind = some wanted →
    ∀ key ∈ keys, Kind.parse (typeOf key) = wanted

section Batch

variable {kind : Option Kind}

theorem filterMap_range {β : Type} (keys : List Str) (contribution : Str → Option β) :
    (List.range keys.length).filterMap (fun i => (keys[i]?).bind contribution) =
      keys.filterMap contribution := by
  have whole : keys = keys.zipIdx.map Prod.fst := (List.zipIdx_map_fst 0 keys).symm
  conv_rhs => rw [whole, List.filterMap_map]
  rw [List.range_eq_range', ← List.zipIdx_map_snd, List.filterMap_map]
  apply List.filterMap_congr
  rintro ⟨key, i⟩ place
  have here : keys[i]? = some key := List.mem_zipIdx_iff_getElem?.mp place
  rw [Function.comp_apply, here, Option.bind_some]
  rfl

/-- When every `TYPE` is answered, each key contributes what is expected. -/
theorem typeKeysWith_of_answers (answers : typing.Answers)
    (truthful : typing.Truthful conn.client.api typeOf) (trusted : Trusted conn kind typeOf keys) :
    ({ kind } : Worker).typeKeysWith conn typing keys = keys.filterMap (expected kind typeOf) := by
  rw [Worker.typeKeysWith_eq, ← filterMap_range]
  apply List.filterMap_congr
  intro i _
  rw [Worker.typedAt]
  cases here : keys[i]? with
  | none => rfl
  | some key =>
      rw [Option.bind_some, Option.bind_some, expected]
      split
      next wanted filtered =>
          rcases Option.filter_eq_some_iff.mp filtered with ⟨kindEq, supported⟩
          change kind = some wanted at kindEq
          have own := trusted supported wanted kindEq key (List.mem_of_getElem? here)
          simp [kindEq, own]
      next =>
          rcases answers.ownReply here with ⟨reply, replied⟩
          rw [replied, Option.map_some, truthful.ownReply here replied]
          cases kind with
          | none => rfl
          | some wanted => simp

/-- Whatever fails, a pair that is delivered has the type of its key or none, and
under a filter it has that type. -/
theorem mem_typeKeysWith (truthful : typing.Truthful conn.client.api typeOf)
    (trusted : Trusted conn kind typeOf keys) {own : Option Kind}
    (member : (key, own) ∈ ({ kind } : Worker).typeKeysWith conn typing keys) :
    key ∈ keys ∧ (own = none ∨ own = some (Kind.parse (typeOf key))) ∧
      ∀ wanted, kind = some wanted → own = some wanted ∧ Kind.parse (typeOf key) = wanted := by
  rw [Worker.typeKeysWith_eq] at member
  rcases List.mem_filterMap.mp member with ⟨i, _, contributes⟩
  rcases Option.bind_eq_some_iff.mp contributes with ⟨found, here, contributed⟩
  have present : found ∈ keys := List.mem_of_getElem? here
  split at contributed
  next wanted filtered =>
      cases contributed
      rcases Option.filter_eq_some_iff.mp filtered with ⟨kindEq, supported⟩
      have typed : Kind.parse (typeOf key) = wanted := trusted supported wanted kindEq key present
      refine ⟨present, .inr (by rw [typed]), ?_⟩
      intro same sameEq
      cases kindEq.symm.trans sameEq
      exact ⟨rfl, typed⟩
  next =>
      dsimp only at contributed
      split at contributed
      next => cases contributed
      next accepted =>
          cases contributed
          cases replied : typing.ownReply keys i with
          | none =>
              refine ⟨present, .inl rfl, ?_⟩
              rintro wanted rfl
              exact absurd accepted (by simp [replied])
          | some reply =>
              have typed := truthful.ownReply here replied
              rw [Option.map_some, typed]
              refine ⟨present, .inr rfl, ?_⟩
              rintro wanted rfl
              rw [replied, Option.map_some, typed] at accepted
              simpa using accepted

end Batch

/-! ## Runs -/

/-- The pairs in the batches among some updates. -/
def deliveredPairs (updates : List Update) : List (Str × Option Kind) :=
  updates.flatMap fun
    | .batch keys _ _ _ => keys
    | _ => []

/-- A `Rescan` whose batch is typed as given. -/
def ScanRun.rescanWith (conn : Conn) (scanApi : ScanApi) (worker : Worker) (pattern : Option Str)
    (kind : Option Kind) (typing : Typing) : ScanRun :=
  ScanRun.record { worker, updates := [] }
    ((worker.openScan (sceneOf conn scanApi) pattern kind).scanBatchWith conn typing true)

/-- A `More` whose batch is typed as given. -/
def ScanRun.moreWith (conn : Conn) (state : ScanRun) (typing : Typing) : ScanRun :=
  state.record (state.worker.scanBatchWith conn typing false)

/-- A `Rescan` followed by a `More` for each further typing. -/
def scanWith (conn : Conn) (scanApi : ScanApi) (worker : Worker) (pattern : Option Str)
    (kind : Option Kind) (first : Typing) (rest : List Typing) : ScanRun :=
  run (ScanRun.moreWith conn) (ScanRun.rescanWith conn scanApi worker pattern kind first) rest

/-- With the pipelines of the connection itself, these are the requests. -/
theorem rescanWith_typingOf (conn : Conn) (scanApi : ScanApi) (worker : Worker)
    (pattern : Option Str) (kind : Option Kind) :
    ScanRun.rescanWith conn scanApi worker pattern kind (typingOf conn) =
      ScanRun.record { worker, updates := [] }
        (worker.rescan (sceneOf conn scanApi) pattern kind) := by
  rw [ScanRun.rescanWith, ← Worker.scanBatch_eq_scanBatchWith]
  rfl

theorem moreWith_typingOf (conn : Conn) (scanApi : ScanApi) (state : ScanRun) :
    state.moreWith conn (typingOf conn) = state.more (sceneOf conn scanApi) := by
  rw [ScanRun.moreWith, ← Worker.scanBatch_eq_scanBatchWith]
  rfl

/-- What a scan without errors has delivered: the keys it has read, slice by
slice, each typed in a batch of its own. -/
def ScanRun.Sliced (conn : Conn) (kind : Option Kind) (stream : List (List Str))
    (good : Typing → Prop) (state : ScanRun) : Prop :=
  ∃ (slices : List (Typing × List Str)) (unread : List (List Str)),
    (∀ slice ∈ slices, good slice.1) ∧
    slices.flatMap Prod.snd ++ unread.flatten = stream.flatten ∧
    deliveredPairs state.updates = slices.flatMap (fun slice =>
      ({ kind } : Worker).typeKeysWith conn slice.1 slice.2) ∧
    state.worker.Before kind (unread.map .ok) ∧
    (EndsComplete state.updates → unread = [])

section Runs

variable {kind : Option Kind} {stream : List (List Str)} {good : Typing → Prop} {state : ScanRun}

theorem deliveredPairs_concat (updates : List Update) (update : Update) :
    deliveredPairs (updates ++ [update]) = deliveredPairs updates ++ deliveredPairs [update] :=
  List.flatMap_append

/-- One more batch is one more slice, and there is less to read. -/
theorem ScanRun.Sliced.record (sliced : state.Sliced conn kind stream good) (typed : good typing)
    (reset : Bool) :
    let next := state.record (state.worker.scanBatchWith conn typing reset)
    next.Sliced conn kind stream good ∧
      (EndsComplete next.updates ∨ next.worker.unread.length < state.worker.unread.length) := by
  intro next
  rcases sliced with ⟨slices, unread, allGood, split, delivered, before, _⟩
  have gathers : Gathers kind maxPagesPerBatch [] (unread.map .ok)
      (state.worker.gather maxPagesPerBatch [] 0) := gathers_gather before
  generalize gathered : state.worker.gather maxPagesPerBatch [] 0 = result at gathers
  cases gathers with
  | error taken source after worker errorSplit _ _ _ =>
      have member : Except.error source ∈ (unread.map .ok : Pages) := by
        rw [errorSplit]
        simp
      rcases List.mem_map.mp member with ⟨page, _, isOk⟩
      cases isOk
  | batch taken after pages worker batchSplit afterBefore progress =>
      rcases List.map_eq_append_iff.mp batchSplit with ⟨front, later, unreadEq, frontEq, laterEq⟩
      have frontTaken : front = taken :=
        List.map_injective_iff.mpr (fun _ _ => Except.ok.inj) frontEq
      subst frontTaken laterEq unreadEq
      have nextEq : next = { worker, updates := state.updates ++
          [.batch (worker.typeKeysWith conn typing ([] ++ front.flatten)) reset worker.complete
            pages] } := by
        simp only [next, ScanRun.record, Worker.scanBatchWith, gathered]
      have typedEq : worker.typeKeysWith conn typing front.flatten =
          ({ kind } : Worker).typeKeysWith conn typing front.flatten := by
        rw [Worker.typeKeysWith, Worker.typeKeysWith, afterBefore.kind_eq]
      rw [nextEq]
      constructor
      · refine ⟨slices ++ [(typing, front.flatten)], later, ?_, ?_, ?_, afterBefore, ?_⟩
        · intro slice member
          rcases List.mem_append.mp member with old | new
          · exact allGood slice old
          · rw [List.mem_singleton.mp new]
            exact typed
        · rw [← split, List.flatMap_append, List.flatMap_singleton, List.flatten_append,
            List.append_assoc]
        · rw [deliveredPairs_concat, delivered, List.flatMap_append, List.flatMap_singleton,
            ← typedEq, List.nil_append]
          exact congrArg _ (List.append_nil _)
        · intro ends
          rcases endsComplete_concat.mp ends with ⟨_, _, _, batchEq⟩
          injection batchEq with _ _ complete _
          exact List.map_eq_nil_iff.mp (afterBefore.ended complete)
      · rw [before.unread_eq, afterBefore.unread_eq]
        rcases progress (by decide) (by decide) with complete | shorter
        · exact .inl (endsComplete_concat.mpr ⟨_, reset, pages, by rw [complete]⟩)
        · exact .inr shorter

theorem ScanRun.Sliced.run (sliced : state.Sliced conn kind stream good) {typings : List Typing}
    (typed : ∀ typing ∈ typings, good typing) :
    (Library.run (ScanRun.moreWith conn) state typings).Sliced conn kind stream good := by
  induction typings generalizing state with
  | nil => exact sliced
  | cons typing typings ih =>
      rw [run_cons]
      apply ih (sliced.record (typed typing (List.mem_cons_self ..)) false).1
      intro other member
      exact typed other (List.mem_cons_of_mem _ member)

/-- However the keys are typed, the scan comes to its end. -/
theorem ScanRun.Sliced.reaches_end (sliced : state.Sliced conn kind stream good)
    (typings : Nat → Typing) (typed : ∀ n, good (typings n)) :
    ∃ count, EndsComplete
      (Library.run (ScanRun.moreWith conn) state ((List.range count).map typings)).updates := by
  generalize bound : state.worker.unread.length = length
  induction length using Nat.strongRecOn generalizing state typings with
  | ind length ih =>
      rcases sliced.record (typed 0) false with ⟨next, ends | shorter⟩
      · exact ⟨1, ends⟩
      · rw [bound] at shorter
        rcases ih _ shorter next (fun n => typings (n + 1)) (fun n => typed (n + 1)) rfl
          with ⟨count, ends⟩
        refine ⟨count + 1, ?_⟩
        rw [List.range_succ_eq_map, List.map_cons, List.map_map, run_cons]
        exact ends

/-- With every `TYPE` answered, a scan that has ended has delivered what is
expected of all keys. -/
theorem ScanRun.Sliced.delivered_eq (trusted : Trusted conn kind typeOf stream.flatten)
    (sliced : state.Sliced conn kind stream fun typing =>
      typing.Answers ∧ typing.Truthful conn.client.api typeOf)
    (ends : EndsComplete state.updates) :
    deliveredPairs state.updates = stream.flatten.filterMap (expected kind typeOf) := by
  rcases sliced with ⟨slices, unread, good, split, delivered, _, ended⟩
  rw [ended ends, List.flatten_nil, List.append_nil] at split
  rw [delivered, ← split, List.filterMap_flatMap]
  apply List.flatMap_congr
  intro slice member
  apply typeKeysWith_of_answers (good slice member).1 (good slice member).2
  intro supported wanted kindEq key inSlice
  apply trusted supported wanted kindEq key
  rw [← split]
  exact List.mem_flatMap.mpr ⟨slice, member, inSlice⟩

theorem ScanRun.Sliced.of_mem (trusted : Trusted conn kind typeOf stream.flatten)
    (sliced : state.Sliced conn kind stream fun typing => typing.Truthful conn.client.api typeOf)
    {own : Option Kind} (member : (key, own) ∈ deliveredPairs state.updates) :
    key ∈ stream.flatten ∧ (own = none ∨ own = some (Kind.parse (typeOf key))) ∧
      ∀ wanted, kind = some wanted → own = some wanted ∧ Kind.parse (typeOf key) = wanted := by
  rcases sliced with ⟨slices, unread, good, split, delivered, _, _⟩
  rw [delivered] at member
  rcases List.mem_flatMap.mp member with ⟨slice, sliceMem, inSlice⟩
  have within : ∀ key ∈ slice.2, key ∈ stream.flatten := by
    intro key inSlice
    rw [← split]
    exact List.mem_append_left _ (List.mem_flatMap.mpr ⟨slice, sliceMem, inSlice⟩)
  have sliceTrusted : Trusted conn kind typeOf slice.2 := by
    intro supported wanted kindEq key inSlice
    exact trusted supported wanted kindEq key (within key inSlice)
  rcases mem_typeKeysWith (good slice sliceMem) sliceTrusted inSlice with ⟨present, types⟩
  exact ⟨within key present, types⟩

/-- A scan that has just been opened reads all pages, or what the server leaves of
them, which is all that is expected. -/
theorem Lists.openScan {scanApi : ScanApi} {pattern : Option Str} {pages : List (List Str)}
    (lists : Lists conn scanApi typeOf pattern pages) (settable : kind ∈ Tui.kindCycle)
    (worker : Worker) :
    ∃ stream : List (List Str),
      (worker.openScan (sceneOf conn scanApi) pattern kind).Before kind (stream.map .ok) ∧
      Trusted conn kind typeOf stream.flatten ∧
      (∀ key ∈ stream.flatten, key ∈ pages.flatten) ∧
      stream.flatten.filterMap (expected kind typeOf) =
        pages.flatten.filterMap (expected kind typeOf) := by
  have opened := worker.before_openScan (sceneOf conn scanApi) pattern kind
  have unreadEq : (worker.openScan (sceneOf conn scanApi) pattern kind).unread =
      scanApi.pages conn (pattern.getD "*".toList) (some scanCount)
        (((kind.filter fun _ => conn.capabilities.has .scanTypeFilter).map Kind.label).bind
          parseScanType) := rfl
  rw [unreadEq] at opened
  cases filtered : kind.filter fun _ => conn.capabilities.has .scanTypeFilter with
  | none =>
      rw [filtered, Option.map_none, Option.bind_none, lists.all] at opened
      refine ⟨pages, opened, ?_, fun _ => id, rfl⟩
      intro supported wanted kindEq
      simp [kindEq, supported] at filtered
  | some wanted =>
      rcases Option.filter_eq_some_iff.mp filtered with ⟨kindEq, supported⟩
      rcases parse_iff_of_mem_kindCycle (kindEq ▸ settable) with ⟨type, parsed, typed⟩
      rw [filtered, Option.map_some, Option.bind_some, parsed, lists.filtered supported] at opened
      have flattened :
          (pages.map fun page => page.filter fun key => typeOf key = type.label).flatten =
            pages.flatten.filter fun key => typeOf key = type.label :=
        List.filter_flatten.symm
      refine ⟨_, opened, ?_, ?_, ?_⟩
      · intro _ same sameEq key member
        cases kindEq.symm.trans sameEq
        rw [flattened] at member
        exact (typed _).mpr (of_decide_eq_true (List.mem_filter.mp member).2)
      · intro key member
        rw [flattened] at member
        exact List.mem_of_mem_filter member
      · rw [flattened, List.filterMap_filter]
        apply List.filterMap_congr
        intro key _
        split
        next => rfl
        next different =>
            have otherType : Kind.parse (typeOf key) ≠ wanted := by
              rw [ne_eq, typed]
              simpa using different
            simp [expected, kindEq, otherType]

theorem sliced_scanWith {scanApi : ScanApi} {pattern : Option Str} {worker : Worker}
    (before : (worker.openScan (sceneOf conn scanApi) pattern kind).Before kind (stream.map .ok))
    {first : Typing} {rest : List Typing} (typed : ∀ typing ∈ first :: rest, good typing) :
    (scanWith conn scanApi worker pattern kind first rest).Sliced conn kind stream good := by
  have opened : ({ worker := worker.openScan (sceneOf conn scanApi) pattern kind, updates := [] } :
      ScanRun).Sliced conn kind stream good := by
    refine ⟨[], stream, by simp, rfl, rfl, before, ?_⟩
    intro ends
    rcases ends with ⟨_, _, _, last⟩
    cases last
  apply (opened.record (typed first (List.mem_cons_self ..)) true).1.run
  intro typing member
  exact typed typing (List.mem_cons_of_mem _ member)

end Runs

/-- A server that answers as Redis does answers every `TYPE` with the type. -/
theorem typingOf_serves {wire : Wire} {keyspace : Keyspace} (serves : conn.Serves wire keyspace)
    (named : ∀ key, typeOf key = match keyspace key with
      | none => "none".toList
      | some entry => entry.data.typeName) :
    (typingOf conn).Answers ∧ (typingOf conn).Truthful conn.client.api typeOf := by
  have answered (keys : List Str) : conn.pipeline (typeCmds keys) =
      .ok (keys.map fun key => .ok (.string (typeOf key))) := by
    have allowed : ∀ cmd ∈ typeCmds keys, readOnlyCommand conn.client.api cmd.1 cmd.2 := by
      intro cmd member
      rcases List.mem_map.mp member with ⟨key, _, rfl⟩
      rfl
    rw [Conn.pipeline_eq serves.pipelines allowed, typeCmds, List.map_map]
    congr 1
    apply List.map_congr_left
    intro key _
    rw [Function.comp_apply, Conn.execute, serves.custom_eq, named]
    rfl
  constructor
  · constructor
    intro n keys
    refine ⟨_, answered keys, ?_⟩
    intro reply member
    rcases List.mem_map.mp member with ⟨key, _, rfl⟩
    exact ⟨_, rfl⟩
  · constructor
    intro n keys replies i key reply there here replied
    cases (answered keys).symm.trans there
    rw [List.getElem?_map, here] at replied
    cases replied
    exact serves.lawful.displayString_string _

/-- A scan under a type filter delivers the same pairs from a server that filters
as from one that does not, and does come to its end.  Where a `TYPE` or a whole
chunk fails, a key is delivered with its own type or none, under a filter with its
own only, and what a place contributes depends on its own chunk only. -/
theorem type_filters_agree (typeOf : Str → Str) (pages : List (List Str)) (pattern : Option Str)
    (kind : Option Kind) (settable : kind ∈ Tui.kindCycle) :
    (∀ (filtering plain : Conn) (filteringApi plainApi : ScanApi),
      filtering.capabilities.has .scanTypeFilter → ¬plain.capabilities.has .scanTypeFilter →
      Lists filtering filteringApi typeOf pattern pages →
      Lists plain plainApi typeOf pattern pages →
      ∀ (left right : Worker) (first first' : Typing) (rest rest' : List Typing),
        (∀ typing ∈ first :: rest,
          typing.Answers ∧ typing.Truthful filtering.client.api typeOf) →
        (∀ typing ∈ first' :: rest', typing.Answers ∧ typing.Truthful plain.client.api typeOf) →
        let filteringRun := scanWith filtering filteringApi left pattern kind first rest
        let plainRun := scanWith plain plainApi right pattern kind first' rest'
        EndsComplete filteringRun.updates → EndsComplete plainRun.updates →
          deliveredPairs filteringRun.updates = deliveredPairs plainRun.updates) ∧
    ∀ (conn : Conn) (scanApi : ScanApi), Lists conn scanApi typeOf pattern pages →
      (∀ (worker : Worker) (first : Typing) (typings : Nat → Typing), ∃ count,
        EndsComplete (scanWith conn scanApi worker pattern kind first
          ((List.range count).map typings)).updates) ∧
      (∀ (worker : Worker) (first : Typing) (rest : List Typing),
        (∀ typing ∈ first :: rest, typing.Truthful conn.client.api typeOf) →
        ∀ key own, (key, own) ∈ deliveredPairs
            (scanWith conn scanApi worker pattern kind first rest).updates →
          key ∈ pages.flatten ∧ (own = none ∨ own = some (Kind.parse (typeOf key))) ∧
          ∀ wanted, kind = some wanted → own = some wanted ∧ Kind.parse (typeOf key) = wanted) ∧
      ∀ (worker : Worker) (typing : Typing) (keys : List Str),
        worker.typeKeysWith conn typing keys =
          (List.range keys.length).filterMap (worker.typedAt conn typing keys) ∧
        ∀ (other : Typing) (i : Nat),
          typing.answer (i / maxTyped) (typeCmds (ownChunk keys i)) =
            other.answer (i / maxTyped) (typeCmds (ownChunk keys i)) →
          worker.typedAt conn typing keys i = worker.typedAt conn other keys i := by
  constructor
  · intro filtering plain filteringApi plainApi _ _ filteringLists plainLists left right first
      first' rest rest' typed typed' filteringRun plainRun filteringEnds plainEnds
    rcases filteringLists.openScan settable left with ⟨_, before, trusted, _, same⟩
    rcases plainLists.openScan settable right with ⟨_, before', trusted', _, same'⟩
    rw [(sliced_scanWith before typed).delivered_eq trusted filteringEnds,
      (sliced_scanWith before' typed').delivered_eq trusted' plainEnds, same, same']
  · intro conn scanApi lists
    refine ⟨?_, ?_, ?_⟩
    · intro worker first typings
      rcases lists.openScan settable worker with ⟨stream, before, _⟩
      have opened : (scanWith conn scanApi worker pattern kind first []).Sliced conn kind stream
          fun _ => True := sliced_scanWith before fun _ _ => trivial
      exact opened.reaches_end typings fun _ => trivial
    · intro worker first rest truthful key own member
      rcases lists.openScan settable worker with ⟨_, before, trusted, within, _⟩
      rcases (sliced_scanWith before truthful).of_mem trusted member with ⟨present, types⟩
      exact ⟨within key present, types⟩
    · intro worker typing keys
      refine ⟨worker.typeKeysWith_eq conn typing keys, ?_⟩
      intro other i same
      rw [Worker.typedAt, Worker.typedAt, Typing.ownReply, Typing.ownReply, same]

/-- Both servers deliver the one hash of three keys. -/
theorem type_filters_agree_on_hashes :
    let keyspace : Keyspace := fun key =>
      if key = "h".toList then some { data := .hash [], ttl := none }
      else some { data := .string [], ttl := none }
    let typeOf := fun key =>
      if key = "h".toList then "hash".toList else "string".toList
    let pages := [["s".toList, "h".toList], ["t".toList]]
    let filtering := Conn.answering plainApi plainWire keyspace { get := fun _ => .available }
    let plain := Conn.answering plainApi plainWire keyspace {}
    let scan := fun (_ : Str) (_ : Option Nat) (type : Option ScanType) =>
      (pages.map fun page => page.filter fun key => type.all fun type =>
        typeOf key = type.label).map Except.ok
    let scanApi : ScanApi := { scan, scanCluster := scan }
    let filteringRun := scanWith filtering scanApi {} none (some .hash) (typingOf filtering) []
    let plainRun := scanWith plain scanApi {} none (some .hash) (typingOf plain) []
    deliveredPairs filteringRun.updates = [("h".toList, some .hash)] ∧
      deliveredPairs filteringRun.updates = deliveredPairs plainRun.updates := by
  intro keyspace typeOf pages filtering plain scan scanApi filteringRun plainRun
  have named : ∀ key, typeOf key = match keyspace key with
      | none => "none".toList
      | some entry => entry.data.typeName := by
    intro key
    dsimp only [typeOf, keyspace]
    split <;> rfl
  have filteringTyped := typingOf_serves
    (Conn.serves_answering plainApi_lawful plainWire keyspace { get := fun _ => .available }) named
  have plainTyped := typingOf_serves
    (Conn.serves_answering plainApi_lawful plainWire keyspace {}) named
  have filteringLists : Lists filtering scanApi typeOf none pages := by
    constructor
    · rfl
    · intro _ type
      rfl
  have plainLists : Lists plain scanApi typeOf none pages := by
    constructor
    · rfl
    · intro _ type
      rfl
  refine ⟨by decide +kernel, ?_⟩
  apply (type_filters_agree typeOf pages none (some .hash) (by decide)).1 filtering plain scanApi
    scanApi (by decide) (by decide) filteringLists plainLists
  · simpa using filteringTyped
  · simpa using plainTyped
  · exact ⟨_, _, _, rfl⟩
  · exact ⟨_, _, _, rfl⟩

end Keylens.Backend
