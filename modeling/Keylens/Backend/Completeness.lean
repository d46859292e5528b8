import Keylens.Connection.Redis
import Keylens.Library.Runs
import Keylens.Backend.Batch

/-!
# Whether a scan delivers every key

A batch that meets an error gives up the keys it has gathered from the pages
before it.  A scan without a type filter therefore delivers every key exactly
when none of its batches does so.
-/

namespace Keylens.Backend

open Keylens.Library Keylens.Connection

/-- The keys on the pages of a stretch of the scan. -/
def keysOf (pages : Pages) : List Str :=
  pages.flatMap fun result => result.toOption.getD []

/-- The keys of the batches among some updates. -/
def deliveredKeys (updates : List Update) : List Str :=
  updates.flatMap fun
    | .batch keys _ _ _ => keys.map Prod.fst
    | _ => []

/-- The last update is a batch that ends the scan. -/
def EndsComplete (updates : List Update) : Prop :=
  ∃ keys reset pages, updates.getLast? = some (.batch keys reset true pages)

/-- Before the next batch is full, an error follows a page with keys. -/
def LosesKeys (unread : Pages) : Prop :=
  ∃ (pages : List (List Str)) (source : ClientError) (after : Pages),
    unread = pages.map .ok ++ .error source :: after ∧
    pages.length < maxPagesPerBatch ∧ pages.flatten ≠ [] ∧ pages.flatten.length < batchTarget

/-- A worker and what it has answered since a `Rescan`. -/
structure ScanRun where
  worker : Worker
  updates : List Update

/-- Keep what one request was answered. -/
def ScanRun.record (state : ScanRun) (answer : Worker × Update) : ScanRun :=
  { worker := answer.1, updates := state.updates ++ [answer.2] }

/-- A `Rescan` without a type filter. -/
def ScanRun.rescan (worker : Worker) (pattern : Option Str) (scene : Scene) : ScanRun :=
  ScanRun.record { worker, updates := [] } (worker.rescan scene pattern none)

def ScanRun.more (state : ScanRun) (scene : Scene) : ScanRun :=
  state.record (state.worker.more scene)

/-- When the scan has ended, the batches hold the keys of all pages the scanner
has yielded, in order. -/
def ScanRun.Delivers (stream : Pages) (state : ScanRun) : Prop :=
  EndsComplete state.updates →
    deliveredKeys state.updates =
      keysOf (stream.take (stream.length - state.worker.unread.length))

/-- Without a type filter every key keeps its place. -/
theorem Worker.map_fst_typeKeys {worker : Worker} (noFilter : worker.kind = none) (conn : Conn)
    (keys : List Str) : (worker.typeKeys conn keys).map Prod.fst = keys := by
  cases keys with
  | nil => simp [typeKeys, noFilter]
  | cons key keys =>
      simp only [typeKeys, noFilter, Option.filter_none, List.isEmpty_cons, Bool.false_eq_true,
        if_false, Option.any_none, List.filterMap_eq_map', List.map_map]
      exact List.zipIdx_map_fst 0 (key :: keys)

/-! ## Runs -/

/-- After a stretch of the stream, a worker stands before the rest of it. -/
structure ScanRun.Reads (state : ScanRun) (stream read : Pages) : Prop where
  split : stream = read ++ state.worker.unread
  before : state.worker.Before none state.worker.unread
  ended : EndsComplete state.updates → state.worker.unread = []

theorem keysOf_append (front back : Pages) : keysOf (front ++ back) = keysOf front ++ keysOf back :=
  List.flatMap_append

@[simp] theorem keysOf_map_ok (pages : List (List Str)) :
    keysOf (pages.map .ok) = pages.flatten := by
  rw [keysOf, List.flatMap_map]
  exact List.flatMap_id'

theorem deliveredKeys_concat (updates : List Update) (update : Update) :
    deliveredKeys (updates ++ [update]) = deliveredKeys updates ++ deliveredKeys [update] :=
  List.flatMap_append

theorem endsComplete_concat {updates : List Update} {update : Update} :
    EndsComplete (updates ++ [update]) ↔
      ∃ keys reset pages, update = .batch keys reset true pages := by
  simp [EndsComplete]

theorem keysOf_upToError (taken : List (List Str)) (source : ClientError) :
    keysOf (taken.map .ok ++ [.error source]) = taken.flatten := by
  rw [keysOf_append, keysOf_map_ok]
  exact List.append_nil _

section Batch

variable {state : ScanRun} {stream read : Pages}

/-- A batch that meets an error delivers nothing of what it has read. -/
theorem ScanRun.Reads.record_error (reads : state.Reads stream read) {taken : List (List Str)}
    {source : ClientError} {after : Pages} {worker : Worker}
    (split : state.worker.unread = taken.map .ok ++ .error source :: after)
    (gathered : state.worker.gather maxPagesPerBatch [] 0 =
      (.error (.command .scan source), worker))
    (before : worker.Before none after) (conn : Conn) (reset : Bool) :
    let next := state.record (state.worker.scanBatch conn reset)
    next.Reads stream (read ++ (taken.map .ok ++ [.error source])) ∧
      deliveredKeys next.updates = deliveredKeys state.updates ∧ next.worker.unread = after := by
  intro next
  have nextEq : next = { worker, updates := state.updates ++
      [.error (ConnError.command .scan source).text] } := by
    simp only [next, ScanRun.record, Worker.scanBatch, gathered]
  rw [nextEq]
  refine ⟨⟨?_, ?_, ?_⟩, ?_, before.unread_eq⟩
  · rw [reads.split, split, before.unread_eq]
    simp
  · rw [before.unread_eq]
    exact before
  · intro ends
    rcases endsComplete_concat.mp ends with ⟨_, _, _, batchEq⟩
    cases batchEq
  · rw [deliveredKeys_concat]
    exact List.append_nil _

/-- A batch that meets none delivers what it has read. -/
theorem ScanRun.Reads.record_batch (reads : state.Reads stream read) {taken : List (List Str)}
    {pages : Nat} {after : Pages} {worker : Worker}
    (split : state.worker.unread = taken.map .ok ++ after)
    (gathered : state.worker.gather maxPagesPerBatch [] 0 =
      (.ok ([] ++ taken.flatten, pages), worker))
    (before : worker.Before none after) (conn : Conn) (reset : Bool) :
    let next := state.record (state.worker.scanBatch conn reset)
    next.Reads stream (read ++ taken.map .ok) ∧
      deliveredKeys next.updates = deliveredKeys state.updates ++ keysOf (taken.map .ok) ∧
      (worker.complete → EndsComplete next.updates) ∧ next.worker.unread = after := by
  intro next
  have nextEq : next = { worker, updates := state.updates ++
      [.batch (worker.typeKeys conn ([] ++ taken.flatten)) reset worker.complete pages] } := by
    simp only [next, ScanRun.record, Worker.scanBatch, gathered]
  rw [nextEq]
  refine ⟨⟨?_, ?_, ?_⟩, ?_, ?_, before.unread_eq⟩
  · rw [reads.split, split, before.unread_eq, List.append_assoc]
  · rw [before.unread_eq]
    exact before
  · intro ends
    rcases endsComplete_concat.mp ends with ⟨_, _, _, batchEq⟩
    injection batchEq with _ _ complete _
    rw [before.unread_eq]
    exact before.ended complete
  · rw [deliveredKeys_concat, keysOf_map_ok]
    simp [deliveredKeys, Worker.map_fst_typeKeys before.kind_eq]
  · intro complete
    exact endsComplete_concat.mpr ⟨_, reset, pages, by rw [complete]⟩

/-- One batch delivers the keys of the pages it reads, unless an error makes it
lose them. -/
theorem ScanRun.Reads.record (reads : state.Reads stream read) (conn : Conn) (reset : Bool) :
    let next := state.record (state.worker.scanBatch conn reset)
    ∃ chunk, next.Reads stream (read ++ chunk) ∧
      (deliveredKeys next.updates = deliveredKeys state.updates ++ keysOf chunk ∨
        LosesKeys state.worker.unread ∧
          deliveredKeys next.updates = deliveredKeys state.updates) ∧
      (EndsComplete next.updates ∨
        next.worker.unread.length < state.worker.unread.length) := by
  intro next
  have gathers : Gathers none maxPagesPerBatch [] state.worker.unread
      (state.worker.gather maxPagesPerBatch [] 0) := gathers_gather reads.before
  generalize gathered : state.worker.gather maxPagesPerBatch [] 0 = result at gathers
  cases gathers with
  | batch taken after pages worker split before progress =>
      rcases reads.record_batch split gathered before conn reset with
        ⟨nextReads, delivered, ends, unreadEq⟩
      refine ⟨taken.map .ok, nextReads, .inl delivered, ?_⟩
      rcases progress (by decide) (by decide) with complete | shorter
      · exact .inl (ends complete)
      · exact .inr (by rwa [unreadEq])
  | error taken source after worker split before within short =>
      rcases reads.record_error split gathered before conn reset with ⟨nextReads, same, unreadEq⟩
      refine ⟨taken.map .ok ++ [.error source], nextReads, ?_, .inr ?_⟩
      · rw [keysOf_upToError, same]
        by_cases empty : taken.flatten = []
        · exact .inl (by rw [empty, List.append_nil])
        · exact .inr ⟨⟨taken, source, after, split, within, empty, by simpa using short⟩, rfl⟩
      · rw [unreadEq, split]
        simp only [List.length_append, List.length_cons, List.length_map]
        omega

/-- A batch that meets an error too soon loses the keys before it. -/
theorem ScanRun.Reads.record_of_losesKeys (reads : state.Reads stream read)
    (loses : LosesKeys state.worker.unread) (conn : Conn) (reset : Bool) :
    let next := state.record (state.worker.scanBatch conn reset)
    ∃ chunk, next.Reads stream (read ++ chunk) ∧ keysOf chunk ≠ [] ∧
      deliveredKeys next.updates = deliveredKeys state.updates := by
  rcases loses with ⟨taken, source, after, split, within, nonempty, short⟩
  have before := reads.before
  rw [split] at before
  rw [← List.nil_append taken.flatten] at short
  rcases gather_of_error before within short with ⟨worker, gathered, afterBefore⟩
  rcases reads.record_error split gathered afterBefore conn reset with ⟨nextReads, same, _⟩
  refine ⟨_, nextReads, ?_, same⟩
  rw [keysOf_upToError]
  exact nonempty

end Batch

section Runs

variable {state : ScanRun} {stream read : Pages}

theorem ScanRun.Reads.read_eq (reads : state.Reads stream read) :
    stream.take (stream.length - state.worker.unread.length) = read := by
  rw [reads.split]
  simp

/-- Before the first batch of a `Rescan`, the whole stream is unread. -/
theorem reads_openScan (worker : Worker) (pattern : Option Str) (scene : Scene) :
    ({ worker := worker.openScan scene pattern none, updates := [] } : ScanRun).Reads
      (scene.keyScanner pattern scanCount none).pages [] := by
  refine ⟨rfl, worker.before_openScan scene pattern none, ?_⟩
  intro ends
  rcases ends with ⟨_, _, _, last⟩
  cases last

/-- Some batches later the scan has ended. -/
theorem ScanRun.Reads.reaches_end (reads : state.Reads stream read) (scene : Scene) :
    ∃ scenes, EndsComplete (run ScanRun.more state scenes).updates := by
  generalize bound : state.worker.unread.length = length
  induction length using Nat.strongRecOn generalizing state read with
  | ind length ih =>
      rcases reads.record scene.conn false with ⟨chunk, nextReads, _, ends | shorter⟩
      · exact ⟨[scene], ends⟩
      · rw [bound] at shorter
        rcases ih _ shorter nextReads rfl with ⟨scenes, ends⟩
        exact ⟨scene :: scenes, ends⟩

/-- Every key read so far has been delivered. -/
def ScanRun.Lossless (stream : Pages) (state : ScanRun) : Prop :=
  ∃ read, state.Reads stream read ∧ deliveredKeys state.updates = keysOf read

/-- At least so many keys that have been read were not delivered. -/
def ScanRun.Lacks (stream : Pages) (count : Nat) (state : ScanRun) : Prop :=
  ∃ read, state.Reads stream read ∧
    (deliveredKeys state.updates).length + count ≤ (keysOf read).length

theorem ScanRun.Lossless.record (lossless : state.Lossless stream)
    (safe : ¬LosesKeys state.worker.unread) (conn : Conn) (reset : Bool) :
    (state.record (state.worker.scanBatch conn reset)).Lossless stream := by
  rcases lossless with ⟨read, reads, equal⟩
  rcases reads.record conn reset with ⟨chunk, nextReads, delivered | ⟨loses, _⟩, _⟩
  · exact ⟨read ++ chunk, nextReads, by rw [delivered, equal, keysOf_append]⟩
  · exact absurd loses safe

variable {count : Nat}

/-- Keys that were lost are never delivered later. -/
theorem ScanRun.Lacks.record (lacks : state.Lacks stream count) (conn : Conn) (reset : Bool) :
    (state.record (state.worker.scanBatch conn reset)).Lacks stream count := by
  rcases lacks with ⟨read, reads, short⟩
  rcases reads.record conn reset with ⟨chunk, nextReads, delivered, _⟩
  refine ⟨read ++ chunk, nextReads, ?_⟩
  rw [keysOf_append, List.length_append]
  rcases delivered with delivered | ⟨_, delivered⟩
  · rw [delivered, List.length_append]
    omega
  · rw [delivered]
    omega

/-- A batch that loses keys. -/
theorem ScanRun.Lacks.record_of_losesKeys (lacks : state.Lacks stream 0)
    (loses : LosesKeys state.worker.unread) (conn : Conn) (reset : Bool) :
    (state.record (state.worker.scanBatch conn reset)).Lacks stream 1 := by
  rcases lacks with ⟨read, reads, short⟩
  rcases reads.record_of_losesKeys loses conn reset with ⟨chunk, nextReads, nonempty, delivered⟩
  refine ⟨read ++ chunk, nextReads, ?_⟩
  have positive := List.length_pos_iff.mpr nonempty
  rw [delivered, keysOf_append, List.length_append]
  omega

/-- A scan that lacks a key still comes to its end, without it. -/
theorem ScanRun.Lacks.not_delivers (lacks : state.Lacks stream 1) (scene : Scene) :
    ∃ scenes, ¬(run ScanRun.more state scenes).Delivers stream := by
  rcases lacks with ⟨read, reads, short⟩
  rcases reads.reaches_end scene with ⟨scenes, ends⟩
  refine ⟨scenes, fun delivers => ?_⟩
  have staysShort : (run ScanRun.more state scenes).Lacks stream 1 :=
    run_invariant_of_step (fun _ scene lacks => lacks.record scene.conn false)
      ⟨read, reads, short⟩ scenes
  rcases staysShort with ⟨endRead, endReads, endShort⟩
  rw [delivers ends, endReads.read_eq] at endShort
  exact Nat.not_succ_le_self _ endShort

theorem ScanRun.Lossless.delivers (lossless : state.Lossless stream) : state.Delivers stream := by
  rcases lossless with ⟨read, reads, equal⟩
  intro _
  rw [reads.read_eq, equal]

end Runs

/-- No batch of a run meets an error before it is full and after a page with
keys. -/
def LosesNoKeys (stream : Pages) (start : ScanRun) (scenes : List Scene) : Prop :=
  ¬LosesKeys stream ∧
    Along ScanRun.more (fun state _ => ¬LosesKeys state.worker.unread) start scenes

/-- Every run over a stream delivers all its keys exactly when no batch of a run
loses keys. -/
theorem delivers_iff_losesNoKeys (worker : Worker) (pattern : Option Str) (first : Scene) :
    let stream := (first.keyScanner pattern scanCount none).pages
    let start := ScanRun.rescan worker pattern first
    (∀ scenes, (run ScanRun.more start scenes).Delivers stream) ↔
      ∀ scenes, LosesNoKeys stream start scenes := by
  intro stream start
  have opened := reads_openScan worker pattern first
  constructor
  · intro delivers scenes
    have bounded : start.Lacks stream 0 :=
      ScanRun.Lacks.record ⟨[], opened, le_rfl⟩ first.conn true
    constructor
    · intro loses
      have lacks : start.Lacks stream 1 :=
        ScanRun.Lacks.record_of_losesKeys ⟨[], opened, le_rfl⟩ loses first.conn true
      rcases lacks.not_delivers first with ⟨scenes, fails⟩
      exact fails (delivers scenes)
    · by_contra unsafe'
      rcases exists_of_not_along unsafe' with ⟨front, scene, loses⟩
      have boundedThere : (run ScanRun.more start front).Lacks stream 0 :=
        run_invariant_of_step (fun _ scene lacks => lacks.record scene.conn false) bounded front
      have lacks := boundedThere.record_of_losesKeys (not_not.mp loses) scene.conn false
      rcases lacks.not_delivers scene with ⟨scenes, fails⟩
      apply fails
      have whole := delivers (front ++ scene :: scenes)
      rwa [run_append, run_cons] at whole
  · intro safe scenes
    have atStart : start.Lossless stream :=
      ScanRun.Lossless.record ⟨[], opened, rfl⟩ (safe []).1 first.conn true
    have atEnd : (run ScanRun.more start scenes).Lossless stream :=
      run_invariant (fun state scene lossless safe => lossless.record safe scene.conn false)
        atStart (safe scenes).2
    exact atEnd.delivers

/-- A page, an error and another page: the first batch gives up the key `a`, and
the second ends the scan without it. -/
theorem delivers_fails_after_error :
    let wire : Wire :=
      { bulk := fun _ => .null, scored := fun _ => .null
        scanPage := fun payloads _ => ([], payloads), memoryUsage := fun _ _ => 0 }
    let scene : Scene :=
      { conn := Conn.answering plainApi wire (fun _ => none) {}
        keyScanner := fun _ _ _ =>
          ⟨[.ok ["a".toList], .error stillLoading, .ok ["b".toList]]⟩ }
    let state := run ScanRun.more (ScanRun.rescan {} none scene) [scene]
    EndsComplete state.updates ∧ deliveredKeys state.updates = ["b".toList] ∧
      ¬∀ (worker : Worker) (pattern : Option Str) (first : Scene) (scenes : List Scene),
        (run ScanRun.more (ScanRun.rescan worker pattern first) scenes).Delivers
          (first.keyScanner pattern scanCount none).pages := by
  intro wire scene state
  have ends : EndsComplete state.updates := ⟨_, _, _, rfl⟩
  have delivered : deliveredKeys state.updates = ["b".toList] := by decide
  refine ⟨ends, delivered, fun delivers => ?_⟩
  have whole := delivers {} none scene [scene] ends
  rw [delivered] at whole
  revert whole
  decide

end Keylens.Backend
