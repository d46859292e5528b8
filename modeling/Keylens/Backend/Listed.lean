import Keylens.Backend.Alone

/-!
# What has been listed

A scanner that yields no errors, over a keyspace whose keys are all of a known type: what
the worker has delivered since the last `Rescan` is a front of the listing that the filter
asks for, and all of it once the scan has ended.
-/

namespace Keylens.Backend

open Keylens.Library Keylens.Connection Keylens.BullMq Keylens.Ui

/-- The keys that a scan with a filter is to list, each with its type. -/
def listing (typeOf : Str → Str) (pages : Option Str → List (List Str)) (pattern : Option Str)
    (kind : Option Kind) : List (Str × Option Kind) :=
  (pages pattern).flatten.filterMap (expected kind typeOf)

/-- A server that answers as Redis does, and scanners that list its keys without errors. -/
structure ListsKeys (conn : Conn) (scanApi : ScanApi) (typeOf : Str → Str)
    (pages : Option Str → List (List Str)) : Prop where
  answers : (typingOf conn).Answers
  truthful : (typingOf conn).Truthful conn.client.api typeOf
  lists : ∀ pattern, Lists conn scanApi typeOf pattern (pages pattern)

/-- A scan that has met no error. -/
def ScanRun.ListsFront (conn : Conn) (typeOf : Str → Str)
    (pages : Option Str → List (List Str)) (pattern : Option Str) (kind : Option Kind)
    (state : ScanRun) : Prop :=
  ∃ stream, Trusted conn kind typeOf stream.flatten ∧
    stream.flatten.filterMap (expected kind typeOf) = listing typeOf pages pattern kind ∧
    state.Sliced conn kind stream fun typing =>
      typing.Answers ∧ typing.Truthful conn.client.api typeOf

variable {conn : Conn} {scanApi : ScanApi} {typeOf : Str → Str}
variable {pages : Option Str → List (List Str)} {pattern : Option Str} {kind : Option Kind}
variable {state : ScanRun}

/-- What has been delivered is a front of the listing, and all of it at the end. -/
theorem ScanRun.ListsFront.delivered (lists : state.ListsFront conn typeOf pages pattern kind) :
    deliveredPairs state.updates <+: listing typeOf pages pattern kind ∧
      (EndsComplete state.updates →
        deliveredPairs state.updates = listing typeOf pages pattern kind) := by
  rcases lists with ⟨stream, trusted, same, sliced⟩
  constructor
  · rcases sliced with ⟨slices, unread, good, split, delivered, _, _⟩
    have typed : ∀ slice ∈ slices, ({ kind } : Worker).typeKeysWith conn slice.1 slice.2 =
        slice.2.filterMap (expected kind typeOf) := by
      intro slice member
      apply typeKeysWith_of_answers (good slice member).1 (good slice member).2
      intro supported wanted kindEq key inSlice
      apply trusted supported wanted kindEq key
      rw [← split]
      exact List.mem_append_left _ (List.mem_flatMap.mpr ⟨slice, member, inSlice⟩)
    rw [← same, ← split, List.filterMap_append, List.filterMap_flatMap, delivered,
      List.flatMap_congr typed]
    exact List.prefix_append _ _
  · intro ends
    rw [sliced.delivered_eq trusted ends, same]

/-- Pages alone hold no error. -/
theorem not_meetsError_map_ok (unread : List (List Str)) : ¬MeetsError (unread.map .ok) := by
  rintro ⟨taken, source, after, split, _⟩
  have member : Except.error source ∈ (unread.map .ok : Pages) := by
    rw [split]
    simp
  rcases List.mem_map.mp member with ⟨page, _, isOk⟩
  cases isOk

/-- No batch of such a scan meets an error. -/
theorem ScanRun.ListsFront.batch (lists : state.ListsFront conn typeOf pages pattern kind)
    (keyspace : ListsKeys conn scanApi typeOf pages) (reset : Bool) :
    (∃ keys complete pageCount,
      (state.worker.scanBatch conn reset).2 = .batch keys reset complete pageCount) ∧
      (state.record (state.worker.scanBatch conn reset)).ListsFront conn typeOf pages pattern
        kind := by
  rcases lists with ⟨stream, trusted, same, sliced⟩
  constructor
  · rcases sliced with ⟨_, unread, _, _, _, before, _⟩
    rcases scanBatch_of_not_meetsError before (not_meetsError_map_ok unread) conn reset with
      ⟨worker, after, keys, complete, pageCount, scanned, _⟩
    exact ⟨keys, complete, pageCount, by rw [scanned]⟩
  · rw [Worker.scanBatch_eq_scanBatchWith]
    exact ⟨stream, trusted, same, (sliced.record ⟨keyspace.answers, keyspace.truthful⟩ reset).1⟩

/-- A `Rescan` starts from the front. -/
theorem listsFront_openScan (keyspace : ListsKeys conn scanApi typeOf pages)
    (settable : kind ∈ Tui.kindCycle) (worker : Worker) (pattern : Option Str) :
    ScanRun.ListsFront conn typeOf pages pattern kind
      { worker := worker.openScan (sceneOf conn scanApi) pattern kind, updates := [] } := by
  rcases (keyspace.lists pattern).openScan settable worker with ⟨stream, before, trusted, _, same⟩
  refine ⟨stream, trusted, same, [], stream, nofun, rfl, rfl, before, ?_⟩
  rintro ⟨_, _, _, last⟩
  cases last

end Keylens.Backend
