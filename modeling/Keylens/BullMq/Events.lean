import Keylens.Basic
import Keylens.Library.KeyedRow
import Mathlib.Data.List.AList

/-!
# Live throughput from the BullMQ events stream

`Series` is the per-second history of one queue: a deque of buckets, each
holding the events of one second.  `Throughput` keeps one series per queue.
Seconds are `i64` values obtained by dividing a millisecond timestamp by 1000,
so the additions below stay far inside the range of `i64`; they are written
over `Int`, and the event counters over `Nat`.
-/

namespace Keylens.BullMq

open Keylens.Library

/-- Seconds of history kept per queue. -/
def windowSecs : Nat := 120

/-- The BullMQ event names worth distinguishing. -/
inductive EventKind where
  | added | active | completed | failed | delayed | progress | removed
  | paused | resumed | drained | stalled | other
  deriving DecidableEq, Repr

/-- Read an event name; anything unknown is `other`. -/
def EventKind.parse (raw : Str) : EventKind :=
  if raw = "added".toList then .added
  else if raw = "active".toList then .active
  else if raw = "completed".toList then .completed
  else if raw = "failed".toList then .failed
  else if raw = "delayed".toList then .delayed
  else if raw = "progress".toList then .progress
  else if raw = "removed".toList then .removed
  else if raw = "paused".toList then .paused
  else if raw = "resumed".toList then .resumed
  else if raw = "drained".toList then .drained
  else if raw = "stalled".toList then .stalled
  else .other

/-- One second of activity. -/
structure Bucket where
  second : Int
  completed : Nat := 0
  failed : Nat := 0
  added : Nat := 0
  total : Nat := 0
  deriving DecidableEq, Repr

/-- Count one more event in a bucket. -/
def Bucket.tally (kind : EventKind) (bucket : Bucket) : Bucket :=
  let bucket := { bucket with total := bucket.total + 1 }
  match kind with
  | .completed => { bucket with completed := bucket.completed + 1 }
  | .failed => { bucket with failed := bucket.failed + 1 }
  | .added => { bucket with added := bucket.added + 1 }
  | _ => bucket

/-- A rolling per-second history for one queue, oldest bucket first. -/
structure Series where
  buckets : List Bucket := []
  /-- Cumulative since the stream was attached. -/
  seen : Nat := 0
  failedTotal : Nat := 0
  deriving DecidableEq, Repr

/-- The bucket list with a bucket for `second`, and the position of that
bucket. -/
def Series.place (buckets : List Bucket) (second : Int) : List Bucket × Nat :=
  match rposition (fun bucket => bucket.second ≤ second) buckets with
  | some i =>
      if (buckets[i]?).any (fun bucket => bucket.second = second) then (buckets, i)
      else (buckets.insertIdx (i + 1) { second }, i + 1)
  | none => ({ second } :: buckets, 0)

/-- Record one event.  Only an event that has fallen out of the window entirely
is dropped; one inside the window gets the bucket of its own second even when it
arrives out of order. -/
def Series.record (series : Series) (kind : EventKind) (second : Int) : Series :=
  let newest := (series.buckets.getLast?.map Bucket.second).getD second
  if second + windowSecs ≤ newest then series
  else
    let (buckets, idx) := Series.place series.buckets second
    let buckets := buckets.modify idx (Bucket.tally kind)
    { -- The oldest buckets go first once there are more than the window holds.
      buckets := buckets.drop (buckets.length - windowSecs)
      seen := series.seen + 1
      failedTotal :=
        if kind = .failed then series.failedTotal + 1 else series.failedTotal }

/-- The last `width` seconds ending at `now`, zero-filled. -/
def Series.window (series : Series) (now : Int) (width : Nat) (pick : Bucket → Nat) :
    List Nat :=
  if width = 0 then []
  else
    let start := now - width + 1
    series.buckets.foldl (fun out bucket =>
        if start ≤ bucket.second ∧ bucket.second ≤ now then
          out.set (bucket.second - start).toNat (pick bucket)
        else out)
      (List.replicate width 0)

/-- The events `Series.rate` divides by the elapsed seconds. -/
def Series.rateTotal (series : Series) (now secs : Int) : Nat :=
  let start := now - secs + 1
  ((series.buckets.filter fun bucket => start ≤ bucket.second ∧ bucket.second ≤ now).map
    Bucket.total).sum

/-- Events per second over the last `secs`, as numerator and denominator of the
quotient that the source computes in floating point. -/
def Series.rate (series : Series) (now secs : Int) : Nat × Int :=
  if secs ≤ 0 then (0, 1) else (series.rateTotal now secs, secs)

/-- Where the live events reader has got to. -/
inductive EventsStatus where
  | attaching
  | live
  | unavailable (why : Str)
  deriving DecidableEq, Repr

/-- Throughput across every queue being watched. -/
structure Throughput where
  entries : AList fun _ : Str => Series := ∅
  status : EventsStatus := .attaching

namespace Throughput

/-- Record an event at its own timestamp, taken from the stream entry id. -/
def record (throughput : Throughput) (queue : Str) (kind : EventKind) (atMs : Int) :
    Throughput :=
  let series := (throughput.entries.lookup queue).getD {}
  { throughput with
    entries := throughput.entries.insert queue (series.record kind (atMs.tdiv 1000)) }

def series (throughput : Throughput) (queue : Str) : Option Series :=
  throughput.entries.lookup queue

end Throughput

/-- A call of `Throughput.record`. -/
structure Recorded where
  queue : Str
  kind : EventKind
  atMs : Int
  deriving DecidableEq, Repr

/-- The second an event is filed under. -/
def Recorded.second (event : Recorded) : Int :=
  event.atMs.tdiv 1000

/-- The throughput after a sequence of calls of `Throughput.record`. -/
def Throughput.replay (events : List Recorded) : Throughput :=
  events.foldl (fun throughput event =>
    throughput.record event.queue event.kind event.atMs) {}

end Keylens.BullMq
