import Keylens.BullMq.Events
import Mathlib.Algebra.BigOperators.Group.List.Basic
import Mathlib.Order.Bounds.Basic

/-!
# Throughput windows are histograms

`Tracks` relates a series to the events recorded into it: every bucket inside
the last `windowSecs` seconds holds the counts of its own second, and every
recorded second in that range has a bucket.  Recording preserves the relation,
and it determines what `Series.window` and `Series.rateTotal` return.
-/

namespace Keylens.BullMq

open Keylens.Library

/-- The counters a window can be drawn from. -/
inductive Pick where
  | total | completed | failed | added
  deriving DecidableEq, Repr

/-- The counter of a bucket. -/
def Pick.read : Pick → Bucket → Nat
  | .total => Bucket.total
  | .completed => Bucket.completed
  | .failed => Bucket.failed
  | .added => Bucket.added

/-- The events a counter counts. -/
def Pick.counts : Pick → EventKind → Bool
  | .total, _ => true
  | .completed, kind => kind = .completed
  | .failed, kind => kind = .failed
  | .added, kind => kind = .added

/-- How many of the events a counter counts in one second. -/
def Pick.count (pick : Pick) (events : List Recorded) (second : Int) : Nat :=
  events.countP fun event => event.second = second && pick.counts event.kind

@[simp] theorem Bucket.tally_second (kind : EventKind) (bucket : Bucket) :
    (bucket.tally kind).second = bucket.second := by
  cases kind <;> rfl

theorem Pick.read_tally (pick : Pick) (kind : EventKind) (bucket : Bucket) :
    pick.read (bucket.tally kind) = pick.read bucket + if pick.counts kind then 1 else 0 := by
  cases pick <;> cases kind <;> rfl

@[simp] theorem Pick.read_empty (pick : Pick) (second : Int) :
    pick.read { second } = 0 := by
  cases pick <;> rfl

theorem Pick.count_append (pick : Pick) (events : List Recorded) (event : Recorded)
    (second : Int) :
    pick.count (events ++ [event]) second =
      pick.count events second +
        if event.second = second ∧ pick.counts event.kind then 1 else 0 := by
  simp [Pick.count, List.countP_append, List.countP_cons]

theorem Pick.count_eq_zero {pick : Pick} {events : List Recorded} {second : Int}
    (absent : ∀ event ∈ events, event.second ≠ second) : pick.count events second = 0 := by
  apply List.countP_eq_zero.mpr
  intro event member
  simp [absent event member]

/-! ## One recorded event -/

/-- The bucket of a second stands between the earlier and the later buckets, or
is made for that place. -/
structure Placed (buckets : List Bucket) (second : Int) (lows : List Bucket) (bucket : Bucket)
    (highs : List Bucket) : Prop where
  second_eq : bucket.second = second
  origin : buckets = lows ++ bucket :: highs ∨ buckets = lows ++ highs ∧ bucket = { second }
  lows_lt : ∀ low ∈ lows, low.second < second
  highs_gt : ∀ high ∈ highs, second < high.second

/-- `place` finds or makes the bucket of its second and nothing else. -/
theorem Series.place_cases {buckets : List Bucket} (increasing : Increasing Bucket.second buckets)
    (second : Int) (update : Bucket → Bucket) :
    ∃ lows bucket highs, Placed buckets second lows bucket highs ∧
      (Series.place buckets second).1.modify (Series.place buckets second).2 update =
        lows ++ update bucket :: highs := by
  rcases increasing.split second with ⟨lows, highs, rfl, lowLe, highGt⟩
  have highsRejected : ∀ high ∈ highs, decide (high.second ≤ second) = false := by
    intro high member
    simpa using highGt high member
  rcases List.eq_nil_or_concat lows with rfl | ⟨before, last, rfl⟩
  · -- Every bucket is newer: a new one goes to the front.
    have missing := rposition_eq_none highsRejected
    refine ⟨[], { second }, highs, ⟨rfl, .inr ⟨rfl, rfl⟩, by simp, highGt⟩, ?_⟩
    simp [Series.place, missing]
  · rw [List.concat_eq_append] at increasing lowLe ⊢
    have lastLe := lowLe last (by simp)
    have found : rposition (fun bucket => decide (bucket.second ≤ second))
        (before ++ last :: highs) = some before.length :=
      rposition_append_cons before (by simpa using lastLe) highsRejected
    rw [List.append_assoc, List.singleton_append] at increasing ⊢
    by_cases same : last.second = second
    · refine ⟨before, last, highs, ⟨same, .inl rfl, ?_, highGt⟩, ?_⟩
      · intro low member
        exact same ▸ increasing.lows_lt low member
      · simp [Series.place, found, same, modify_append_cons]
    · have lastLt : last.second < second := lt_of_le_of_ne lastLe same
      refine ⟨before ++ [last], { second }, highs, ⟨rfl, .inr ⟨by simp, rfl⟩, ?_, highGt⟩, ?_⟩
      · intro low member
        rcases List.mem_append.mp member with earlier | here
        · exact (increasing.lows_lt low earlier).trans lastLt
        · rwa [List.mem_singleton.mp here]
      · have inserted := insertIdx_append (before ++ [last]) highs ({ second } : Bucket)
        have updated := modify_append_cons (before ++ [last]) highs ({ second } : Bucket) update
        rw [List.append_assoc, List.length_append] at inserted
        rw [List.length_append] at updated
        simp only [Series.place, found, List.getElem?_append_right, le_refl, Nat.sub_self,
          List.getElem?_cons_zero, Option.any_some, same, decide_false, Bool.false_eq_true,
          if_false]
        exact (congrArg (List.modify · _ update) inserted).trans updated

/-- The buckets after an event that is not too old to record. -/
theorem Series.record_buckets {series : Series} (kind : EventKind) {second : Int}
    (increasing : Increasing Bucket.second series.buckets)
    (recent : ∀ last, series.buckets.getLast? = some last →
      last.second < second + windowSecs) :
    ∃ lows bucket highs, Placed series.buckets second lows bucket highs ∧
      (series.record kind second).buckets =
        (lows ++ bucket.tally kind :: highs).drop
          ((lows ++ bucket.tally kind :: highs).length - windowSecs) := by
  rcases Series.place_cases increasing second (Bucket.tally kind) with
    ⟨lows, bucket, highs, placed, updated⟩
  refine ⟨lows, bucket, highs, placed, ?_⟩
  have kept : ¬second + windowSecs ≤ (series.buckets.getLast?.map Bucket.second).getD second := by
    cases isLast : series.buckets.getLast? with
    | none => simp [windowSecs]
    | some last => simpa using recent last isLast
  rw [← updated]
  simp only [Series.record, if_neg kept]

section Placed

variable {buckets lows highs : List Bucket} {bucket placed other : Bucket} {second : Int}

theorem Placed.mem (place : Placed buckets second lows bucket highs)
    (member : other ∈ lows ∨ other ∈ highs) : other ∈ buckets := by
  rcases place.origin with present | ⟨absent, _⟩
  · rw [present]
    simp [member.imp_right Or.inr]
  · rw [absent]
    exact List.mem_append.mpr member

/-- The buckets of other seconds stay. -/
theorem Placed.mem_insert (place : Placed buckets second lows bucket highs)
    (member : other ∈ buckets) (different : other.second ≠ second) :
    other ∈ lows ++ placed :: highs := by
  rcases place.origin with present | ⟨absent, _⟩
  · rw [present] at member
    have notBucket : other ≠ bucket := fun equal => different (equal ▸ place.second_eq)
    simp only [List.mem_append, List.mem_cons, notBucket, false_or] at member ⊢
    exact member.imp_right Or.inr
  · rw [absent] at member
    simp only [List.mem_append, List.mem_cons] at member ⊢
    exact member.imp_right Or.inr

theorem Placed.of_mem_insert (place : Placed buckets second lows bucket highs)
    (member : other ∈ lows ++ placed :: highs) :
    other = placed ∨ other ∈ buckets ∧ other.second ≠ second := by
  rcases List.mem_append.mp member with low | later
  · exact .inr ⟨place.mem (.inl low), (place.lows_lt other low).ne⟩
  · rcases List.mem_cons.mp later with same | high
    · exact .inl same
    · exact .inr ⟨place.mem (.inr high), (place.highs_gt other high).ne'⟩

theorem Placed.increasing (place : Placed buckets second lows bucket highs)
    (increasing : Increasing Bucket.second buckets) (second_eq : placed.second = second) :
    Increasing Bucket.second (lows ++ placed :: highs) := by
  have rest : Increasing Bucket.second (lows ++ highs) := by
    rcases place.origin with present | ⟨absent, _⟩
    · exact (present ▸ increasing).remove
    · exact absent ▸ increasing
  apply rest.insert
  · intro low member
    exact second_eq ▸ place.lows_lt low member
  · intro high member
    exact second_eq ▸ place.highs_gt high member

/-- The last bucket is either still the newest one or the placed one. -/
theorem Placed.last (place : Placed buckets second lows bucket highs) {newest : Bucket}
    (isLast : buckets.getLast? = some newest) (second_eq : placed.second = second) :
    ∃ last, (lows ++ placed :: highs).getLast? = some last ∧
      last.second = max newest.second second := by
  rcases List.eq_nil_or_concat highs with rfl | ⟨middle, top, rfl⟩
  · refine ⟨placed, by simp, second_eq.trans (max_eq_right ?_).symm⟩
    rcases place.origin with present | ⟨absent, _⟩
    · rw [present, List.getLast?_concat] at isLast
      cases isLast
      exact place.second_eq.le
    · rw [absent, List.append_nil] at isLast
      exact (place.lows_lt newest (List.mem_of_getLast? isLast)).le
  · rw [List.concat_eq_append] at *
    have topIsLast (lead : List Bucket) : (lead ++ (middle ++ [top])).getLast? = some top := by
      rw [← List.append_assoc, List.getLast?_concat]
    have newestIsTop : newest = top := by
      rcases place.origin with present | ⟨absent, _⟩
      · rw [present, List.append_cons, topIsLast] at isLast
        exact (Option.some.inj isLast).symm
      · rw [absent, topIsLast] at isLast
        exact (Option.some.inj isLast).symm
    have above := place.highs_gt top (by simp)
    refine ⟨top, ?_, ?_⟩
    · rw [List.append_cons]
      exact topIsLast _
    · rw [newestIsTop]
      exact (max_eq_left above.le).symm

end Placed

/-! ## The invariant -/

/-- `buckets` is what recording `events`, the latest of them in second `newest`,
leaves behind. -/
structure Tracks (events : List Recorded) (buckets : List Bucket) (newest : Int) : Prop where
  increasing : Increasing Bucket.second buckets
  last : ∃ bucket, buckets.getLast? = some bucket ∧ bucket.second = newest
  newest_mem : ∃ event ∈ events, event.second = newest
  le_newest : ∀ event ∈ events, event.second ≤ newest
  exact : ∀ bucket ∈ buckets, newest < bucket.second + windowSecs →
    ∀ pick : Pick, pick.read bucket = pick.count events bucket.second
  complete : ∀ event ∈ events, newest < event.second + windowSecs →
    ∃ bucket ∈ buckets, bucket.second = event.second

section Record

variable {events : List Recorded} {buckets lows highs : List Bucket} {bucket : Bucket}
variable {newest : Int} {event : Recorded}

theorem Tracks.newest_mem_append (tracks : Tracks events buckets newest) (event : Recorded) :
    ∃ other ∈ events ++ [event], other.second = max newest event.second := by
  rcases max_choice newest event.second with atNewest | atEvent
  · rcases tracks.newest_mem with ⟨top, topMem, topSecond⟩
    exact ⟨top, List.mem_append_left _ topMem, topSecond.trans atNewest.symm⟩
  · exact ⟨event, by simp, atEvent.symm⟩

theorem Tracks.le_newest_append (tracks : Tracks events buckets newest) (event : Recorded) :
    ∀ other ∈ events ++ [event], other.second ≤ max newest event.second := by
  intro other member
  rcases List.mem_append.mp member with earlier | here
  · exact (tracks.le_newest other earlier).trans (le_max_left ..)
  · rw [List.mem_singleton.mp here]
    exact le_max_right ..

/-- An event that is too old changes nothing, and no window looks that far back. -/
theorem Tracks.skip (tracks : Tracks events buckets newest)
    (old : event.second + windowSecs ≤ newest) :
    Tracks (events ++ [event]) buckets (max newest event.second) := by
  have newestEq : max newest event.second = newest := by
    apply max_eq_left
    omega
  have members := tracks.newest_mem_append event
  have bounds := tracks.le_newest_append event
  rw [newestEq] at members bounds ⊢
  refine ⟨tracks.increasing, tracks.last, members, bounds, ?_, ?_⟩
  · intro bucket member recent pick
    have different : event.second ≠ bucket.second := by omega
    rw [tracks.exact bucket member recent pick, Pick.count_append]
    simp [different]
  · intro other member recent
    rcases List.mem_append.mp member with earlier | here
    · exact tracks.complete other earlier recent
    · rw [List.mem_singleton.mp here] at recent
      omega

/-- The counts of a bucket that has just been tallied. -/
theorem Tracks.tally_exact (tracks : Tracks events buckets newest)
    (recent : newest < event.second + windowSecs)
    (place : Placed buckets event.second lows bucket highs) (pick : Pick) :
    pick.read (bucket.tally event.kind) = pick.count (events ++ [event]) event.second := by
  have before : pick.read bucket = pick.count events event.second := by
    rcases place.origin with present | ⟨absent, fresh⟩
    · have member : bucket ∈ buckets := by simp [present]
      rw [← place.second_eq]
      exact tracks.exact bucket member (place.second_eq ▸ recent) pick
    · -- A recorded event of this second would have left a bucket for it.
      rw [fresh, Pick.read_empty, Pick.count_eq_zero]
      intro earlier earlierMem sameSecond
      rcases tracks.complete earlier earlierMem (sameSecond ▸ recent) with
        ⟨other, otherMem, otherSecond⟩
      rw [absent] at otherMem
      rcases List.mem_append.mp otherMem with low | high
      · exact absurd (otherSecond.trans sameSecond) (place.lows_lt other low).ne
      · exact absurd (otherSecond.trans sameSecond) (place.highs_gt other high).ne'
  rw [Pick.read_tally, Pick.count_append, before]
  simp

/-- The row with the tallied bucket in its place, before the oldest buckets go. -/
theorem Tracks.insert (tracks : Tracks events buckets newest)
    (recent : newest < event.second + windowSecs)
    (place : Placed buckets event.second lows bucket highs) :
    Tracks (events ++ [event]) (lows ++ bucket.tally event.kind :: highs)
      (max newest event.second) := by
  have tallied : (bucket.tally event.kind).second = event.second := by
    rw [Bucket.tally_second, place.second_eq]
  have newestLe : newest ≤ max newest event.second := le_max_left ..
  constructor
  case increasing => exact place.increasing tracks.increasing tallied
  case last =>
      rcases tracks.last with ⟨last, isLast, rfl⟩
      exact place.last isLast tallied
  case newest_mem => exact tracks.newest_mem_append event
  case le_newest => exact tracks.le_newest_append event
  case exact =>
      intro other member inside pick
      rcases place.of_mem_insert member with rfl | ⟨otherMem, different⟩
      · rw [tallied]
        exact tracks.tally_exact recent place pick
      · rw [tracks.exact other otherMem (by omega) pick, Pick.count_append]
        simp [different.symm]
  case complete =>
      intro other member inside
      rcases List.mem_append.mp member with earlier | last
      · by_cases here : other.second = event.second
        · exact ⟨bucket.tally event.kind, by simp, tallied.trans here.symm⟩
        · rcases tracks.complete other earlier (by omega) with ⟨found, foundMem, foundSecond⟩
          exact ⟨found, place.mem_insert foundMem (foundSecond ▸ here), foundSecond⟩
      · rw [List.mem_singleton.mp last]
        exact ⟨bucket.tally event.kind, by simp, tallied⟩

/-- Evicting the oldest buckets never reaches into the window: with more than
`windowSecs` buckets in distinct seconds, the oldest lies outside it. -/
theorem Tracks.evict (tracks : Tracks events buckets newest) :
    Tracks events (buckets.drop (buckets.length - windowSecs)) newest := by
  rcases tracks.last with ⟨last, isLast, lastSecond⟩
  have nonempty : 0 < buckets.length := by
    rw [List.length_pos_iff]
    rintro rfl
    cases isLast
  refine ⟨tracks.increasing.drop _, ⟨last, ?_, lastSecond⟩, tracks.newest_mem,
    tracks.le_newest, ?_, ?_⟩
  · rw [List.getLast?_drop, if_neg (by rw [windowSecs]; omega), isLast]
  · intro bucket member
    exact tracks.exact bucket (List.mem_of_mem_drop member)
  · intro event member inside
    rcases tracks.complete event member inside with ⟨bucket, bucketMem, bucketSecond⟩
    refine ⟨bucket, ?_, bucketSecond⟩
    rw [← List.take_append_drop (buckets.length - windowSecs) buckets] at bucketMem
    rcases List.mem_append.mp bucketMem with evicted | kept
    · have outside := tracks.increasing.key_take_add_le isLast (by decide) evicted
      omega
    · exact kept

/-- Recording one more event. -/
theorem Tracks.record {series : Series} (tracks : Tracks events series.buckets newest)
    (event : Recorded) :
    Tracks (events ++ [event]) (series.record event.kind event.second).buckets
      (max newest event.second) := by
  rcases tracks.last with ⟨last, isLast, lastSecond⟩
  by_cases old : event.second + windowSecs ≤ newest
  · have dropped : series.record event.kind event.second = series := by
      simp [Series.record, isLast, lastSecond, old]
    rw [dropped]
    exact tracks.skip old
  · have recent : newest < event.second + windowSecs := not_le.mp old
    have recentLast : ∀ other, series.buckets.getLast? = some other →
        other.second < event.second + windowSecs := by
      intro other isOther
      rw [isLast] at isOther
      cases isOther
      rwa [lastSecond]
    rcases series.record_buckets event.kind tracks.increasing recentLast with
      ⟨lows, bucket, highs, place, recorded⟩
    rw [recorded]
    exact (tracks.insert recent place).evict

/-- The first event of a queue. -/
theorem Tracks.first (event : Recorded) :
    Tracks [event] (({} : Series).record event.kind event.second).buckets event.second := by
  have recorded : (({} : Series).record event.kind event.second).buckets =
      [Bucket.tally event.kind { second := event.second }] := by
    simp [Series.record, Series.place, rposition, windowSecs]
  rw [recorded]
  refine ⟨List.pairwise_singleton .., ⟨_, rfl, Bucket.tally_second ..⟩, ⟨event, by simp, rfl⟩,
    by simp, ?_, ?_⟩
  · intro bucket member _ pick
    rw [List.mem_singleton.mp member, Pick.read_tally, Bucket.tally_second, Pick.read_empty]
    simp [Pick.count, List.countP_cons]
  · intro other member _
    rw [List.mem_singleton.mp member]
    exact ⟨_, List.mem_singleton.mpr rfl, Bucket.tally_second ..⟩

end Record

/-! ## Every sequence of calls -/

/-- The events recorded for one queue. -/
def recordedFor (queue : Str) (events : List Recorded) : List Recorded :=
  events.filter fun event => event.queue = queue

/-- The series of every queue tracks the events of that queue. -/
theorem replay_tracks (events : List Recorded) (queue : Str) :
    match (Throughput.replay events).series queue with
    | none => recordedFor queue events = []
    | some series => ∃ newest, Tracks (recordedFor queue events) series.buckets newest := by
  induction events using List.reverseRecOn with
  | nil => rfl
  | append_singleton events event ih =>
      have replayed : Throughput.replay (events ++ [event]) =
          (Throughput.replay events).record event.queue event.kind event.atMs := by
        simp [Throughput.replay, List.foldl_append]
      rw [replayed]
      by_cases same : event.queue = queue
      · subst same
        have found : ((Throughput.replay events).record event.queue event.kind event.atMs).series
            event.queue = some ((((Throughput.replay events).series event.queue).getD {}).record
              event.kind event.second) := by
          simp [Throughput.record, Throughput.series, Recorded.second]
        have recorded : recordedFor event.queue (events ++ [event]) =
            recordedFor event.queue events ++ [event] := by
          simp [recordedFor]
        rw [found, recorded]
        cases earlier : (Throughput.replay events).series event.queue with
        | none =>
            rw [earlier] at ih
            rw [ih]
            exact ⟨event.second, Tracks.first event⟩
        | some series =>
            rw [earlier] at ih
            rcases ih with ⟨newest, tracks⟩
            exact ⟨max newest event.second, tracks.record event⟩
      · have found : ((Throughput.replay events).record event.queue event.kind event.atMs).series
            queue = (Throughput.replay events).series queue := by
          simp [Throughput.record, Throughput.series, AList.lookup_insert_ne (Ne.symm same)]
        have recorded : recordedFor queue (events ++ [event]) = recordedFor queue events := by
          simp [recordedFor, same]
        rw [found, recorded]
        exact ih

/-! ## Drawing a window -/

section Window

variable {start now : Int} {pick : Bucket → Nat}

/-- One bucket's contribution to a window. -/
def fillCell (start now : Int) (pick : Bucket → Nat) (out : List Nat) (bucket : Bucket) :
    List Nat :=
  if start ≤ bucket.second ∧ bucket.second ≤ now then
    out.set (bucket.second - start).toNat (pick bucket)
  else out

theorem length_foldl_fillCell (buckets : List Bucket) (out : List Nat) :
    (buckets.foldl (fillCell start now pick) out).length = out.length := by
  induction buckets generalizing out with
  | nil => rfl
  | cons bucket buckets ih =>
      rw [List.foldl_cons, ih, fillCell]
      split <;> simp

/-- A cell that no bucket belongs to keeps its value. -/
theorem getElem?_foldl_fillCell_of_absent {buckets : List Bucket} {pos : Nat}
    (absent : ∀ bucket ∈ buckets, bucket.second ≠ start + pos) (out : List Nat) :
    (buckets.foldl (fillCell start now pick) out)[pos]? = out[pos]? := by
  induction buckets generalizing out with
  | nil => rfl
  | cons bucket buckets ih =>
      rw [List.foldl_cons, ih fun other member => absent other (List.mem_cons_of_mem _ member),
        fillCell]
      split
      next inside =>
        have different := absent bucket (List.mem_cons_self ..)
        rw [List.getElem?_set_ne]
        omega
      next => rfl

/-- A cell that a bucket belongs to holds that bucket's counter. -/
theorem getElem?_foldl_fillCell {buckets : List Bucket} {bucket : Bucket} {out : List Nat}
    (increasing : Increasing Bucket.second buckets) (member : bucket ∈ buckets) {pos : Nat}
    (atPos : bucket.second = start + pos) (inside : bucket.second ≤ now)
    (bound : pos < out.length) :
    (buckets.foldl (fillCell start now pick) out)[pos]? = some (pick bucket) := by
  induction buckets generalizing out with
  | nil => cases member
  | cons head buckets ih =>
      rw [List.foldl_cons]
      rcases List.mem_cons.mp member with rfl | later
      · have absent : ∀ other ∈ buckets, other.second ≠ start + pos := by
          intro other otherMem
          exact atPos ▸ ((List.pairwise_cons.mp increasing).1 other otherMem).ne'
        rw [getElem?_foldl_fillCell_of_absent absent, fillCell, if_pos ⟨by omega, inside⟩]
        have posEq : (bucket.second - start).toNat = pos := by omega
        rw [posEq, List.getElem?_set_self bound]
      · apply ih increasing.tail later
        rw [fillCell]
        split <;> simpa using bound

/-- The cells of a window add up to the buckets inside it. -/
theorem sum_foldl_fillCell {buckets : List Bucket} {out : List Nat}
    (increasing : Increasing Bucket.second buckets) (width : now = start + out.length - 1)
    (zero : ∀ bucket ∈ buckets, start ≤ bucket.second → bucket.second ≤ now →
      out[(bucket.second - start).toNat]? = some 0) :
    (buckets.foldl (fillCell start now pick) out).sum =
      out.sum + ((buckets.filter fun bucket => start ≤ bucket.second ∧ bucket.second ≤ now).map
        pick).sum := by
  induction buckets generalizing out with
  | nil => simp
  | cons bucket buckets ih =>
      have later : ∀ other ∈ buckets, bucket.second < other.second :=
        (List.pairwise_cons.mp increasing).1
      rw [List.foldl_cons, fillCell]
      by_cases inside : start ≤ bucket.second ∧ bucket.second ≤ now
      · rw [if_pos inside, ih increasing.tail (by simpa using width)]
        · have cell := zero bucket (List.mem_cons_self ..) inside.1 inside.2
          have bound : (bucket.second - start).toNat < out.length := by omega
          have split := List.sum_take_add_sum_drop out (bucket.second - start).toNat
          rw [List.getElem?_eq_getElem bound] at cell
          rw [List.drop_eq_getElem_cons bound, List.sum_cons, Option.some.inj cell] at split
          rw [List.sum_set, if_pos bound, List.filter_cons_of_pos (by simpa using inside),
            List.map_cons, List.sum_cons]
          omega
        · intro other otherMem otherLow otherHigh
          have := later other otherMem
          rw [List.getElem?_set_ne (by omega)]
          exact zero other (List.mem_cons_of_mem _ otherMem) otherLow otherHigh
      · rw [if_neg inside, List.filter_cons_of_neg (by simpa using inside)]
        apply ih increasing.tail width
        intro other otherMem
        exact zero other (List.mem_cons_of_mem _ otherMem)

theorem Series.window_eq (series : Series) (now : Int) (width : Nat) (pick : Bucket → Nat) :
    series.window now width pick =
      series.buckets.foldl (fillCell (now - width + 1) now pick) (List.replicate width 0) := by
  rw [Series.window]
  split
  next empty =>
      subst empty
      apply (List.length_eq_zero_iff.mp _).symm
      rw [length_foldl_fillCell, List.length_replicate]
  next => rfl

end Window

section Windows

variable {events : List Recorded} {series : Series} {newest now : Int} {width : Nat}

/-- Inside the window, a cell holds the count of its second. -/
theorem Tracks.window_getElem? (tracks : Tracks events series.buckets newest)
    (recent : newest - windowSecs ≤ now - width) (pick : Pick) {pos : Nat} (bound : pos < width) :
    (series.window now width pick.read)[pos]? =
      some (pick.count events (now - width + 1 + pos)) := by
  rw [Series.window_eq]
  by_cases present : ∃ bucket ∈ series.buckets, bucket.second = now - width + 1 + pos
  · rcases present with ⟨bucket, member, bucketSecond⟩
    rw [getElem?_foldl_fillCell tracks.increasing member bucketSecond (by omega)
      (by rwa [List.length_replicate]), tracks.exact bucket member (by omega), bucketSecond]
  · have absent : ∀ bucket ∈ series.buckets, bucket.second ≠ now - width + 1 + pos :=
      fun bucket member equal => present ⟨bucket, member, equal⟩
    rw [getElem?_foldl_fillCell_of_absent absent, List.getElem?_replicate, if_pos bound,
      Pick.count_eq_zero]
    intro event member equal
    rcases tracks.complete event member (by omega) with ⟨bucket, bucketMem, bucketSecond⟩
    exact absent bucket bucketMem (bucketSecond.trans equal)

theorem Tracks.rate_numerator (tracks : Tracks events series.buckets newest) :
    (series.rate now width).1 = (series.window now width Pick.total.read).sum := by
  rw [Series.rate]
  split
  next empty =>
      have widthZero : width = 0 := by omega
      simp [Series.window, widthZero]
  next positive =>
      rw [Series.window_eq, sum_foldl_fillCell tracks.increasing]
      · simp [Series.rateTotal, Pick.read]
      · rw [List.length_replicate]
        omega
      · intro bucket _ low high
        rw [List.getElem?_replicate, if_pos (by omega)]

end Windows

/-- Windows over the last `windowSecs` seconds are exact histograms of what was
recorded for the queue, and the rate divides the sum of their cells. -/
theorem window_eq_histogram {events : List Recorded} {queue : Str} {series : Series}
    {newest now : Int} {width : Nat}
    (found : (Throughput.replay events).series queue = some series)
    (isNewest : IsGreatest
      { second | ∃ event ∈ events, event.queue = queue ∧ event.second = second } newest)
    (recent : newest - windowSecs ≤ now - width) :
    (∀ pick : Pick,
      (series.window now width pick.read).length = width ∧
      ∀ pos < width, (series.window now width pick.read)[pos]? =
        some (events.countP fun event => event.queue = queue &&
          (event.second = now - width + 1 + pos && pick.counts event.kind))) ∧
    (series.rate now width).1 = (series.window now width Pick.total.read).sum := by
  have tracked := replay_tracks events queue
  rw [found] at tracked
  rcases tracked with ⟨latest, tracks⟩
  have latestEq : latest = newest := by
    apply le_antisymm
    · rcases tracks.newest_mem with ⟨event, member, eventSecond⟩
      rcases List.mem_filter.mp member with ⟨eventMem, sameQueue⟩
      exact isNewest.2 ⟨event, eventMem, by simpa using sameQueue, eventSecond⟩
    · rcases isNewest.1 with ⟨event, eventMem, sameQueue, eventSecond⟩
      rw [← eventSecond]
      exact tracks.le_newest event (List.mem_filter.mpr ⟨eventMem, by simpa using sameQueue⟩)
  subst latestEq
  refine ⟨fun pick => ⟨?_, fun pos bound => ?_⟩, tracks.rate_numerator⟩
  · rw [Series.window_eq, length_foldl_fillCell, List.length_replicate]
  · rw [tracks.window_getElem? recent pick bound, Pick.count, recordedFor, List.countP_filter]
    congr 2
    funext event
    rw [Bool.and_comm]

/-- Three events of one queue that arrive newest first, and one of another. -/
theorem window_eq_histogram_out_of_order :
    let emails := "emails".toList
    let events : List Recorded := [⟨emails, .completed, 205_000⟩, ⟨emails, .failed, 203_900⟩,
      ⟨"reports".toList, .added, 900_000⟩, ⟨emails, .completed, 204_100⟩]
    let now : Int := 205
    let width : Nat := 3
    ∃ series, (Throughput.replay events).series emails = some series ∧
      (∀ pick : Pick,
        (series.window now width pick.read).length = width ∧
        ∀ pos : Nat, pos < width → (series.window now width pick.read)[pos]? =
          some (events.countP fun event => event.queue = emails &&
            (event.second = now - width + 1 + pos && pick.counts event.kind))) ∧
      (series.rate now width).1 = (series.window now width Pick.total.read).sum := by
  intro emails events now width
  have found : ∃ series, (Throughput.replay events).series emails = some series := ⟨_, rfl⟩
  rcases found with ⟨series, found⟩
  have isNewest : IsGreatest
      { second | ∃ event ∈ events, event.queue = emails ∧ event.second = second } 205 := by
    constructor
    · exact ⟨⟨emails, .completed, 205_000⟩, by simp [events], rfl, rfl⟩
    · rintro second ⟨event, member, sameQueue, rfl⟩
      have bound : ∀ event ∈ events, event.queue = emails → event.second ≤ 205 := by decide
      exact bound event member sameQueue
  have recent : (205 : Int) - windowSecs ≤ now - width := by decide
  exact ⟨series, found, window_eq_histogram found isNewest recent⟩

end Keylens.BullMq
