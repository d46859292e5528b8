import Keylens.Connection.Stream
import Keylens.Ui.Format

/-!
# The stream pane

What the value pane shows of a stream above its entries: its length, its groups,
and the consumers of each group, those with the most pending entries first.  A
consumer that holds entries and has been idle for long is flagged at the start of
its line.
-/

namespace Keylens.Tui.StreamPane

open Keylens.Library Keylens.Connection

/-- Roles of the theme. -/
inductive Style where
  | heading | label | number | value | dim | accent | warn | ok | error | raw
  deriving DecidableEq, Repr

structure Span where
  text : Str
  style : Style
  deriving DecidableEq, Repr

abbrev Line := List Span

/-- Milliseconds after which a consumer that holds entries is worth flagging. -/
def stuckIdleMs : Int := 30000

/-- A consumer holding entries while idle for a long time. -/
def isStuck (consumer : ConsumerInfo) : Prop :=
  0 < consumer.pending ∧ stuckIdleMs < consumer.idleMs

instance : DecidablePred isStuck :=
  fun _ => inferInstanceAs (Decidable (_ ∧ _))

/-- What a flagged line starts with. -/
def flag : Str := "    ! ".toList

def consumerLine (consumer : ConsumerInfo) : Line :=
  let stuck := isStuck consumer
  [⟨if stuck then flag else "      ".toList, .error⟩,
    ⟨Ui.padRight 22 (Ui.truncate consumer.name 21), if stuck then .error else .value⟩,
    ⟨"pending ".toList, .label⟩,
    ⟨Ui.padRight 8 (Ui.count consumer.pending), if 0 < consumer.pending then .warn else .dim⟩,
    ⟨"idle ".toList, .label⟩,
    ⟨Ui.ttl (some consumer.idleMs), if stuck then .error else .dim⟩]

/-- The consumers with the most pending entries, and then the longest idle ones,
first. -/
def worstFirst (consumers : List ConsumerInfo) : List ConsumerInfo :=
  sortByKey
    (fun consumer => toLex (OrderDual.toDual consumer.pending, OrderDual.toDual consumer.idleMs))
    consumers

def consumerLines (group : GroupInfo) : List Line :=
  (worstFirst group.consumers).map consumerLine

/-- The lag of a group is unknown where the server cannot compute it. -/
def lagSpan : Option Int → Span
  | some 0 => ⟨decimalInt 0, .ok⟩
  | some lag => ⟨decimalInt lag, .warn⟩
  | none => ⟨"unknown".toList, .dim⟩

def groupLines (group : GroupInfo) : List Line :=
  [[⟨"  ".toList ++ group.name, .accent⟩,
      ⟨"  consumers ".toList, .label⟩,
      ⟨decimal group.consumerCount, .number⟩,
      ⟨"  pending ".toList, .label⟩,
      ⟨Ui.count group.pending, if 0 < group.pending then .warn else .ok⟩,
      ⟨"  lag ".toList, .label⟩,
      lagSpan group.lag]] ++
    (if group.pendingMinId ≠ [] then
      [[⟨"    pending range ".toList, .label⟩,
        ⟨group.pendingMinId ++ " … ".toList ++ group.pendingMaxId, .dim⟩]]
    else []) ++
    consumerLines group

/-- The pane of a stream. -/
def streamLines (info : StreamInfo) : List Line :=
  let head :=
    [[⟨" ▌stream".toList, .heading⟩],
      [⟨"  length ".toList, .label⟩,
        ⟨Ui.count info.length, .number⟩,
        ⟨"  added ".toList, .label⟩,
        ⟨(info.entriesAdded.map Ui.count).getD "-".toList, .number⟩,
        ⟨"  last id ".toList, .label⟩,
        ⟨info.lastGeneratedId, .value⟩]]
  if info.groups = [] then
    head ++ [[⟨"  no consumer groups — this stream is read with XREAD".toList, .dim⟩]]
  else
    head ++ [[⟨[], .raw⟩], [⟨" ▌consumer groups".toList, .heading⟩]] ++
      info.groups.flatMap groupLines ++
      (if info.groupsTruncated then [[⟨"  … more groups not shown".toList, .dim⟩]] else [])

/-! ## Flagged lines first -/

/-- A line with the flag in front. -/
def Flagged (line : Line) : Prop :=
  line.head?.map Span.text = some flag

instance : DecidablePred Flagged :=
  fun _ => inferInstanceAs (Decidable (_ = _))

/-- No flagged line stands below one that is not. -/
def FlaggedFirst (lines : List Line) : Prop :=
  lines.Pairwise fun above below => Flagged below → Flagged above

instance (lines : List Line) : Decidable (FlaggedFirst lines) :=
  inferInstanceAs (Decidable (lines.Pairwise _))

/-- A consumer's line has the flag exactly when the consumer is stuck. -/
theorem flagged_consumerLine (consumer : ConsumerInfo) :
    Flagged (consumerLine consumer) ↔ isStuck consumer := by
  by_cases stuck : isStuck consumer
  · simp [Flagged, consumerLine, stuck]
  · simp [Flagged, consumerLine, stuck, flag]

/-- The lines of a group's consumers stand together in the pane. -/
theorem consumerLines_together {info : StreamInfo} {group : GroupInfo}
    (member : group ∈ info.groups) : consumerLines group <:+: streamLines info := by
  have shown : consumerLines group <:+: groupLines group :=
    (List.suffix_append _ _).isInfix
  have inGroups : groupLines group <:+: info.groups.flatMap groupLines :=
    List.infix_of_mem_flatten (List.mem_map_of_mem member)
  rw [streamLines, if_neg (List.ne_nil_of_mem member)]
  exact (shown.trans inGroups).trans (List.infix_append _ _ _)

/-- The consumers are listed with the stuck ones first exactly when no other
consumer has more pending entries than a stuck one. -/
theorem worstFirst_stuck_iff (consumers : List ConsumerInfo) :
    ((worstFirst consumers).Pairwise fun above below => isStuck below → isStuck above) ↔
      ∀ stuck ∈ consumers, ∀ other ∈ consumers, isStuck stuck → ¬isStuck other →
        other.pending ≤ stuck.pending := by
  -- Of two consumers with one pending count and one idle time, both or none are stuck.
  rw [worstFirst, marked_first_iff]
  · apply forall₂_congr
    intro stuck _
    apply forall₂_congr
    intro other _
    apply forall₂_congr
    intro isStuck notStuck
    rw [StreamPane.isStuck] at isStuck notStuck
    simp only [Prod.Lex.toLex_le_toLex, OrderDual.toDual_lt_toDual, OrderDual.toDual_le_toDual,
      OrderDual.toDual_inj]
    constructor
    · rintro (more | ⟨same, _⟩)
      · exact more.le
      · exact same.ge
    · intro most
      rcases most.lt_or_eq with more | same
      · exact Or.inl more
      · have longer : other.idleMs ≤ stuck.idleMs := by omega
        exact Or.inr ⟨same.symm, longer⟩
  · intro stuck _ other _ isStuck notStuck sameKey
    simp only [EmbeddingLike.apply_eq_iff_eq, Prod.mk.injEq] at sameKey
    rw [StreamPane.isStuck, sameKey.1, sameKey.2] at isStuck
    exact notStuck isStuck

/-- In every group's lines the flagged consumers come first exactly when no consumer
that is not stuck has more pending entries than one that is. -/
theorem stuck_consumers_first_iff {info : StreamInfo} {group : GroupInfo}
    (member : group ∈ info.groups) :
    consumerLines group <:+: streamLines info ∧
      (FlaggedFirst (consumerLines group) ↔
        ∀ stuck ∈ group.consumers, ∀ other ∈ group.consumers, isStuck stuck → ¬isStuck other →
          other.pending ≤ stuck.pending) := by
  refine ⟨consumerLines_together member, ?_⟩
  rw [FlaggedFirst, consumerLines, List.pairwise_map, ← worstFirst_stuck_iff]
  simp only [flagged_consumerLine]

/-- A group whose consumers have a pending count and an idle time each. -/
def groupOf (consumers : List (Str × Nat × Int)) : GroupInfo :=
  { name := "workers".toList
    consumerCount := consumers.length
    pending := consumers.foldl (fun sum consumer => sum + consumer.2.1) 0
    lastDeliveredId := [], entriesRead := none, lag := none
    pendingMinId := [], pendingMaxId := []
    consumers := consumers.map fun (name, pending, idleMs) =>
      { name, pending, idleMs, inactiveMs := none } }

/-- The stuck consumer comes before the one that holds nothing. -/
theorem stuck_consumer_first :
    let group := groupOf [("idle".toList, 0, 90000), ("stuck".toList, 27, 90000)]
    FlaggedFirst (consumerLines group) := by
  intro group
  have shown : group ∈ ({ StreamInfo.empty with groups := [group] } : StreamInfo).groups :=
    List.mem_singleton_self group
  exact (stuck_consumers_first_iff shown).2.mpr (by decide)

/-- A busy consumer comes before one that stopped acknowledging. -/
theorem busy_consumer_first :
    let group := groupOf [("stuck".toList, 1, 60000), ("busy".toList, 5, 0)]
    consumerLines group <:+: streamLines { StreamInfo.empty with groups := [group] } ∧
      ¬FlaggedFirst (consumerLines group) := by
  decide

/-- The ranking by idle time, which the pane does not use, does list the stuck
consumers first. -/
theorem stuckConsumers_stuck_first (group : GroupInfo) :
    group.stuckConsumers.Pairwise fun above below => isStuck below → isStuck above := by
  have holding : ∀ consumer ∈ group.consumers.filter fun consumer => 0 < consumer.pending,
      0 < consumer.pending := by
    intro consumer member
    simpa using (List.mem_filter.mp member).2
  have longer : ∀ stuck ∈ group.consumers.filter fun consumer => 0 < consumer.pending,
      ∀ other ∈ group.consumers.filter fun consumer => 0 < consumer.pending,
        isStuck stuck → ¬isStuck other → other.idleMs < stuck.idleMs := by
    intro stuck _ other memberOther isStuck notStuck
    have held := holding other memberOther
    rw [StreamPane.isStuck] at isStuck notStuck
    omega
  rw [GroupInfo.stuckConsumers, marked_first_iff]
  · intro stuck member other memberOther isStuck notStuck
    exact (longer stuck member other memberOther isStuck notStuck).le
  · intro stuck member other memberOther isStuck notStuck same
    exact (longer stuck member other memberOther isStuck notStuck).ne same.symm

end Keylens.Tui.StreamPane
