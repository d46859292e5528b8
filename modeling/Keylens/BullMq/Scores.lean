import Keylens.BullMq.JobPages
import Keylens.Connection.Paging

/-!
# Scored replies under both protocols

A read with scores is answered under RESP2 by a flat array, each member followed by
its score as a text, and under RESP3 by an array of pairs with the scores as doubles.
The decoders take any array two elements at a time.
-/

namespace Keylens.BullMq

open Keylens.Library Keylens.Connection

/-- The members of a sorted set, or of a page of it, with their scores. -/
abbrev Scored := List (Bytes × F64)

/-- How a server and the client library put a scored reply into values. -/
structure ScoreWire where
  bulk : Bytes → Value
  scoreText : F64 → Bytes

namespace ScoreWire

variable (wire : ScoreWire)

def resp2 (content : Scored) : Value :=
  .array (content.flatMap fun member => [wire.bulk member.1, wire.bulk (wire.scoreText member.2)])

/-- The pair of a member under RESP3. -/
def pair (member : Bytes × F64) : Value :=
  .array [wire.bulk member.1, .double member.2]

def resp3 (content : Scored) : Value :=
  .array (content.map wire.pair)

end ScoreWire

/-- A connection on which every command is answered the same way. -/
def replying (conn : Conn) (reply : Value) : Conn :=
  { conn with client := { conn.client with custom := fun _ _ => .ok reply } }

/-- Both decoders read the same from the two encodings of some members. -/
def DecodedAlike (lens : BullMqLens) (conn : Conn) (wire : ScoreWire) (content : Scored) : Prop :=
  conn.client.api.asScoredPairs (wire.resp2 content) =
      conn.client.api.asScoredPairs (wire.resp3 content) ∧
    ∀ queue state offset limit, state.isListBacked = false →
      (lens.jobs (replying conn (wire.resp2 content)) queue state offset limit).result =
        (lens.jobs (replying conn (wire.resp3 content)) queue state offset limit).result

variable {lens : BullMqLens} {conn : Conn} {wire : ScoreWire} {content : Scored}

theorem asScoredPairs_resp2 (api : ValueApi) (wire : ScoreWire) (content : Scored) :
    api.asScoredPairs (wire.resp2 content) = content.map fun member =>
      (api.displayString (wire.bulk member.1),
        (api.asF64 (wire.bulk (wire.scoreText member.2))).getD 0) := by
  rw [ScoreWire.resp2, ValueApi.asScoredPairs, asPairs_flatMap, List.map_map]
  rfl

/-- Under RESP3 the pairs themselves are taken two at a time: half of the members
are left, each a rendering of a pair with the next pair as its score. -/
theorem asScoredPairs_resp3 (api : ValueApi) (wire : ScoreWire) (content : Scored) :
    api.asScoredPairs (wire.resp3 content) =
      (asPairs (content.map wire.pair)).map fun (first, second) =>
        (api.displayString first, (api.asF64 second).getD 0) := rfl

theorem length_asScoredPairs_resp3 (api : ValueApi) (wire : ScoreWire) (content : Scored) :
    (api.asScoredPairs (wire.resp3 content)).length = content.length / 2 := by
  rw [asScoredPairs_resp3, List.length_map, length_asPairs, List.length_map]

/-! ## The jobs of a state -/

/-- The jobs of a scored reply. -/
def jobsOf (api : ValueApi) (items : List Value) : List JobRef :=
  (asPairs items).filterMap fun (member, score) =>
    (api.asString member).map fun id => { id, score := api.asF64 score }

theorem jobs_replying {queue : Str} {state : State} {offset limit : Nat} {bounds : Int × Int}
    (scored : state.isListBacked = false) (formed : pageRange offset limit = some bounds)
    (items : List Value) :
    (lens.jobs (replying conn (.array items)) queue state offset limit).result =
      .ok (jobsOf conn.client.api items) := by
  rw [BullMqLens.jobs, formed]
  dsimp only
  rw [scored]
  rfl

theorem jobsOf_resp2 (api : ValueApi) (wire : ScoreWire) (content : Scored) :
    jobsOf api (content.flatMap fun member =>
        [wire.bulk member.1, wire.bulk (wire.scoreText member.2)]) =
      content.filterMap fun member =>
        (api.asString (wire.bulk member.1)).map fun id =>
          { id, score := api.asF64 (wire.bulk (wire.scoreText member.2)) } := by
  rw [jobsOf, asPairs_flatMap, List.filterMap_map]
  rfl

/-- An array is no text, so under RESP3 there are no jobs at all. -/
theorem jobsOf_resp3 {api : ValueApi} (noText : ∀ items, api.asString (.array items) = none)
    (wire : ScoreWire) (content : Scored) : jobsOf api (content.map wire.pair) = [] := by
  rw [jobsOf, List.filterMap_eq_nil_iff]
  rintro ⟨first, second⟩ member
  rcases List.mem_map.mp (fst_mem_of_mem_asPairs member) with ⟨_, _, rfl⟩
  dsimp only
  rw [ScoreWire.pair, noText, Option.map_none]

/-! ## The two encodings -/

/-- The decoders cope with both encodings of nothing, and of nothing else. -/
theorem decodedAlike_iff : DecodedAlike lens conn wire content ↔ content = [] := by
  constructor
  · intro alike
    have sizes := congrArg List.length alike.1
    rw [asScoredPairs_resp2, List.length_map, length_asScoredPairs_resp3] at sizes
    apply List.eq_nil_of_length_eq_zero
    omega
  · rintro rfl
    exact ⟨rfl, fun _ _ _ _ _ => rfl⟩

/-- The jobs alone come out alike where no member is a text and there are none to show. -/
theorem jobs_alike_iff (noText : ∀ items, conn.client.api.asString (.array items) = none) :
    (∀ queue state offset limit, state.isListBacked = false →
      (lens.jobs (replying conn (wire.resp2 content)) queue state offset limit).result =
        (lens.jobs (replying conn (wire.resp3 content)) queue state offset limit).result) ↔
      ∀ member ∈ content, conn.client.api.asString (wire.bulk member.1) = none := by
  have nested := jobsOf_resp3 noText wire content
  constructor
  · intro alike
    have formed : pageRange 0 1 = some (0, 0) := by decide
    have same := alike [] .failed 0 1 rfl
    rw [ScoreWire.resp2, ScoreWire.resp3, jobs_replying rfl formed, jobs_replying rfl formed,
      nested, jobsOf_resp2, Except.ok.injEq, List.filterMap_eq_nil_iff] at same
    exact fun member inside => Option.map_eq_none_iff.mp (same member inside)
  · intro none queue state offset limit scored
    have flat : jobsOf conn.client.api (content.flatMap fun member =>
        [wire.bulk member.1, wire.bulk (wire.scoreText member.2)]) = [] := by
      rw [jobsOf_resp2, List.filterMap_eq_nil_iff]
      exact fun member inside => Option.map_eq_none_iff.mpr (none member inside)
    cases formed : pageRange offset limit with
    | none => rw [BullMqLens.jobs, BullMqLens.jobs, formed]
    | some bounds =>
        rw [ScoreWire.resp2, ScoreWire.resp3, jobs_replying scored formed,
          jobs_replying scored formed, nested, flat]

/-- A client library and a server for which every score is one. -/
def onesWire : ScoreWire where
  bulk := plainBulk
  scoreText _ := utf8Encode "1".toList

/-- Two members with the score one: under RESP3 one member is left, with the score
zero, and no job. -/
theorem nested_scores_lost :
    let lens : BullMqLens := { prefix' := "bull".toList }
    let conn := Conn.answering scoreApi plainWire (fun _ => none) {}
    let content : Scored :=
      [(utf8Encode "a".toList, 0x3FF0000000000000), (utf8Encode "b".toList, 0x3FF0000000000000)]
    scoreApi.asScoredPairs (onesWire.resp2 content) =
        [("a".toList, 0x3FF0000000000000), ("b".toList, 0x3FF0000000000000)] ∧
      scoreApi.asScoredPairs (onesWire.resp3 content) = [([], 0)] ∧
      (lens.jobs (replying conn (onesWire.resp3 content)) "q".toList .failed 0 20).result =
        .ok [] ∧
      ¬DecodedAlike lens conn onesWire content := by
  intro lens conn content
  have flat : scoreApi.asScoredPairs (onesWire.resp2 content) =
      [("a".toList, 0x3FF0000000000000), ("b".toList, 0x3FF0000000000000)] := by
    decide +kernel
  have nested : scoreApi.asScoredPairs (onesWire.resp3 content) = [([], 0)] := by decide +kernel
  have formed : pageRange 0 20 = some (0, 19) := by decide
  refine ⟨flat, nested, ?_, ?_⟩
  · rw [ScoreWire.resp3, jobs_replying rfl formed, jobsOf_resp3 fun _ => rfl]
  · intro alike
    have same := alike.1
    rw [show conn.client.api = scoreApi from rfl, flat, nested] at same
    exact absurd (congrArg List.length same) (by decide)

end Keylens.BullMq
