import Keylens.BullMq.Detection
import Keylens.BullMq.JobPages
import Keylens.BullMq.Fields
import Keylens.Connection.Conduct

/-!
# What the lens asks for

Detection, the queue table, job pages and single jobs, call by call.  Every page of a
scan is a round trip, so detection walks only so many of them and reads the version of
only a few queues.
-/

namespace Keylens.BullMq

open Keylens.Library Keylens.Connection

/-- The library and the version in the `version` field of a meta hash. -/
def parseMetaVersion (raw : Str) : Option (Str × Str) :=
  (rsplitOnce ':' raw).filter fun (lib, version) => lib ≠ [] ∧ version ≠ []

/-- How many queues are asked for their version. -/
def maxSampled : Nat := 5

namespace BullMqLens

/-- What a library name says about the keyspace; without one it may be an older BullMQ
or something else. -/
def confidenceOf : Option (Str × Str) → Confidence
  | some (lib, _) => if "bullmq".toList <+: lib then .certain else .likely
  | none => .weak

def summaryOf (found : Option (Str × Str)) (queues : Nat) : Str :=
  match found with
  | some (lib, version) =>
      lib ++ [' '] ++ version ++ " - ".toList ++ decimal queues ++ " queues".toList
  | none => decimal queues ++ " queues (version not advertised)".toList

end BullMqLens

namespace Session

variable (lens : BullMqLens) (conn : Conn)

/-- The loop of `scan_meta_keys`, with the pages that may still be asked for and the
names so far. -/
def collectNames (scanner : Nat) : Nat → List Str → Session (List Str)
  | 0, names => return names
  | left + 1, names => do
      match ← Connection.Session.nextPage scanner with
      | some keys =>
          let names := names ++ keys.filterMap (queueNameFromMetaKey lens.prefix')
          if maxQueues ≤ names.length then return names
          else collectNames scanner left names
      | none => return names

/-- Candidate queues. -/
def scanMetaKeys : Session (List Str) := do
  let pattern := lens.prefix' ++ ":*:meta".toList
  let typeFilter := if conn.capabilities.has .scanTypeFilter then some "hash".toList else none
  let scanner ← Connection.Session.keyScanner (some pattern) BullMqLens.scanCount typeFilter
  let names ← collectNames lens scanner maxDetectPages []
  return BullMqLens.listed names

/-- Version and paused state from a queue's meta hash. -/
def readMeta (name : Str) : Session (Option Str × Bool) := do
  match ← Connection.Session.cmd conn (lens.metaCmd name).1 (lens.metaCmd name).2 with
  | .array fields =>
      return ((fields[0]?).bind conn.client.api.asString,
        isPaused ((fields[1]?).bind conn.client.api.asString))
  | _ => return (none, false)

/-- Counts and paused state for many queues in a single round trip. -/
def summaries (names : List Str) : Session (List QueueSummary) :=
  if names = [] then Connection.Session.give (.ok [])
  else do
    let replies ← Connection.Session.pipeline conn (names.flatMap lens.queueCmds)
    let reply (i : Nat) := (replies[i]?).bind Except.toOption
    return names.mapIdx fun i name =>
      let base := i * BullMqLens.perQueue
      let paused :=
        match reply base with
        | some (.array fields) => isPaused ((fields[1]?).bind conn.client.api.asString)
        | _ => false
      let counts := State.all.mapIdx fun j state =>
        (state, ((reply (base + 1 + j)).bind conn.client.api.asU64).getD 0)
      { name, paused, counts }

def allQueues : Session (List QueueSummary) := do
  let names ← scanMetaKeys lens conn
  summaries lens conn names

/-- A page of job ids from one state. -/
def jobs (queue : Str) (state : State) (offset limit : Nat) : Session (List JobRef) :=
  match pageRange offset limit with
  | none => return []
  | some (start, stop) => do
      let keys : QueueKeys := { prefix' := lens.prefix', name := queue }
      let key := keys.state state
      let reply ←
        if state.isListBacked then
          Connection.Session.cmd conn .lrange [.string key, .integer start, .integer stop]
        else
          Connection.Session.cmd conn .zrevrange
            [.string key, .integer start, .integer stop, .string "WITHSCORES".toList]
      match reply with
      | .array items =>
          return if state.isListBacked then
            (items.filterMap conn.client.api.asString).map fun id => { id, score := none }
          else
            (asPairs items).filterMap fun (member, score) =>
              (conn.client.api.asString member).map fun id =>
                { id, score := conn.client.api.asF64 score }
      | _ => return []

/-- One job's fields; `none` when the job has been removed. -/
def job (serde : Serde) (queue id : Str) : Session (Option Job) := do
  let keys : QueueKeys := { prefix' := lens.prefix', name := queue }
  match ← Connection.Session.cmd conn .hmget (.string (keys.job id) :: jobFields.map .string) with
  | .array values =>
      let fields := values.map conn.client.api.asString
      if fields.all Option.isNone then return none
      else return some (fromFields serde id fields)
  | _ => return none

/-- Per-job logs, newest last. -/
def jobLogs (queue id : Str) (limit : Nat) : Session (List Str) :=
  match pageRange 0 limit with
  | none => return []
  | some (start, stop) => do
      let keys : QueueKeys := { prefix' := lens.prefix', name := queue }
      match ← Connection.Session.cmd conn .lrange
          [.string (keys.jobLogs id), .integer start, .integer stop] with
      | .array items => return items.filterMap conn.client.api.asString
      | _ => return []

/-- Ask some queues for their version until one has it. -/
def sampleMeta : List Str → Session (Option (Str × Str))
  | [] => return none
  | name :: later => do
      let (version, _) ← readMeta lens conn name
      match version.bind parseMetaVersion with
      | some found => return some found
      | none => sampleMeta later

/-- Cheap keyspace probe. -/
def detect : Session (Option Detection) := do
  let names ← scanMetaKeys lens conn
  if names = [] then return none
  else
    let found ← sampleMeta lens conn (names.take maxSampled)
    return some
      { lensId := "bullmq".toList
        confidence := BullMqLens.confidenceOf found
        version := found.map Prod.snd
        prefix' := lens.prefix'
        summary := BullMqLens.summaryOf found names.length
        targets := names }

/-! ## What is sent, and how often -/

open Connection.Session

theorem asks_collectNames (api : ValueApi) (scanner left : Nat) (names : List Str) :
    (collectNames lens scanner left names).Asks (Call.ReadsOnly api) := by
  induction left generalizing names with
  | zero => exact asks_pure _
  | succ left ih =>
      apply (asks_nextPage api scanner).bind
      intro page
      cases page with
      | none => exact asks_pure _
      | some keys =>
          dsimp only
          split
          next => exact asks_pure _
          next => exact ih _

theorem waits_collectNames (scanner left : Nat) (names : List Str) :
    (collectNames lens scanner left names).Waits left := by
  induction left generalizing names with
  | zero => exact waits_pure _
  | succ left ih =>
      rw [collectNames, Nat.add_comm]
      apply (waits_nextPage scanner).bind
      intro page
      cases page with
      | none => exact waits_pure _
      | some keys =>
          dsimp only
          split
          next => exact waits_pure _
          next => exact ih _

theorem asks_scanMetaKeys (api : ValueApi) :
    (scanMetaKeys lens conn).Asks (Call.ReadsOnly api) := by
  apply (asks_keyScanner api _ _ _).bind
  intro scanner
  exact (asks_collectNames lens api scanner _ _).bind fun _ => asks_pure _

theorem waits_scanMetaKeys : (scanMetaKeys lens conn).Waits maxDetectPages := by
  change Waits (0 + maxDetectPages) _
  apply (waits_keyScanner _ _ _).bind
  intro scanner
  exact (waits_collectNames lens scanner _ _).then fun _ => waits_pure _

theorem asks_readMeta (name : Str) :
    (readMeta lens conn name).Asks (Call.Plain conn.client.api) := by
  apply (asks_cmd conn _ _).bind
  intro reply
  cases reply <;> exact asks_pure _

theorem waits_readMeta (name : Str) : (readMeta lens conn name).Waits 1 := by
  apply (waits_cmd conn _ _).then
  intro reply
  cases reply <;> exact waits_pure _

theorem asks_summaries (names : List Str) :
    (summaries lens conn names).Asks (Call.Plain conn.client.api) := by
  rw [summaries]
  split
  next => exact asks_give _
  next => exact (asks_pipeline conn _).bind fun _ => asks_pure _

theorem length_flatMap_queueCmds (names : List Str) :
    (names.flatMap lens.queueCmds).length = names.length * BullMqLens.perQueue := by
  simp [List.length_flatMap, BullMqLens.length_queueCmds]

theorem waits_summaries (names : List Str) :
    (summaries lens conn names).Waits
      (pipelineTrips conn (names.length * BullMqLens.perQueue)) := by
  rw [summaries]
  split
  next => exact waits_give _
  next =>
      rw [← length_flatMap_queueCmds lens]
      exact (waits_pipeline conn _).then fun _ => waits_pure _

/-- Whatever a scan yields, the names are sorted, distinct and within the cap. -/
theorem gives_scanMetaKeys :
    (scanMetaKeys lens conn).Gives fun names =>
      names.Pairwise (· < ·) ∧ names.length ≤ maxQueues := by
  apply (gives_true _).bind
  intro scanner _
  apply (gives_true _).bind
  intro names _
  apply gives_pure
  refine ⟨BullMqLens.increasing_listed names, ?_⟩
  rw [BullMqLens.length_listed]
  exact Nat.min_le_left ..

theorem asks_allQueues : (allQueues lens conn).Asks (Call.ReadsOnly conn.client.api) :=
  (asks_scanMetaKeys lens conn _).bind fun names => (asks_summaries lens conn names).readsOnly

/-- However many queues there are, the table is read in few round trips. -/
theorem waits_allQueues :
    (allQueues lens conn).Waits
      (maxDetectPages + pipelineTrips conn (maxQueues * BullMqLens.perQueue)) := by
  apply (waits_scanMetaKeys lens conn).bind_gives (gives_scanMetaKeys lens conn)
  intro names known
  apply (waits_summaries lens conn names).mono
  exact pipelineTrips_mono conn (Nat.mul_le_mul_right _ known.2)

theorem asks_jobs (queue : Str) (state : State) (offset limit : Nat) :
    (jobs lens conn queue state offset limit).Asks (Call.Plain conn.client.api) := by
  rw [jobs]
  split
  next => exact asks_pure _
  next =>
      dsimp only
      split <;>
      · apply (asks_cmd conn _ _).bind
        intro reply
        cases reply <;> exact asks_pure _

theorem waits_jobs (queue : Str) (state : State) (offset limit : Nat) :
    (jobs lens conn queue state offset limit).Waits 1 := by
  rw [jobs]
  split
  next => exact waits_pure _
  next =>
      dsimp only
      split <;>
      · apply (waits_cmd conn _ _).then
        intro reply
        cases reply <;> exact waits_pure _

theorem asks_job (serde : Serde) (queue id : Str) :
    (job lens conn serde queue id).Asks (Call.Plain conn.client.api) := by
  apply (asks_cmd conn _ _).bind
  intro reply
  cases reply with
  | array values =>
      dsimp only
      split <;> exact asks_pure _
  | _ => exact asks_pure _

theorem waits_job (serde : Serde) (queue id : Str) :
    (job lens conn serde queue id).Waits 1 := by
  apply (waits_cmd conn _ _).then
  intro reply
  cases reply with
  | array values =>
      dsimp only
      split <;> exact waits_pure _
  | _ => exact waits_pure _

theorem asks_jobLogs (queue id : Str) (limit : Nat) :
    (jobLogs lens conn queue id limit).Asks (Call.Plain conn.client.api) := by
  rw [jobLogs]
  split
  next => exact asks_pure _
  next =>
      apply (asks_cmd conn _ _).bind
      intro reply
      cases reply <;> exact asks_pure _

theorem waits_jobLogs (queue id : Str) (limit : Nat) :
    (jobLogs lens conn queue id limit).Waits 1 := by
  rw [jobLogs]
  split
  next => exact waits_pure _
  next =>
      apply (waits_cmd conn _ _).then
      intro reply
      cases reply <;> exact waits_pure _

theorem asks_sampleMeta (names : List Str) :
    (sampleMeta lens conn names).Asks (Call.Plain conn.client.api) := by
  induction names with
  | nil => exact asks_pure _
  | cons name later ih =>
      apply (asks_readMeta lens conn name).bind
      intro found
      dsimp only
      split
      next => exact asks_pure _
      next => exact ih

theorem waits_sampleMeta (names : List Str) :
    (sampleMeta lens conn names).Waits names.length := by
  induction names with
  | nil => exact waits_pure _
  | cons name later ih =>
      rw [List.length_cons, Nat.add_comm]
      apply (waits_readMeta lens conn name).bind
      intro found
      dsimp only
      split
      next => exact waits_pure _
      next => exact ih

theorem asks_detect : (detect lens conn).Asks (Call.ReadsOnly conn.client.api) := by
  apply (asks_scanMetaKeys lens conn _).bind
  intro names
  split
  next => exact asks_pure _
  next => exact (asks_sampleMeta lens conn _).readsOnly.bind fun _ => asks_pure _

/-- Detection stays cheap, however large the keyspace is. -/
theorem waits_detect : (detect lens conn).Waits (maxDetectPages + maxSampled) := by
  apply (waits_scanMetaKeys lens conn).bind
  intro names
  split
  next => exact waits_pure _
  next =>
      apply Waits.then
      · exact (waits_sampleMeta lens conn _).mono (List.length_take_le _ _)
      · exact fun _ => waits_pure _

/-! ## What is detected -/

/-- A detection has sorted queues within the cap, and it has a version, which is not
empty, unless it is weak. -/
structure WellFormed (detection : Detection) : Prop where
  some_target : detection.targets ≠ []
  increasing : detection.targets.Pairwise (· < ·)
  atMost : detection.targets.length ≤ maxQueues
  weak_iff : detection.confidence = .weak ↔ detection.version = none
  version_ne : detection.version ≠ some []

theorem gives_sampleMeta (names : List Str) :
    (sampleMeta lens conn names).Gives fun found => found.map Prod.snd ≠ some [] := by
  induction names with
  | nil => exact gives_pure (by simp)
  | cons name later ih =>
      apply (gives_true _).bind
      intro read _
      dsimp only
      split
      next found parsed =>
          apply gives_pure
          rcases Option.bind_eq_some_iff.mp parsed with ⟨raw, _, kept⟩
          have held := (Option.filter_eq_some_iff.mp kept).2
          simpa using (of_decide_eq_true held).2
      next => exact ih

theorem confidenceOf_eq_weak_iff (found : Option (Str × Str)) :
    BullMqLens.confidenceOf found = .weak ↔ found.map Prod.snd = none := by
  cases found with
  | none => simp [BullMqLens.confidenceOf]
  | some found =>
      simp only [BullMqLens.confidenceOf, Option.map_some]
      split <;> simp

/-- Whatever the server answers, what is detected is well formed. -/
theorem gives_detect :
    (detect lens conn).Gives fun found => ∀ detection, found = some detection →
      WellFormed detection ∧ detection.prefix' = lens.prefix' := by
  apply (gives_scanMetaKeys lens conn).bind
  rintro names ⟨increasing, atMost⟩
  split
  next => exact gives_pure (by simp)
  next nonempty =>
      apply (gives_sampleMeta lens conn _).bind
      intro found named
      apply gives_pure
      rintro _ ⟨⟩
      exact ⟨⟨nonempty, increasing, atMost, confidenceOf_eq_weak_iff found, named⟩, rfl⟩

end Session

end Keylens.BullMq
