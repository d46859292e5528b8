import Keylens.Backend.Costs

/-!
# How often the server is waited for

Apart from the pipelines that ask for the types of listed keys, every request has a price
in round trips that does not depend on the keyspace, and all tasks together keep to the
sum of these prices.
-/

namespace Keylens.Backend

open Keylens.Library Keylens.Connection Keylens.BullMq Keylens.Ui

/-- A pipeline that asks for nothing but types. -/
def asksTypes : Call → Bool
  | .together cmds | .tryAll cmds => cmds.all fun cmd => cmd.1 = .type
  | _ => false

/-- How often a call waits for the server, apart from the types of listed keys. -/
def trips (call : Call) : Nat :=
  if asksTypes call then 0 else call.roundTrips

/-- How often the server is waited for at most on behalf of a request. -/
def Request.mostTrips (conn : Conn) : Request → Nat
  | .rescan _ _ | .more => maxPagesPerBatch
  | .select _ => 3 + (2 + 2 * Xinfo.maxGroups)
  | .refreshInfo | .loadSlowlog | .loadClients | .loadJobs _ _ => 1
  | .loadCluster | .loadPubSub | .loadJob _ _ => 2
  | .detect => maxDetectPages + maxSampled
  | .loadQueues => maxDetectPages + Session.pipelineTrips conn (maxQueues * BullMqLens.perQueue)

theorem trips_le (call : Call) : trips call ≤ call.roundTrips := by
  rw [trips]
  split
  next => exact Nat.zero_le _
  next => exact Nat.le_refl _

namespace Work

/-- A computation that waits for the server at most so often. -/
abbrev Trips {α : Type} (most : Nat) (work : Work α) : Prop :=
  Prog.Within (I := calls) trips most work

section Rules

variable {α β : Type} {most more : Nat} {session : Session α} {rest : Result α → Work β}

theorem trips_session (waits : session.Waits most) (later : ∀ result, (rest result).Trips more) :
    Trips (most + more) (session.run >>= rest) :=
  (waits.cheaper trips_le).bind later

/-- What follows does not wait. -/
theorem Trips.then {work : Work α} {rest : α → Work β} (first : work.Trips most)
    (later : ∀ value, (rest value).Trips 0) : Trips most (work >>= rest) :=
  Prog.Within.bind first later

theorem trips_session_last (waits : session.Waits most) (later : ∀ result, (rest result).Trips 0) :
    Trips most (session.run >>= rest) :=
  trips_session waits later

end Rules

/-! ## Types -/

theorem trips_eq_zero_of_types {cmds : List Command} (types : ∀ cmd ∈ cmds, cmd.1 = .type) :
    trips (.together cmds) = 0 ∧ trips (.tryAll cmds) = 0 := by
  have all : cmds.all fun cmd => cmd.1 = .type := by simpa using types
  exact ⟨if_pos all, if_pos all⟩

theorem asks_executeChunks_types {chunks : List (List Command)}
    (types : ∀ chunk ∈ chunks, ∀ cmd ∈ chunk, cmd.1 = .type) :
    (Session.executeChunks chunks).Asks fun call => trips call = 0 := by
  induction chunks with
  | nil => exact Session.asks_pure _
  | cons chunk later ih =>
      have here := (trips_eq_zero_of_types (types chunk List.mem_cons_self)).1
      apply (Session.asks_ask here _).bind
      intro replies
      apply (ih fun other member => types other (List.mem_cons_of_mem chunk member)).bind
      exact fun _ => Session.asks_pure _

theorem asks_pipeline_types (conn : Conn) {cmds : List Command}
    (types : ∀ cmd ∈ cmds, cmd.1 = .type) :
    (Session.pipeline conn cmds).Asks fun call => trips call = 0 := by
  have buffers (buffered : List Command) :
      (Session.bufferAll buffered).Asks fun call => trips call = 0 := by
    induction buffered with
    | nil => exact Session.asks_pure _
    | cons cmd later ih =>
        have here : trips (.buffer cmd.1 cmd.2) = 0 := rfl
        exact (Session.asks_ask here _).bind fun _ => ih
  rw [Session.pipeline]
  split
  next => exact Session.asks_give _
  next =>
      rw [Session.pipelineUnchecked]
      split
      next =>
          apply asks_executeChunks_types
          intro chunk inChunks cmd inChunk
          apply types
          rw [← flatten_chunks (by decide : 0 < 64) cmds]
          exact List.mem_flatten_of_mem inChunks inChunk
      next =>
          apply (buffers cmds).bind
          exact fun _ => Session.asks_ask (trips_eq_zero_of_types types).2 _

variable {setting : Setting} {conn : Conn} {loop : Loop}

theorem trips_keyKinds (chunks : List (List Str)) : (keyKinds conn chunks).Trips 0 := by
  induction chunks with
  | nil => exact trivial
  | cons chunk later ih =>
      have types : ∀ cmd ∈ typeCmds chunk, cmd.1 = .type := by
        intro cmd member
        rcases List.mem_map.mp member with ⟨key, _, rfl⟩
        rfl
      have free : Trips 0 (Session.pipeline conn (typeCmds chunk)).run :=
        Prog.within_of_every (asks_pipeline_types conn types) fun _ free => free
      apply Trips.then
      · apply free.then
        intro result
        cases result <;> trivial
      · exact fun kinds => ih.then fun _ => trivial

theorem trips_typeKeys (keys : List Str) : (typeKeys loop conn keys).Trips 0 := by
  rw [typeKeys]
  split
  next => exact trivial
  next =>
      split
      next => exact trivial
      next => exact (trips_keyKinds _).then fun _ => trivial

/-! ## Scanning -/

theorem trips_gather (left : Nat) (keys : List Str) (pages : Nat) :
    (gather loop left keys pages).Trips left := by
  induction left generalizing keys pages with
  | zero => exact trivial
  | succ left ih =>
      rw [gather]
      split
      next =>
          split
          next => exact trivial
          next =>
              rw [Nat.add_comm]
              apply trips_session (Session.waits_nextPage _)
              intro page
              cases page with
              | error error => exact trivial
              | ok page =>
                  cases page with
                  | none => exact trivial
                  | some page => exact ih _ _
      next => exact trivial

theorem trips_scanBatch (reset : Bool) : (scanBatch conn loop reset).Trips maxPagesPerBatch := by
  apply (trips_gather _ _ _).then
  rintro ⟨result, loop⟩
  cases result with
  | error failure => exact trivial
  | ok gathered => exact (trips_typeKeys _).then fun _ => trivial

theorem trips_rescan (pattern : Option Str) (kind : Option Kind) :
    (rescan conn loop pattern kind).Trips maxPagesPerBatch :=
  ⟨Nat.zero_le _, fun _ => trips_scanBatch true⟩

/-! ## Requests -/

theorem trips_pane {α : Type} {session : Session α} {most : Nat} (availability : Availability)
    (waits : session.Waits most) : (pane availability session).Trips most := by
  rw [pane]
  split
  next => exact trivial
  next => exact trips_session_last waits fun _ => trivial

theorem trips_clusterPane : (clusterPane conn).Trips 2 := by
  rw [clusterPane]
  split
  next =>
      split
      next => exact trivial
      next => exact trips_pane _ (Session.waits_clusterTopology conn)
  next => exact trips_pane _ (Session.waits_clusterTopology conn)

theorem trips_job (queue id : Str) : (job setting loop queue id).Trips (1 + 1) := by
  rw [job]
  apply trips_session (BullMq.Session.waits_job ..)
  intro found
  cases found with
  | error failure => exact trivial
  | ok found =>
      cases found with
      | none => exact trivial
      | some job => exact trips_session_last (BullMq.Session.waits_jobLogs ..) fun _ => trivial

theorem trips_handle {request : Request} {work : Work (Loop × Update)}
    (handled : handle setting loop request = some work) :
    work.Trips (request.mostTrips setting.conn) := by
  cases request with
  | select | refreshInfo => cases handled
  | rescan pattern kind =>
      cases handled
      exact trips_rescan pattern kind
  | more =>
      cases handled
      exact trips_scanBatch false
  | loadSlowlog =>
      cases handled
      exact (trips_pane _ (Session.waits_slowlog _ _)).then fun _ => trivial
  | loadClients =>
      cases handled
      exact (trips_pane _ (Session.waits_clientList _)).then fun _ => trivial
  | loadCluster =>
      cases handled
      exact trips_clusterPane.then fun _ => trivial
  | loadPubSub =>
      cases handled
      exact (trips_pane _ (Session.waits_pubsubChannels _ _)).then fun _ => trivial
  | detect =>
      cases handled
      apply trips_session_last (BullMq.Session.waits_detect ..)
      rintro (failure | found | found) <;> exact trivial
  | loadQueues =>
      cases handled
      exact trips_session_last (BullMq.Session.waits_allQueues ..) fun _ => trivial
  | loadJobs queue jobState =>
      cases handled
      exact trips_session_last (BullMq.Session.waits_jobs ..) fun _ => trivial
  | loadJob queue id =>
      cases handled
      exact (trips_job queue id).then fun _ => trivial

theorem trips_detail (conn : Conn) (key : Str) :
    (detail conn key).Trips ((Request.select key).mostTrips conn) := by
  apply trips_session (Session.waits_readKey conn key)
  intro result
  cases result with
  | error failure => exact trivial
  | ok read =>
      dsimp only
      split
      next => exact trips_session_last (Session.waits_streamInfo conn key) fun _ => trivial
      next => exact trivial

theorem trips_stats (conn : Conn) (info : InfoApi) :
    (stats info).Trips (Request.refreshInfo.mostTrips conn) := by
  apply trips_session_last (Session.waits_refreshInfo info)
  intro result
  cases result <;> trivial

end Work

theorem prices_trips (setting : Setting) :
    Prices setting trips (Request.mostTrips setting.conn) where
  handle _ _ _ handled := Work.trips_handle handled
  detail := Work.trips_detail setting.conn
  stats := Work.trips_stats setting.conn setting.info

namespace Tasks

variable {setting : Setting} {may : calls.Answers} {lens : BullMqLens} {state : Tasks}

/-- Whatever the keyspace holds, whatever the server answers and however the tasks
interleave, the worker waits for the server at most as often as the requests that it has
taken are worth, apart from the types of listed keys. -/
theorem trips_le_budget (reachable : Reachable setting may lens state) :
    state.spent trips ≤ state.budget (Request.mostTrips setting.conn) :=
  spent_le_budget (prices_trips setting) reachable

/-- Two pages, the slow log, the stats, and three for the key. -/
theorem trips_le_budget_busy :
    ∃ state : Tasks, state.spent trips = 7 ∧
      state.spent trips ≤ state.budget (Request.mostTrips olderSetting.conn) := by
  rcases exists_busy with ⟨state, reachable, _, _, asked⟩
  have spent : state.spent trips = 7 := by
    rw [Tasks.spent, asked]
    rfl
  exact ⟨state, spent, trips_le_budget reachable⟩

end Tasks

end Keylens.Backend
