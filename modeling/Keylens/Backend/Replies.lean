import Keylens.Backend.Session

/-!
# What the worker replies

Whatever the server answers, a request gets the reply it expects, nothing but reads
is sent for it, and it takes only so many round trips.
-/

namespace Keylens.Ui.PaneState

/-- A pane that is neither waiting to be asked for nor for an answer. -/
def Settled {α : Type} : PaneState α → Prop
  | .idle | .loading => False
  | .ready _ | .unavailable _ | .failed _ => True

end Keylens.Ui.PaneState

namespace Keylens.Backend

open Keylens.Library Keylens.Connection Keylens.BullMq Keylens.Ui

/-- The updates that answer a request. -/
def Request.Expects : Request → Update → Prop
  | .rescan _ _, .batch _ reset _ _ => reset = true
  | .more, .batch _ reset _ _ => reset = false
  | .rescan _ _, .error _ | .more, .error _ => True
  | .select key, .detail keyMeta _ _ => keyMeta.key = key
  | .select _, .error _ => True
  | .refreshInfo, .info _ | .refreshInfo, .error _ => True
  | .loadSlowlog, .slowlog state => state.Settled
  | .loadClients, .clients state => state.Settled
  | .loadCluster, .cluster state => state.Settled
  | .loadPubSub, .pubSub state => state.Settled
  | .detect, .detected detections =>
      detections.length ≤ 1 ∧ ∀ detection ∈ detections, BullMq.Session.WellFormed detection
  | .loadQueues, .queues state => state.Settled
  | .loadJobs _ jobState, .jobs other data => other = jobState ∧ data.Settled
  | .loadJob _ id, .job state =>
      state.Settled ∧ ∀ detail, state = .ready (some detail) → detail.job.id = id
  | _, _ => False

namespace Work

variable {setting : Setting} {conn : Conn} {loop : Loop}

/-- A computation sends nothing but reads, and gives values of a kind. -/
abbrev Reads {α : Type} (conn : Conn) (gives : α → Prop) (work : Work α) : Prop :=
  work.Every calls.anything (Call.ReadsOnly conn.client.api) gives

section Rules

variable {α β : Type} {gives : α → Prop} {after : β → Prop} {session : Session α}
variable {rest : Result α → Work β}

/-- Go on from the outcome of a session, whatever it is. -/
theorem reads_session (asks : session.Asks (Call.ReadsOnly conn.client.api))
    (later : ∀ result, (rest result).Reads conn after) :
    Reads conn after (session.run >>= rest) :=
  Prog.Every.bind asks fun result _ => later result

/-- The same, where something is known of what the session gives. -/
theorem reads_session_gives (asks : session.Asks (Call.ReadsOnly conn.client.api))
    (given : session.Gives gives)
    (ok : ∀ value, gives value → (rest (.ok value)).Reads conn after)
    (error : ∀ error, (rest (.error error)).Reads conn after) :
    Reads conn after (session.run >>= rest) := by
  have both := (Prog.Every.and asks given).mono (fun _ asked => asked.1) fun _ known => known.2
  apply both.bind
  intro result known
  cases result with
  | ok value => exact ok value (known value rfl)
  | error failure => exact error failure

end Rules

/-! ## Scanning -/

theorem reads_keyKinds (chunks : List (List Str)) :
    (keyKinds conn chunks).Reads conn fun _ => True := by
  induction chunks with
  | nil => exact trivial
  | cons chunk later ih =>
      refine Prog.Every.bind (show Reads conn (fun _ => True) _ from ?_) fun _ _ => ?_
      · apply reads_session (Session.asks_pipeline conn _).readsOnly
        intro result
        cases result <;> exact trivial
      · exact ih.bind fun _ _ => trivial

theorem reads_typeKeys (keys : List Str) :
    (typeKeys loop conn keys).Reads conn fun _ => True := by
  rw [typeKeys]
  split
  next => exact trivial
  next =>
      split
      next => exact trivial
      next => exact (reads_keyKinds _).bind fun _ _ => trivial

theorem reads_gather (left : Nat) (keys : List Str) (pages : Nat) :
    (gather loop left keys pages).Reads conn fun _ => True := by
  induction left generalizing keys pages with
  | zero => exact trivial
  | succ left ih =>
      rw [gather]
      split
      next =>
          split
          next => exact trivial
          next =>
              apply reads_session (Session.asks_nextPage _ _)
              intro page
              cases page with
              | error error => exact trivial
              | ok page =>
                  cases page with
                  | none => exact trivial
                  | some page => exact ih _ _
      next => exact trivial

theorem reads_scanBatch {request : Request} {reset : Bool}
    (batch : ∀ keys complete pages, request.Expects (.batch keys reset complete pages))
    (error : ∀ message, request.Expects (.error message)) :
    (scanBatch conn loop reset).Reads conn fun answer => request.Expects answer.2 := by
  apply (reads_gather _ _ _).bind
  rintro ⟨result, loop⟩ _
  cases result with
  | error failure => exact error _
  | ok gathered => exact (reads_typeKeys _).bind fun _ _ => batch _ _ _

theorem reads_rescan (pattern : Option Str) (kind : Option Kind) :
    (rescan conn loop pattern kind).Reads conn fun answer =>
      (Request.rescan pattern kind).Expects answer.2 := by
  refine ⟨?_, fun _ _ => reads_scanBatch (fun _ _ _ => rfl) fun _ => trivial⟩
  intro cmd sent
  left
  rw [show cmd.1 = .scan from sent]
  rfl

/-! ## Panes -/

theorem settled_paneOf {α : Type} (result : Result α) : (paneOf result).Settled := by
  cases result <;> exact trivial

theorem reads_pane {α : Type} {session : Session α} (availability : Availability)
    (asks : session.Asks (Call.ReadsOnly conn.client.api)) :
    (pane availability session).Reads conn PaneState.Settled := by
  rw [pane]
  split
  next => exact trivial
  next => exact reads_session asks fun result => settled_paneOf result

theorem reads_clusterPane : (clusterPane conn).Reads conn PaneState.Settled := by
  rw [clusterPane]
  split
  next =>
      split
      next => exact trivial
      next => exact reads_pane _ (Session.asks_clusterTopology conn).readsOnly
  next => exact reads_pane _ (Session.asks_clusterTopology conn).readsOnly

/-! ## Queues -/

theorem gives_job (lens : BullMqLens) (conn : Conn) (serde : Serde) (queue id : Str) :
    (BullMq.Session.job lens conn serde queue id).Gives fun found =>
      ∀ job, found = some job → job.id = id := by
  apply (Session.gives_true _).bind
  intro reply _
  split
  next =>
      dsimp only
      split
      next => exact Session.gives_pure (by simp)
      next =>
          apply Session.gives_pure
          rintro _ ⟨⟩
          rfl
  next => exact Session.gives_pure (by simp)

theorem reads_job (queue id : Str) :
    (job setting loop queue id).Reads setting.conn fun state =>
      (Request.loadJob queue id).Expects (.job state) := by
  apply reads_session_gives (BullMq.Session.asks_job ..).readsOnly (gives_job ..)
  · intro found known
    cases found with
    | none => exact ⟨trivial, by simp⟩
    | some job =>
        apply reads_session (BullMq.Session.asks_jobLogs ..).readsOnly
        intro logs
        refine ⟨trivial, ?_⟩
        rintro _ ⟨⟩
        exact known job rfl
  · exact fun _ => ⟨trivial, by simp⟩

theorem reads_detect :
    (detect setting loop).Reads setting.conn fun answer => Request.detect.Expects answer.2 := by
  apply reads_session_gives (BullMq.Session.asks_detect ..) (BullMq.Session.gives_detect ..)
  · intro found known
    cases found with
    | none => exact ⟨Nat.zero_le 1, by simp⟩
    | some detection => exact ⟨Nat.le_refl 1, by simpa using (known detection rfl).1⟩
  · exact fun _ => ⟨Nat.zero_le 1, by simp⟩

/-! ## Requests -/

/-- Whatever is answered, the main loop only reads, and its update answers the
request. -/
theorem reads_handle {request : Request} {work : Work (Loop × Update)}
    (handled : handle setting loop request = some work) :
    work.Reads setting.conn fun answer => request.Expects answer.2 := by
  cases request with
  | select | refreshInfo => cases handled
  | rescan pattern kind =>
      cases handled
      exact reads_rescan pattern kind
  | more =>
      cases handled
      exact reads_scanBatch (fun _ _ _ => rfl) fun _ => trivial
  | loadSlowlog =>
      cases handled
      exact (reads_pane _ (Session.asks_slowlog _ _).readsOnly).bind fun _ settled => settled
  | loadClients =>
      cases handled
      exact (reads_pane _ (Session.asks_clientList _).readsOnly).bind fun _ settled => settled
  | loadCluster =>
      cases handled
      exact reads_clusterPane.bind fun _ settled => settled
  | loadPubSub =>
      cases handled
      exact (reads_pane _ (Session.asks_pubsubChannels _ _).readsOnly).bind fun _ settled => settled
  | detect =>
      cases handled
      exact reads_detect
  | loadQueues =>
      cases handled
      exact reads_session (BullMq.Session.asks_allQueues ..) fun result => settled_paneOf result
  | loadJobs queue jobState =>
      cases handled
      exact reads_session (BullMq.Session.asks_jobs ..).readsOnly fun result =>
        ⟨rfl, settled_paneOf result⟩
  | loadJob queue id =>
      cases handled
      exact (reads_job queue id).bind fun _ expected => expected

theorem reads_detail (conn : Conn) (key : Str) :
    (detail conn key).Reads conn (Request.select key).Expects := by
  apply reads_session_gives (Session.asks_readKey conn key).readsOnly
    (Session.gives_readKey conn key)
  · rintro ⟨keyMeta, value⟩ same
    dsimp only
    split
    next => exact reads_session (Session.asks_streamInfo conn key).readsOnly fun _ => same
    next => exact same
  · exact fun _ => trivial

theorem reads_stats (conn : Conn) (info : InfoApi) :
    (stats info).Reads conn Request.refreshInfo.Expects := by
  apply reads_session (Session.asks_refreshInfo _ info).readsOnly
  intro result
  cases result <;> exact trivial

end Work

end Keylens.Backend
