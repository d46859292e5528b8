import Keylens.Tui.Hosted
import Keylens.Tui.Told

/-!
# What the panes show is so

Before a server that answers every command the same at any time, the value pane, the
cluster pane and the stats show what the functions of the connection come to, though
answers arrive late and some are for keys that the cursor has left.
-/

namespace Keylens.Tui

open Keylens.Library Keylens.Connection Keylens.BullMq Keylens.Ui Keylens.Backend

namespace Browse

variable {setting : Setting} {rtt : Nat} {state next : Browse} {event : BrowseEvent}
variable {heeds : Browse → BrowseEvent → Prop} {lens : BullMqLens} {server : ServerInfo} {url : Str}

/-- The panes show what there is. -/
structure ShowsTruth (setting : Setting) (server : ServerInfo) (state : Browse) : Prop where
  value : ∀ keyMeta value, state.app.detail = some (keyMeta, value) →
    .detail keyMeta value state.app.stream = detailUpdate setting.conn keyMeta.key
  cluster : ∀ topology, state.app.cluster = .ready topology →
    clusterState setting.conn = .ready topology
  stats : state.app.server = server ∨ setting.conn.refreshInfo setting.info = .ok state.app.server

/-! ## Where the updates come from -/

/-- An update that is not one of the reader's answers a request, as it is answered before
such a server. -/
theorem exists_request
    (reachable : Reachable setting setting.conn.client.Tells rtt heeds lens server url state)
    {source : Option Nat} {update : Update} (sent : (source, update) ∈ state.tasks.sent)
    (other : isEventsUpdate update = false) :
    ∃ request : Request, request.Expects update ∧ request.Yields setting update := by
  have known := Reachable.known reachable
  have serves := Tasks.serves_of_reachable (guarantees_yields setting) reachable.tasks
  cases source with
  | none =>
      have events := known.events update sent
      rw [other] at events
      cases events
  | some number =>
      rcases (known.serves.sent number update sent).2 with ⟨request, accepted, fits⟩
      rcases (serves.sent number update sent).2 with ⟨same, found, yields⟩
      cases accepted.symm.trans found
      exact ⟨request, fits, yields⟩

theorem eq_detailUpdate {request : Request} {keyMeta : KeyMeta} {value : KeyValue}
    {stream : Option StreamInfo} (fits : request.Expects (.detail keyMeta value stream))
    (yields : request.Yields setting (.detail keyMeta value stream)) :
    .detail keyMeta value stream = detailUpdate setting.conn keyMeta.key := by
  cases request with
  | select key =>
      have same : keyMeta.key = key := fits
      rw [same]
      exact yields
  | _ => cases fits

theorem eq_clusterState {request : Request} {shown : PaneState ClusterTopology}
    (fits : request.Expects (.cluster shown)) (yields : request.Yields setting (.cluster shown)) :
    clusterState setting.conn = shown := by
  cases request with
  | loadCluster =>
      cases yields
      rfl
  | _ => cases fits

theorem refreshInfo_eq {request : Request} {stats : ServerInfo}
    (fits : request.Expects (.info stats))
    (yields : request.Yields setting (.info stats)) :
    setting.conn.refreshInfo setting.info = .ok stats := by
  cases request with
  | refreshInfo =>
      have spawned : some (.info stats) = spawnInfo setting.info setting.conn false := yields
      rw [spawnInfo] at spawned
      cases read : setting.conn.refreshInfo setting.info with
      | error failure =>
          rw [read] at spawned
          cases spawned
      | ok other =>
          rw [read] at spawned
          cases spawned
          rfl
  | _ => cases fits

/-! ## One step -/

theorem ShowsTruth.of_untold (truth : state.ShowsTruth setting server)
    (untold : state.app.Untold next.app) : next.ShowsTruth setting server := by
  constructor
  · intro keyMeta value shown
    rcases untold.2.2.1 with nothing | ⟨detail, stream⟩
    · cases nothing.symm.trans shown
    · rw [detail] at shown
      rw [stream]
      exact truth.value keyMeta value shown
  · intro topology ready
    exact truth.cluster topology (untold.2.2.2 topology ready)
  · rw [show next.app.server = state.app.server from congrArg Told.server untold.1]
    exact truth.stats

/-- The value pane takes the answer for the key that it waits for, and no other. -/
theorem ShowsTruth.receive_detail (truth : state.ShowsTruth setting server)
    {keyMeta : KeyMeta} {value : KeyValue} {stream : Option StreamInfo}
    (read : .detail keyMeta value stream = detailUpdate setting.conn keyMeta.key) :
    (state.receive (.detail keyMeta value stream)).ShowsTruth setting server := by
  by_cases wanted : state.app.pendingKey = some keyMeta.key
  · have shown : state.app.apply (.detail keyMeta value stream) =
        { state.app with
          detailScroll := 0, stream, detail := some (keyMeta, value), error := none } :=
      if_pos wanted
    constructor
    · rw [app_receive, shown]
      rintro _ _ ⟨⟩
      exact read
    · rw [app_receive, shown]
      exact truth.cluster
    · rw [app_receive, shown]
      exact truth.stats
  · have ignored : state.app.apply (.detail keyMeta value stream) = state.app := if_neg wanted
    apply truth.of_untold
    rw [app_receive, ignored]
    exact .same _

theorem ShowsTruth.receive (truth : state.ShowsTruth setting server)
    (reachable : Reachable setting setting.conn.client.Tells rtt heeds lens server url state)
    {source : Option Nat} {update : Update} {rest : List (Option Nat × Update)}
    (waiting : state.tasks.updates = (source, update) :: rest) :
    (state.receive update).ShowsTruth setting server := by
  have sent := Tasks.mem_sent_of_waiting waiting
  cases update with
  | batch keys reset complete scannedPages =>
      -- A reset clears the value, and leaves behind what is known of the stream.
      cases reset with
      | true =>
          refine ⟨?_, truth.cluster, truth.stats⟩
          intro keyMeta value shown
          cases shown
      | false => exact ⟨truth.value, truth.cluster, truth.stats⟩
  | detail keyMeta value stream =>
      rcases exists_request reachable sent rfl with ⟨request, fits, yields⟩
      exact truth.receive_detail (eq_detailUpdate fits yields)
  | info stats =>
      rcases exists_request reachable sent rfl with ⟨request, fits, yields⟩
      exact ⟨truth.value, truth.cluster, .inr (refreshInfo_eq fits yields)⟩
  | cluster shown =>
      rcases exists_request reachable sent rfl with ⟨request, fits, yields⟩
      refine ⟨truth.value, ?_, truth.stats⟩
      rw [eq_clusterState fits yields]
      exact fun _ ready => ready
  | jobs jobState data =>
      apply truth.of_untold
      rw [app_receive, App.apply, App.applyJobs]
      split <;> exact App.Untold.same state.app
  | detected detections =>
      constructor
      · rw [app_receive]
        exact truth.value
      · rw [app_receive]
        exact truth.cluster
      · rw [app_receive]
        exact truth.stats
  | _ => exact ⟨truth.value, truth.cluster, truth.stats⟩

/-! ## Every run -/

theorem ShowsTruth.step (truth : state.ShowsTruth setting server)
    (reachable : Reachable setting setting.conn.client.Tells rtt heeds lens server url state)
    (step : Step setting setting.conn.client.Tells rtt state event next) :
    next.ShowsTruth setting server := by
  cases step with
  | key runs event =>
      apply truth.of_untold
      rw [press, app_rearm]
      exact App.untold_handleKey { state.app with tx := { channel := state.channel } } event
  | fetch runs armed due =>
      apply truth.of_untold
      rw [fetch, app_rearm]
      exact App.untold_flushSelection { state.app with tx := { channel := state.channel } }
  | receive runs waiting => exact truth.receive reachable waiting
  | tick | wait | work | read => exact ⟨truth.value, truth.cluster, truth.stats⟩

/-- Before a server that answers every command the same at any time, the value pane always
shows a key with the very value that reading it alone comes to, a stream with what is known
of that stream, the cluster pane the topology, and the stats are the first ones or those of
a refresh; however the tasks interleave and whatever the user does. -/
theorem panes_tell_truth
    (reachable : Reachable setting setting.conn.client.Tells rtt heeds lens server url state) :
    (∀ keyMeta value, state.app.detail = some (keyMeta, value) →
      setting.conn.readKey keyMeta.key = .ok (keyMeta, value) ∧
        state.app.stream =
          if keyMeta.kind = .stream then (setting.conn.streamInfo keyMeta.key).toOption else none) ∧
    (∀ topology, state.app.cluster = .ready topology →
      clusterState setting.conn = .ready topology) ∧
    (state.app.server = server ∨
      setting.conn.refreshInfo setting.info = .ok state.app.server) := by
  have truth : state.ShowsTruth setting server := by
    induction reachable with
    | start =>
        refine ⟨?_, ?_, .inl rfl⟩
        · intro keyMeta value shown
          cases shown
        · intro topology ready
          cases ready
    | next before _ step ih => exact ih.step before step
  refine ⟨?_, truth.cluster, truth.stats⟩
  intro keyMeta value shown
  have same := truth.value keyMeta value shown
  rw [detailUpdate] at same
  cases read : setting.conn.readKey keyMeta.key with
  | error failure =>
      rw [read] at same
      cases same
  | ok found =>
      rcases found with ⟨ownMeta, ownValue⟩
      rw [read] at same
      injection same with sameMeta sameValue sameStream
      subst sameMeta sameValue
      exact ⟨rfl, sameStream⟩

/-! ## A server without any features -/

def bareSetting : Setting :=
  { Tasks.smallSetting with conn := Conn.answering plainApi plainWire Tasks.oneString {} }

def bareListedApp : App :=
  (plainStart.app.apply (.detected [])).apply (.batch [("a".toList, some .string)] true true 1)

/-- The one key is listed, and nothing else is asked for. -/
theorem exists_bareListed :
    ∃ state : Browse, Reachable bareSetting bareSetting.conn.client.Tells 0 (fun _ _ => True)
      plainLens plainServer "redis://localhost".toList state ∧ state.app = bareListedApp ∧
      ∃ loop asked, state.tasks =
        { loop, asked, accepted := [.detect, .rescan none none], taken := 2, received := 2
          sent := [(some 0, .detected []),
            (some 1, .batch [("a".toList, some .string)] true true 1)] } := by
  have detects : (Work.detect bareSetting { bullmq := plainLens }).Runs
      (Host.always bareSetting.conn.client.Tells) () _ ({ bullmq := plainLens }, .detected []) :=
    .ask (0 : Nat) trivial (.ask (.ok none) trivial .done)
  have lists : (Work.rescan bareSetting.conn { bullmq := plainLens } none none).Runs
      (Host.always bareSetting.conn.client.Tells) () _
      (_, .batch [("a".toList, some .string)] true true 1) :=
    .ask (1 : Nat) trivial (.ask (.ok (some ["a".toList])) trivial (.ask (.ok none) trivial
      (.ask (.ok ()) rfl (.ask [.ok (.string "string".toList)] rfl .done))))
  exact ⟨_, HostedReachable.lists detects lists, rfl, _, _, rfl⟩

/-- The key is there, though its value cannot be read in bounded time. -/
theorem panes_tell_truth_string :
    ∃ (state : Browse) (keyMeta : KeyMeta) (value : KeyValue),
      state.app.detail = some (keyMeta, value) ∧ keyMeta.key = "a".toList ∧
        bareSetting.conn.readKey keyMeta.key = .ok (keyMeta, value) := by
  rcases exists_bareListed with ⟨⟨app, tasks, now, fetchAt, tickAt, attached⟩, reachable, listed,
    loop, asked, answered⟩
  cases listed
  cases answered
  let keyMeta : KeyMeta :=
    { key := "a".toList, kind := .string, ttlMs := none, size := 0, memory := none }
  let value : KeyValue := .unsupported "this server has no bounded string read (GETRANGE)".toList
  have pressed := reachable.next trivial (.key rfl { code := .char 'g' })
  have selected := pressed.next trivial (.work (@Tasks.Move.take _ _ _ (.select "a".toList)
    rfl rfl))
  have reads : (Work.detail bareSetting.conn "a".toList).Runs
      (Host.always bareSetting.conn.client.Tells) () _ (.detail keyMeta value none) :=
    .ask (.ok ()) rfl (.ask (.ok ()) rfl
      (.ask [.ok (.string "string".toList), .ok (.integer (-1))] rfl
        (.ask (.ok (.integer 0)) rfl .done)))
  have read := (Reachable.keptByMoves _ fun _ => trivial).answers reads selected
    (List.nil_append _).symm rfl rfl rfl
  have told := read.next trivial (.receive rfl rfl)
  have reached : ∃ state : Browse, Reachable bareSetting bareSetting.conn.client.Tells 0
      (fun _ _ => True) plainLens plainServer "redis://localhost".toList state ∧
      state.app.detail = some (keyMeta, value) := ⟨_, told, rfl⟩
  rcases reached with ⟨state, reachable, detail⟩
  exact ⟨state, keyMeta, value, detail, rfl,
    ((panes_tell_truth reachable).1 keyMeta value detail).1⟩

end Browse

end Keylens.Tui
