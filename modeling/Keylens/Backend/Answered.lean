import Keylens.Backend.Bounds
import Keylens.Backend.Draining
import Keylens.Backend.Handling
import Keylens.BullMq.Traces

/-!
# What the UI can rely on

What a worker guarantees in every run: whatever it is asked for, in whatever order its
tasks move, and whatever the server answers meanwhile.
-/

namespace Keylens.Backend

open Keylens.Library Keylens.Connection Keylens.BullMq Keylens.Ui

/-! ## With a server that may answer anything -/

theorem guarantees_reads (setting : Setting) :
    Guarantees setting calls.anything (Call.ReadsOnly setting.conn.client.api)
      Request.Expects where
  handle _ _ _ handled := Work.reads_handle handled
  detail key := Work.reads_detail setting.conn key
  stats := Work.reads_stats setting.conn setting.info

/-- There is an answer to every call. -/
theorem answerable_anything (call : Call) : ∃ answer : call.Answer, calls.anything call answer := by
  cases call with
  | custom name args => exact ⟨.error { kind := .protocol, details := [] }, trivial⟩
  | together cmds =>
      exact ⟨⟨cmds.map fun _ => .error { kind := .protocol, details := [] }, List.length_map _⟩,
        trivial⟩
  | buffer name args => exact ⟨.error { kind := .protocol, details := [] }, trivial⟩
  | tryAll cmds => exact ⟨[], trivial⟩
  | openScan pattern count typeFilter => exact ⟨(0 : Nat), trivial⟩
  | nextPage scanner => exact ⟨.error { kind := .protocol, details := [] }, trivial⟩

/-- A worker on a server without keys, where everything is available. -/
def plainSetting : Setting where
  conn := Conn.answering plainApi plainWire (fun _ => none) { get := fun _ => .available }
  info := plainInfoApi
  serde := stringsOnly

def plainLens : BullMqLens := { prefix' := "bull".toList }

/-- On a server without `GETRANGE` a key is read command by command. -/
def olderSetting : Setting :=
  { plainSetting with
    conn := Conn.answering plainApi plainWire (fun _ => none)
      { get := fun feature => if feature = .getRange then .unsupported else .available } }

namespace Tasks

variable {setting : Setting} {lens : BullMqLens} {state : Tasks}

/-- A worker that has just been asked for something. -/
theorem reachable_accepted (setting : Setting) (may : calls.Answers) (lens : BullMqLens)
    (request : Request) :
    Reachable setting may lens { loop := { bullmq := lens }, accepted := [request] } :=
  .single (.accept request (Nat.zero_lt_succ 31))

/-- The calls of a worker that lists one page of keys, loads the slow log, refreshes the
stats and reads a list. -/
def busyCalls : List Call :=
  [.openScan "*".toList scanCount none, .nextPage (0 : Nat), .nextPage (0 : Nat),
    .buffer .type [.string "a".toList], .tryAll [(.type, [.string "a".toList])],
    .custom .slowlog [.string "GET".toList, .integer 128], .custom (.other "INFO".toList) [],
    .buffer .type [.string "a".toList], .buffer .pttl [.string "a".toList],
    .buffer .memory [.string "USAGE".toList, .string "a".toList],
    .tryAll [(.type, [.string "a".toList]), (.pttl, [.string "a".toList]),
      (.memory, [.string "USAGE".toList, .string "a".toList])],
    .custom .llen [.string "a".toList],
    .custom .lrange [.string "a".toList, .integer 0, .integer 199]]

/-- The main loop lists the keys and loads the slow log; of its two tasks the one that was
started later is done first. -/
theorem exists_busy :
    ∃ state : Tasks, Reachable olderSetting calls.anything plainLens state ∧
      state.accepted = [.rescan none none, .select "a".toList, .refreshInfo, .loadSlowlog] ∧
      state.answers = [0, 3, 2, 1] ∧ state.asked = busyCalls := by
  have lists : (Work.rescan olderSetting.conn { bullmq := plainLens } none none).Runs
      (Host.always calls.anything) () _ (_, .batch [("a".toList, some .list)] true true 1) :=
    .ask (0 : Nat) trivial (.ask (.ok (some ["a".toList])) trivial (.ask (.ok none) trivial
      (.ask (.ok ()) trivial (.ask [.ok (.string "list".toList)] trivial .done))))
  have refreshes : (Work.stats olderSetting.info).Runs (Host.always calls.anything) () _
      (.info _) :=
    .ask (.ok (.string "redis_version:7.4.0".toList)) trivial .done
  have reads : (Work.detail olderSetting.conn "a".toList).Runs (Host.always calls.anything) () _
      (.detail { key := "a".toList, kind := .list, ttlMs := none, size := 1, memory := some 72 }
        (.list ["x".toList]) none) :=
    .ask (.ok ()) trivial (.ask (.ok ()) trivial (.ask (.ok ()) trivial
      (.ask [.ok (.string "list".toList), .ok (.integer (-1)), .ok (.integer 72)] trivial
        (.ask (.ok (.integer 1)) trivial
          (.ask (.ok (.array [.string "x".toList])) trivial .done)))))
  have asked := reachable_accepted olderSetting calls.anything plainLens (.rescan none none)
  have selected := asked.tail (.accept (.select "a".toList) (by decide))
  have ticked := selected.tail (.accept .refreshInfo (by decide))
  have accepted := ticked.tail (.accept .loadSlowlog (by decide))
  have listed := Reachable.keptByMoves.handles accepted rfl rfl rfl lists rfl
  have reading := listed.tail (.drains (.move (.take rfl rfl)))
  have refreshing := reading.tail (.drains (.move (.take rfl rfl)))
  have loaded := Reachable.keptByMoves.handles refreshing rfl rfl rfl
    (.ask (.ok (.array [])) trivial .done) rfl
  have refreshed := Reachable.keptByMoves.answers refreshes loaded
    (show _ = [_] ++ _ :: [] from rfl) rfl rfl rfl
  have read := Reachable.keptByMoves.answers reads refreshed (List.nil_append _).symm rfl rfl rfl
  exact ⟨_, read, rfl, rfl, rfl⟩

/-- Whatever the UI asks for and whatever the server answers, nothing but reads is ever
sent to it. -/
theorem asked_readsOnly (reachable : Reachable setting calls.anything lens state) :
    ∀ call ∈ state.asked, call.ReadsOnly setting.conn.client.api :=
  (serves_of_reachable (guarantees_reads setting) reachable).asked

/-- Commands of the allowlist, and the bare `INFO` among them. -/
theorem asked_readsOnly_busy :
    ∃ state : Tasks, state.asked = busyCalls ∧
      ∀ call ∈ state.asked, call.ReadsOnly olderSetting.conn.client.api := by
  rcases exists_busy with ⟨state, reachable, _, _, asked⟩
  exact ⟨state, asked, asked_readsOnly reachable⟩

/-- No request is answered twice, every answer fits its request, and the main loop
answers what it takes in order: nothing that was asked for behind one of its requests is
answered before it. -/
theorem answers_in_order (reachable : Reachable setting calls.anything lens state) :
    state.answers.Nodup ∧
      (state.answers.Pairwise fun earlier later => state.InLoop later → earlier < later) ∧
      (∀ number < state.taken, state.InLoop number →
        number ∈ state.answers ∨ ∃ work, state.main = some (number, work)) ∧
      ∀ number update, (some number, update) ∈ state.sent →
        ∃ request, state.accepted[number]? = some request ∧ request.Expects update := by
  have serves := serves_of_reachable (guarantees_reads setting) reachable
  have delivers := delivers_of_reachable (guarantees_reads setting) reachable
  refine ⟨delivers.once, delivers.inOrder, delivers.complete, ?_⟩
  exact fun number update sent => (serves.sent number update sent).2

/-- The main loop answers its two requests in order; the stats, asked for before the slow
log, are answered behind it, and the key that was asked for before both is answered last. -/
theorem answers_in_order_busy :
    ∃ state : Tasks,
      state.accepted = [.rescan none none, .select "a".toList, .refreshInfo, .loadSlowlog] ∧
      state.answers = [0, 3, 2, 1] ∧
      (state.answers.Pairwise fun earlier later => state.InLoop later → earlier < later) ∧
      ∀ number update, (some number, update) ∈ state.sent →
        ∃ request, state.accepted[number]? = some request ∧ request.Expects update := by
  rcases exists_busy with ⟨state, reachable, accepted, answers, _⟩
  rcases answers_in_order reachable with ⟨_, inOrder, _, fits⟩
  exact ⟨state, accepted, answers, inOrder, fits⟩

/-- When nothing more is asked for, the worker comes to rest whatever it does next, and
then the main loop has answered all its requests, the last `Select` has been answered, and
the UI has every update. -/
theorem inevitably_settled (reachable : Reachable setting calls.anything lens state) :
    Inevitable (Drains setting calls.anything)
      (fun rest => Rests (Drains setting calls.anything) rest ∧
        rest.accepted = state.accepted ∧ rest.Settled) state :=
  inevitably_settled_of_serves (guarantees_reads setting) answerable_anything
    (serves_of_reachable (guarantees_reads setting) reachable)
    (delivers_of_reachable (guarantees_reads setting) reachable)

/-- One key is asked for. -/
theorem inevitably_settled_select :
    Inevitable (Drains plainSetting calls.anything)
      (fun rest => Rests (Drains plainSetting calls.anything) rest ∧
        rest.accepted = [.select "a".toList] ∧ rest.Settled)
      { loop := { bullmq := plainLens }, accepted := [.select "a".toList] } :=
  inevitably_settled (reachable_accepted plainSetting calls.anything plainLens _)

/-- The channels never overflow, apart from aborted reads at most two tasks run, and of all
that was ever asked for at most 67 requests are under way. -/
theorem channels_bounded (reachable : Reachable setting calls.anything lens state) :
    state.requests.length ≤ channelSize ∧ state.updates.length ≤ channelSize ∧
      (state.spawned.filter Task.runs).length ≤ 2 ∧
      ∀ numbers : List Nat, numbers.Nodup → (∀ number ∈ numbers, state.UnderWay number) →
        numbers.length ≤ 67 := by
  have delivers := delivers_of_reachable (guarantees_reads setting) reachable
  have fit : state.Fit ∧ state.Handled := by
    clear delivers
    induction reachable with
    | refl => exact ⟨⟨Nat.zero_le _, Nat.zero_le _⟩, nofun⟩
    | tail _ step ih => exact ⟨ih.1.step step, ih.2.step step⟩
  refine ⟨fit.1.requests, fit.1.updates, fit.2.length_running delivers, ?_⟩
  intro numbers nodup underWay
  have among : numbers ⊆ state.underWay := fun number member => (underWay number member).mem
  exact (nodup.subperm among).length_le.trans (fit.1.length_underWay fit.2 delivers)

/-- A key is read while the stats are refreshed, and the slow log is still to be loaded. -/
theorem channels_bounded_running :
    ∃ state : Tasks, state.requests = [.loadSlowlog] ∧
      (state.spawned.filter Task.runs).length = 2 ∧
      ∀ numbers : List Nat, numbers.Nodup → (∀ number ∈ numbers, state.UnderWay number) →
        numbers.length ≤ 67 := by
  have asked := reachable_accepted plainSetting calls.anything plainLens (.select "a".toList)
  have ticked := asked.tail (.accept .refreshInfo (by decide))
  have accepted := ticked.tail (.accept .loadSlowlog (by decide))
  have reading := accepted.tail (.drains (.move (.take rfl rfl)))
  have refreshing := reading.tail (.drains (.move (.take rfl rfl)))
  exact ⟨_, rfl, rfl, (channels_bounded refreshing).2.2.2⟩

end Tasks

/-! ## With a server that answers the same at any time -/

/-- What a key comes to when every command is answered the same at any time. -/
def detailUpdate (conn : Conn) (key : Str) : Update :=
  match conn.readKey key with
  | .error error => .error error.text
  | .ok (keyMeta, value) =>
      .detail keyMeta value
        (if keyMeta.kind = .stream then (conn.streamInfo key).toOption else none)

/-- What the cluster pane shows then. -/
def clusterState (conn : Conn) : PaneState ClusterTopology :=
  match conn.capabilities.get .cluster with
  | .available => Work.paneOf conn.clusterTopology
  | .unsupported => .unavailable "not implemented by this server".toList
  | .denied why =>
      if Work.disabledPhrase <:+: why.map Char.toLower then .ready .empty else .unavailable why

/-- The update that a request comes to then. -/
def Request.Yields (setting : Setting) : Request → Update → Prop
  | .select key, update => update = detailUpdate setting.conn key
  | .refreshInfo, update => some update = spawnInfo setting.info setting.conn false
  | .loadCluster, update => update = .cluster (clusterState setting.conn)
  | _, _ => True

/-- Going on from what a session comes to. -/
theorem every_session {α β : Type} {client : Client} {session : Session α} {result : Result α}
    {rest : Result α → Work β} {gives : β → Prop} (comes : session.ComesTo client result)
    (later : (rest result).Every client.Tells (fun _ => True) gives) :
    Prog.Every client.Tells (fun _ => True) gives (session.run >>= rest) := by
  apply Prog.Every.bind comes
  rintro _ rfl
  exact later

theorem every_detail (conn : Conn) (key : Str) :
    (Work.detail conn key).Every conn.client.Tells (fun _ => True) fun update =>
      update = detailUpdate conn key := by
  apply every_session (Session.readKey_comesTo conn key)
  rw [detailUpdate]
  rcases conn.readKey key with error | ⟨keyMeta, value⟩
  · rfl
  · dsimp only
    split
    next =>
        exact every_session (Session.streamInfo_comesTo conn key) rfl
    next => rfl

theorem every_stats (conn : Conn) (info : InfoApi) :
    (Work.stats info).Every conn.client.Tells (fun _ => True) fun update =>
      some update = spawnInfo info conn false := by
  apply every_session (Session.refreshInfo_comesTo conn info)
  rw [spawnInfo]
  cases conn.refreshInfo info <;> rfl

theorem every_clusterPane (conn : Conn) :
    (Work.clusterPane conn).Every conn.client.Tells (fun _ => True) fun shown =>
      shown = clusterState conn := by
  rw [Work.clusterPane, clusterState]
  cases conn.capabilities.get .cluster with
  | unsupported => rfl
  | available => exact every_session (Session.clusterTopology_comesTo conn) rfl
  | denied why =>
      dsimp only
      split <;> rfl

theorem guarantees_yields (setting : Setting) :
    Guarantees setting setting.conn.client.Tells (fun _ => True) (Request.Yields setting) where
  detail key := every_detail setting.conn key
  stats := every_stats setting.conn setting.info
  handle loop request work handled := by
    cases request with
    | select | refreshInfo => cases handled
    | loadCluster =>
        cases handled
        apply (every_clusterPane setting.conn).bind
        rintro _ rfl
        rfl
    | _ => exact (Prog.every_true work).mono (fun _ asked => asked) fun _ _ => trivial

theorem answerable_tells (client : Client) (call : Call) :
    ∃ answer : call.Answer, client.Tells call answer := by
  cases call with
  | custom name args => exact ⟨_, rfl⟩
  | together cmds =>
      exact ⟨⟨cmds.map fun cmd : Command => client.custom cmd.1 cmd.2, List.length_map _⟩, rfl⟩
  | buffer name args => exact ⟨_, rfl⟩
  | tryAll cmds => exact ⟨_, rfl⟩
  | openScan pattern count typeFilter => exact ⟨(0 : Nat), trivial⟩
  | nextPage scanner => exact ⟨.error { kind := .protocol, details := [] }, trivial⟩

namespace Tasks

variable {setting : Setting} {lens : BullMqLens} {state : Tasks}

/-- Before a server that answers every command the same at any time, a key that is read, the
stats and the topology are what they are without any other task, however the tasks
interleave. -/
theorem sent_of_unchanged
    (reachable : Reachable setting setting.conn.client.Tells lens state) {number : Nat}
    {request : Request} {update : Update} (accepted : state.accepted[number]? = some request)
    (sent : (some number, update) ∈ state.sent) : request.Yields setting update := by
  have serves := serves_of_reachable (guarantees_yields setting) reachable
  rcases (serves.sent number update sent).2 with ⟨other, found, yields⟩
  rwa [Option.some.inj (accepted.symm.trans found)]

/-- A key that is not there. -/
theorem sent_of_unchanged_select :
    ∃ state : Tasks, ∃ update, (some 0, update) ∈ state.sent ∧
      update = detailUpdate plainSetting.conn "a".toList := by
  have accepted := reachable_accepted plainSetting plainSetting.conn.client.Tells plainLens
    (.select "a".toList)
  have guarantees := guarantees_yields plainSetting
  have settled := inevitably_settled_of_serves guarantees (answerable_tells _)
    (serves_of_reachable guarantees accepted) (delivers_of_reachable guarantees accepted)
  rcases settled.exists_reached with ⟨rest, drained, _, same, settled⟩
  have selected : rest.accepted[0]? = some (.select "a".toList) := by rw [same]; rfl
  have answered : 0 ∈ rest.answers := by
    apply settled.select 0 ⟨_, selected⟩
    rintro later positive ⟨key, found⟩
    rw [same, List.getElem?_eq_none positive] at found
    cases found
  rcases List.mem_filterMap.mp answered with ⟨⟨source, update⟩, sent, rfl⟩
  have reachable := accepted.trans
    (Relation.ReflTransGen.mono (fun _ _ => Step.drains) _ _ drained)
  exact ⟨rest, update, sent, sent_of_unchanged reachable selected sent⟩

end Tasks

end Keylens.Backend
