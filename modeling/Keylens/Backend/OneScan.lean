import Keylens.Backend.Alone
import Keylens.Backend.Handling

/-!
# One scan, whatever else goes on

However the tasks interleave, the requests that are answered with keys are answered as by
a worker that does nothing but scan.
-/

namespace Keylens.Backend

open Keylens.Library Keylens.Connection Keylens.BullMq Keylens.Ui

namespace Tasks

/-- Where the tasks get when what may be answered depends on what was asked before. -/
def HostedReachable {σ : Type} (setting : Setting) (host : Host calls σ) (first : σ)
    (lens : BullMqLens) : Tasks → Prop :=
  Relation.ReflTransGen
    (fun before after => Step setting (host.answers first before.asked) before after)
    { loop := { bullmq := lens } }

variable {setting : Setting} {scanApi : ScanApi} {lens : BullMqLens} {state next : Tasks}

theorem HostedReachable.reachable {σ : Type} {host : Host calls σ} {first : σ}
    (reachable : HostedReachable setting host first lens state) :
    Reachable setting calls.anything lens state :=
  Relation.ReflTransGen.mono (fun _ _ step => step.mono fun _ _ _ => trivial) _ _ reachable

theorem HostedReachable.keptByMoves {σ : Type} {host : Host calls σ} {first : σ} :
    KeptByMoves setting host first (HostedReachable setting host first lens) :=
  fun _ _ reachable move => reachable.tail (.drains (.move move))

/-! ## The invariant -/

/-- The scanners after what has been asked. -/
def scanners (conn : Conn) (scanApi : ScanApi) (state : Tasks) : Scanners :=
  (scanHost conn scanApi).after [] state.asked

/-- The worker alone after so many requests. -/
def aloneAfter (conn : Conn) (scanApi : ScanApi) (state : Tasks) (count : Nat) : ScanRun :=
  scanAlone (sceneOf conn scanApi) (state.accepted.take count)

/-- Between two requests the loop stands where the worker alone stands, within one it comes
to what the worker alone comes to, and nothing else touches a scanner. -/
structure ScansAlone (conn : Conn) (scanApi : ScanApi) (state : Tasks) : Prop where
  idle : state.main = none →
    state.loop.Mirrors (state.scanners conn scanApi)
      (state.aloneAfter conn scanApi state.taken).worker
  main : ∀ number work, state.main = some (number, work) →
    work.Ends (scanHost conn scanApi)
      (fun answer after =>
        answer.1.Mirrors after (state.aloneAfter conn scanApi (number + 1)).worker ∧
          ∀ request, state.accepted[number]? = some request → request.scans →
            (state.aloneAfter conn scanApi (number + 1)).updates.getLast? = some answer.2)
      (state.scanners conn scanApi)
  spawned : ∀ task ∈ state.spawned, ∀ work, task.left = some work →
    work.Every calls.anything (Call.Plain conn.client.api) fun _ => True
  sent : ∀ number request update, state.accepted[number]? = some request → request.scans →
    (some number, update) ∈ state.sent →
      (state.aloneAfter conn scanApi (number + 1)).updates.getLast? = some update

section Steps

variable {conn : Conn}

theorem scanners_concat {call : Call} (asked : next.asked = state.asked ++ [call]) :
    next.scanners conn scanApi =
      (scanHost conn scanApi).next (state.scanners conn scanApi) call := by
  rw [scanners, asked]
  exact Host.after_concat ..

theorem aloneAfter_succ (state : Tasks) {request : Request}
    (accepted : state.accepted[state.taken]? = some request) :
    state.aloneAfter conn scanApi (state.taken + 1) =
      ScanRun.serve (sceneOf conn scanApi) (state.aloneAfter conn scanApi state.taken) request := by
  rw [aloneAfter, List.take_add_one, accepted]
  exact run_append _ _

/-- Steps that neither the main loop nor its scanner notices. -/
theorem ScansAlone.keep (alone : state.ScansAlone conn scanApi) (loop : next.loop = state.loop)
    (main : next.main = state.main) (accepted : next.accepted = state.accepted)
    (taken : next.taken = state.taken)
    (scanners : next.scanners conn scanApi = state.scanners conn scanApi)
    (spawned : ∀ task ∈ next.spawned, ∀ work, task.left = some work →
      work.Every calls.anything (Call.Plain conn.client.api) fun _ => True)
    (sent : ∀ number request update, state.accepted[number]? = some request → request.scans →
      (some number, update) ∈ next.sent → (some number, update) ∈ state.sent) :
    next.ScansAlone conn scanApi := by
  have same (count : Nat) : next.aloneAfter conn scanApi count =
      state.aloneAfter conn scanApi count := by
    rw [aloneAfter, accepted, aloneAfter]
  refine ⟨?_, ?_, spawned, ?_⟩
  · rw [main, loop, taken, scanners, same]
    exact alone.idle
  · rw [main, scanners, accepted]
    simp only [same]
    exact alone.main
  · rw [accepted]
    simp only [same]
    exact fun number request update found scans member =>
      alone.sent number request update found scans (sent number request update found scans member)

theorem inLoop_of_scans {request : Request} (scans : request.scans) : request.inLoop := by
  cases request <;> first | rfl | cases scans

/-- A request for a task changes nothing for the main loop. -/
theorem ScansAlone.pass (alone : state.ScansAlone conn scanApi) {request : Request}
    (idle : state.main = none) (accepted : state.accepted[state.taken]? = some request)
    (apart : request.inLoop = false) {tasks : List Task}
    (spawned : ∀ task ∈ tasks, ∀ work, task.left = some work →
      work.Every calls.anything (Call.Plain conn.client.api) fun _ => True)
    (detail stats : Option Nat) :
    ScansAlone conn scanApi
      { state with taken := state.taken + 1, spawned := tasks, detail, stats } := by
  refine ⟨fun _ => ?_, fun number work main => ?_, spawned, alone.sent⟩
  · have after : state.aloneAfter conn scanApi (state.taken + 1) =
        ScanRun.serve (sceneOf conn scanApi) (state.aloneAfter conn scanApi state.taken) request :=
      state.aloneAfter_succ accepted
    have kept : ScanRun.serve (sceneOf conn scanApi) (state.aloneAfter conn scanApi state.taken)
        request = state.aloneAfter conn scanApi state.taken := by
      cases request <;> first | rfl | cases apart
    change state.loop.Mirrors _ (state.aloneAfter conn scanApi (state.taken + 1)).worker
    rw [after, kept]
    exact alone.idle idle
  · cases idle.symm.trans main

theorem plain_detail (conn : Conn) (key : Str) :
    (Work.detail conn key).Every calls.anything (Call.Plain conn.client.api) fun _ => True := by
  apply Prog.Every.bind (Session.asks_readKey conn key)
  rintro (failure | ⟨keyMeta, value⟩) _
  · exact trivial
  · dsimp only
    split
    next => exact Prog.Every.bind (Session.asks_streamInfo conn key) fun _ _ => trivial
    next => exact trivial

theorem plain_stats (api : ValueApi) (info : InfoApi) :
    (Work.stats info).Every calls.anything (Call.Plain api) fun _ => True := by
  apply Prog.Every.bind (Session.asks_refreshInfo api info)
  rintro (failure | server) _ <;> exact trivial

theorem ScansAlone.take (alone : state.ScansAlone setting.conn scanApi) {request : Request}
    (idle : state.main = none) (accepted : state.accepted[state.taken]? = some request) :
    (state.take setting request).ScansAlone setting.conn scanApi := by
  have turns (inLoop : request.inLoop) :
      (turnTo setting { state with taken := state.taken + 1 } state.taken request).ScansAlone
        setting.conn scanApi := by
    rcases exists_handle setting state.loop inLoop with ⟨work, handled⟩
    have after : state.aloneAfter setting.conn scanApi (state.taken + 1) =
        ScanRun.serve (sceneOf setting.conn scanApi)
          (state.aloneAfter setting.conn scanApi state.taken) request :=
      state.aloneAfter_succ accepted
    rw [turnTo, handled]
    refine ⟨fun idle => (by cases idle), ?_, alone.spawned, alone.sent⟩
    rintro _ _ ⟨⟩
    apply (Work.ends_handle (alone.idle idle) handled).mono
    rintro answer scanners ⟨mirrors, last⟩
    change answer.1.Mirrors scanners
      (state.aloneAfter setting.conn scanApi (state.taken + 1)).worker ∧ _
    rw [after]
    refine ⟨mirrors, ?_⟩
    intro other found scans
    cases accepted.symm.trans found
    change (state.aloneAfter setting.conn scanApi (state.taken + 1)).updates.getLast? = _
    rw [after]
    exact last scans
  cases request with
  | select key =>
      apply alone.pass idle accepted rfl
      intro task member work left
      rcases List.mem_append.mp member with before | new
      · rcases mem_abortDetail before with ⟨other, among, _, same⟩
        exact alone.spawned other among work (same ▸ left)
      · cases List.mem_singleton.mp new
        cases left
        exact plain_detail setting.conn key
  | refreshInfo =>
      dsimp only [Tasks.take]
      split
      next => exact alone.pass idle accepted rfl alone.spawned _ _
      next =>
          rw [spawnInfo]
          split
          next => exact alone.pass idle accepted rfl alone.spawned _ _
          next =>
              apply alone.pass idle accepted rfl
              intro task member work left
              rcases List.mem_append.mp member with before | new
              · exact alone.spawned task before work left
              · cases List.mem_singleton.mp new
                cases left
                exact plain_stats _ setting.info
  | _ => exact turns rfl

/-- What is left of a task that has been answered is still apart from the scanners. -/
theorem ScansAlone.mem_spawned (alone : state.ScansAlone conn scanApi) {front back : List Task}
    {before : Task} (after : Task) (spawned : state.spawned = front ++ before :: back)
    (left : (∀ work, before.left = some work →
        work.Every calls.anything (Call.Plain conn.client.api) fun _ => True) →
      ∀ work, after.left = some work →
        work.Every calls.anything (Call.Plain conn.client.api) fun _ => True) :
    ∀ task ∈ front ++ after :: back, ∀ work, task.left = some work →
      work.Every calls.anything (Call.Plain conn.client.api) fun _ => True := by
  intro task member
  rcases List.mem_append.mp member with inFront | here
  · exact alone.spawned task (by simp [spawned, inFront])
  · rcases List.mem_cons.mp here with rfl | inBack
    · exact left (alone.spawned before (by simp [spawned]))
    · exact alone.spawned task (by simp [spawned, inBack])

variable {asks : Call → Prop}

theorem ScansAlone.move (alone : state.ScansAlone setting.conn scanApi)
    (serves : state.Serves calls.anything asks Request.Expects)
    (move : Move setting ((scanHost setting.conn scanApi).answers [] state.asked) state next) :
    next.ScansAlone setting.conn scanApi := by
  cases move with
  | take idle accepted => exact alone.take idle accepted
  | mainAsks main told =>
      refine ⟨nofun, ?_, alone.spawned, alone.sent⟩
      rintro _ _ ⟨⟩
      rw [state.scanners_concat rfl]
      exact alone.main _ _ main _ told
  | @mainSends number loop update main room =>
      rcases serves.main _ _ main with ⟨last, _⟩
      rcases alone.main _ _ main with ⟨mirrors, answers⟩
      rw [last] at mirrors
      refine ⟨fun _ => mirrors, nofun, alone.spawned, ?_⟩
      intro other request update found scans member
      rcases List.mem_append.mp member with before | new
      · exact alone.sent other request update found scans before
      · cases List.mem_singleton.mp new
        exact answers request found scans
  | @taskAsks front back number aborted call rest answer spawned told =>
      have every := alone.spawned _ (spawned ▸ List.mem_append_right _ List.mem_cons_self) _ rfl
      refine alone.keep rfl rfl rfl rfl ?_ ?_ ?_
      · rw [state.scanners_concat rfl]
        exact (scanHost_plain every.1.1).2
      · apply alone.mem_spawned ⟨number, some (rest answer), aborted⟩ spawned
        rintro before _ ⟨⟩
        exact (before _ rfl).2 answer trivial
      · exact fun _ _ _ _ _ member => member
  | @taskSends front back number aborted update spawned room =>
      refine alone.keep rfl rfl rfl rfl rfl ?_ ?_
      · exact alone.mem_spawned ⟨number, none, aborted⟩ spawned fun _ _ => nofun
      · intro other request later found scans member
        rcases List.mem_append.mp member with before | new
        · exact before
        · cases List.mem_singleton.mp new
          rcases serves.spawned _ (spawned ▸ List.mem_append_right _ List.mem_cons_self) with
            ⟨_, task, accepted, apart, _⟩
          cases found.symm.trans accepted
          cases apart.symm.trans (inLoop_of_scans scans)
  | @taskVanishes front back number work spawned =>
      refine alone.keep rfl rfl rfl rfl rfl ?_ ?_
      · exact alone.mem_spawned ⟨number, none, true⟩ spawned fun _ _ => nofun
      · exact fun _ _ _ _ _ member => member

theorem ScansAlone.step (alone : state.ScansAlone setting.conn scanApi)
    (serves : state.Serves calls.anything asks Request.Expects)
    (step : Step setting ((scanHost setting.conn scanApi).answers [] state.asked) state next) :
    next.ScansAlone setting.conn scanApi := by
  cases step with
  | drains drains =>
      cases drains with
      | move move => exact alone.move serves move
      | receive waiting =>
          exact alone.keep rfl rfl rfl rfl rfl alone.spawned fun _ _ _ _ _ member => member
  | read update room =>
      refine alone.keep rfl rfl rfl rfl rfl alone.spawned ?_
      intro number request other found scans member
      exact (List.mem_append.mp member).resolve_right (by simp)
  | accept request room =>
      have same {count : Nat} (inside : count ≤ state.accepted.length) :
          aloneAfter setting.conn scanApi
            { state with accepted := state.accepted ++ [request] } count =
            state.aloneAfter setting.conn scanApi count := by
        rw [aloneAfter, List.take_append_of_le_length inside, aloneAfter]
      have early {number : Nat} (lt : number < state.taken) {other : Request}
          (found : (state.accepted ++ [request])[number]? = some other) :
          state.accepted[number]? = some other := by
        rwa [List.getElem?_append_left (lt.trans_le serves.taken_le)] at found
      refine ⟨?_, ?_, alone.spawned, ?_⟩
      · intro idle
        rw [same serves.taken_le]
        exact alone.idle idle
      · intro number work main
        rcases serves.main _ _ main with ⟨_, lt, _⟩
        rw [same (lt.trans_le serves.taken_le)]
        apply (alone.main number work main).mono
        rintro answer scanners ⟨mirrors, last⟩
        exact ⟨mirrors, fun other found => last other (early lt found)⟩
      · intro number other update found scans sent
        rcases serves.sent _ _ sent with ⟨lt, _⟩
        rw [same (lt.trans_le serves.taken_le)]
        exact alone.sent number other update (early lt found) scans sent

theorem scansAlone_start (conn : Conn) (scanApi : ScanApi) (lens : BullMqLens) :
    ScansAlone conn scanApi { loop := { bullmq := lens } } := by
  have nothing : aloneAfter conn scanApi { loop := { bullmq := lens } } 0 =
      { worker := {}, updates := [] } := rfl
  refine ⟨fun _ => ?_, nofun, nofun, ?_⟩
  · rw [nothing]
    exact ⟨rfl, nofun, rfl, rfl, rfl⟩
  · intro number request update found scans sent
    cases sent

theorem scansAlone_of_reachable
    (reachable : HostedReachable setting (scanHost setting.conn scanApi) [] lens state) :
    state.ScansAlone setting.conn scanApi := by
  induction reachable with
  | refl => exact scansAlone_start setting.conn scanApi lens
  | tail before step ih =>
      have known := HostedReachable.reachable before
      exact ih.step (serves_of_reachable (guarantees_reads setting) known) step

end Steps

/-! ## A server with one key -/

def oneString : Keyspace := fun key =>
  if key = "a".toList then some { data := .string [], ttl := none } else none

def smallSetting : Setting where
  conn := Conn.answering plainApi plainWire oneString { get := fun _ => .available }
  info := plainInfoApi
  serde := stringsOnly

/-- The one key is on the one page of each scan that takes strings. -/
def smallScan (_ : Str) (_ : Option Nat) (type : Option ScanType) : Pages :=
  [.ok (["a".toList].filter fun _ => type.all fun type => type = .string)]

def smallScans : ScanApi :=
  { scan := smallScan, scanCluster := smallScan }

/-- However the tasks interleave, before a server that answers every command the same at any
time a request that is answered with keys is answered as by a worker that does nothing but
scan. -/
theorem scans_alone
    (reachable : HostedReachable setting (scanHost setting.conn scanApi) [] lens state)
    {number : Nat} {request : Request} {update : Update}
    (accepted : state.accepted[number]? = some request) (scans : request.scans)
    (sent : (some number, update) ∈ state.sent) :
    (scanAlone (sceneOf setting.conn scanApi)
      (state.accepted.take (number + 1))).updates.getLast? = some update :=
  (scansAlone_of_reachable reachable).sent number request update accepted scans sent

/-- The one key is listed. -/
theorem scans_alone_listed :
    (scanAlone (sceneOf smallSetting.conn smallScans) [.rescan none none]).updates.getLast? =
      some (.batch [("a".toList, some .string)] true true 1) := by
  have begun : HostedReachable smallSetting (scanHost smallSetting.conn smallScans) [] plainLens
      { loop := { bullmq := plainLens } } := .refl
  have accepted := begun.tail (.accept (.rescan none none) (Nat.zero_lt_succ 31))
  have lists : (Work.rescan smallSetting.conn { bullmq := plainLens } none none).Runs
      (scanHost smallSetting.conn smallScans) [] _
      (_, .batch [("a".toList, some .string)] true true 1) :=
    .ask (0 : Nat) rfl (.ask (.ok (some ["a".toList])) rfl (.ask (.ok none) rfl
      (.ask (.ok ()) rfl (.ask [.ok (.string "string".toList)] rfl .done))))
  have sent := HostedReachable.keptByMoves.handles accepted rfl rfl rfl lists rfl
  exact scans_alone sent rfl rfl List.mem_cons_self

end Tasks

end Keylens.Backend
