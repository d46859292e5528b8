import Keylens.Library.Host
import Keylens.Backend.Answered
import Keylens.Backend.TypeFilter

/-!
# The scan among the other tasks

The scanners of the client library have a state: each page that is asked for is one page
less to come.  Before a server that otherwise answers the same at any time, the scan of a
worker with all its tasks comes to the batches of a worker that does nothing but scan.
-/

namespace Keylens.Backend

open Keylens.Library Keylens.Connection Keylens.BullMq Keylens.Ui

/-! ## Scanners -/

/-- What each scanner has still to yield, by its number. -/
abbrev Scanners := List Pages

/-- The next page, or `none` at the end. -/
def pageOf : Pages → Except ClientError (Option (List Str))
  | [] => .ok none
  | .ok page :: _ => .ok (some page)
  | .error source :: _ => .error source

/-- A server that answers every command the same at any time, and the scanners that have been
opened. -/
def scanHost (conn : Conn) (scanApi : ScanApi) : Host calls Scanners where
  may scanners
    | .openScan _ _ _, (scanner : Nat) => scanner = scanners.length
    | .nextPage scanner, answer => answer = pageOf ((scanners[scanner]?).getD [])
    | call, answer => conn.client.Tells call answer
  next scanners
    | .openScan pattern count typeFilter =>
        scanners ++ [scanApi.pages conn pattern (some count) (typeFilter.bind parseScanType)]
    | .nextPage scanner => scanners.modify scanner List.tail
    | _ => scanners

/-- Calls that have nothing to do with a scanner are answered as over any other client. -/
theorem scanHost_plain {conn : Conn} {scanApi : ScanApi} {scanners : Scanners} {call : Call}
    (plain : call.scans = false) :
    (∀ answer, (scanHost conn scanApi).may scanners call answer → conn.client.Tells call answer) ∧
      (scanHost conn scanApi).next scanners call = scanners := by
  cases call with
  | openScan | nextPage => cases plain
  | _ => exact ⟨fun _ told => told, rfl⟩

/-! ## A worker that does nothing else -/

/-- The requests that are answered with keys. -/
def Request.scans : Request → Bool
  | .rescan _ _ | .more => true
  | _ => false

/-- What a worker that only scans has answered since the last `Rescan`. -/
def ScanRun.serve (scene : Scene) (state : ScanRun) : Request → ScanRun
  | .rescan pattern kind =>
      ScanRun.record { worker := state.worker, updates := [] }
        (state.worker.rescan scene pattern kind)
  | .more => state.more scene
  | _ => state

def scanAlone (scene : Scene) (requests : List Request) : ScanRun :=
  run (ScanRun.serve scene) { worker := {}, updates := [] } requests

/-- The loop of the worker stands where a worker stands that only scans. -/
structure Loop.Mirrors (scanners : Scanners) (loop : Loop) (worker : Worker) : Prop where
  scanner : worker.scanner = loop.scanner.bind fun scanner => (scanners[scanner]?).map KeyScanner.mk
  opened : ∀ scanner, loop.scanner = some scanner → scanner < scanners.length
  pattern : worker.pattern = loop.pattern
  kind : worker.kind = loop.kind
  complete : worker.complete = loop.complete

variable {setting : Setting} {conn : Conn} {scanApi : ScanApi} {scanners : Scanners}
variable {loop : Loop} {worker : Worker}

/-- The scanner that is read next. -/
theorem Loop.Mirrors.reading (mirrors : loop.Mirrors scanners worker) {scanner : Nat}
    (open' : loop.scanner = some scanner) :
    ∃ unread, scanners[scanner]? = some unread ∧ worker.scanner = some ⟨unread⟩ ∧
      loop.Mirrors (scanners.modify scanner List.tail)
        { worker with scanner := some ⟨unread.tail⟩ } := by
  have inside := mirrors.opened scanner open'
  have there : scanners[scanner]? = some scanners[scanner] := List.getElem?_eq_getElem inside
  refine ⟨scanners[scanner], there, ?_, ?_, ?_, mirrors.pattern, mirrors.kind, mirrors.complete⟩
  · rw [mirrors.scanner, open', Option.bind_some, there, Option.map_some]
  · rw [open', Option.bind_some, List.getElem?_modify_eq, there]
    rfl
  · intro other same
    rw [List.length_modify]
    exact mirrors.opened other same

theorem Loop.Mirrors.completed (mirrors : loop.Mirrors scanners worker) :
    Mirrors scanners { loop with complete := true } { worker with complete := true } :=
  ⟨mirrors.scanner, mirrors.opened, mirrors.pattern, mirrors.kind, rfl⟩

namespace Work

/-! ## Types -/

/-- A computation that has nothing to do with a scanner, over a client that answers the same
at any time. -/
abbrev Tells {α : Type} (conn : Conn) (gives : α → Prop) (work : Work α) : Prop :=
  work.Every conn.client.Tells (Call.Plain conn.client.api) gives

theorem tells_session {α β : Type} {session : Session α} {result : Result α}
    {rest : Result α → Work β} {gives : β → Prop}
    (asks : session.Asks (Call.Plain conn.client.api)) (comes : session.ComesTo conn.client result)
    (later : (rest result).Tells conn gives) : Tells conn gives (session.run >>= rest) := by
  have told := (Prog.Every.told asks fun _ _ _ => trivial).and comes
  apply (told.mono (fun _ asked => asked.1) fun _ given => given.2).bind
  rintro _ rfl
  exact later

/-- What a computation comes to that has nothing to do with a scanner. -/
theorem Tells.ends {α : Type} {work : Work α} {gives : α → Prop} (tells : work.Tells conn gives) :
    work.Ends (scanHost conn scanApi) (fun value after => gives value ∧ after = scanners)
      scanners := by
  apply Prog.Every.ends tells (fun after => after = scanners) rfl
  intro after call answer same plain told
  have answered := @scanHost_plain conn scanApi after call plain.1
  exact ⟨answered.1 answer told, answered.2.trans same⟩

theorem tells_keyKinds (conn : Conn) (chunks : List (List Str)) :
    (keyKinds conn chunks).Tells conn fun kinds =>
      kinds = chunks.flatMap fun chunk =>
        match conn.pipeline (typeCmds chunk) with
        | .ok replies => replies
        | .error _ =>
            List.replicate chunk.length (.error (.reply .type "typing batch failed".toList)) := by
  induction chunks with
  | nil => rfl
  | cons chunk later ih =>
      rw [List.flatMap_cons]
      let gives (kinds : List (Result Value)) : Prop :=
        kinds = match conn.pipeline (typeCmds chunk) with
          | .ok replies => replies
          | .error _ =>
              List.replicate chunk.length (.error (.reply .type "typing batch failed".toList))
      have comes := Session.pipeline_comesTo conn (typeCmds chunk)
      apply @Prog.Every.bind _ _ _ _ _ gives
      · apply tells_session (Session.asks_pipeline conn _) comes
        dsimp only [gives]
        cases conn.pipeline (typeCmds chunk) <;> rfl
      · rintro kinds rfl
        apply ih.bind
        rintro others rfl
        rfl

theorem tells_typeKeys (same : worker.kind = loop.kind) (conn : Conn) (keys : List Str) :
    (typeKeys loop conn keys).Tells conn fun typed => typed = worker.typeKeys conn keys := by
  rw [typeKeys, Worker.typeKeys, same]
  cases loop.kind.filter fun _ => conn.capabilities.has .scanTypeFilter with
  | some kind => rfl
  | none =>
      cases keys with
      | nil => rfl
      | cons key keys =>
          apply (tells_keyKinds conn _).bind
          rintro kinds rfl
          rfl

/-! ## Scanning -/

theorem ends_nextPage {α : Type} {scanner : Nat} {rest : Result (Option (List Str)) → Work α}
    {goal : α → Scanners → Prop}
    (later : (rest ((pageOf ((scanners[scanner]?).getD [])).mapError (.command .scan))).Ends
      (scanHost conn scanApi) goal (scanners.modify scanner List.tail)) :
    Prog.Ends (I := calls) (scanHost conn scanApi) goal
      ((Session.nextPage scanner).run >>= rest) scanners := by
  rintro _ rfl
  exact later

/-- The loop of the worker with all its tasks gathers what the one alone gathers. -/
theorem ends_gather (mirrors : loop.Mirrors scanners worker) (left : Nat) (keys : List Str)
    (pages : Nat) :
    (gather loop left keys pages).Ends (scanHost conn scanApi)
      (fun gathered after => gathered.1 = (worker.gather left keys pages).1 ∧
        gathered.2.Mirrors after (worker.gather left keys pages).2) scanners := by
  induction left generalizing keys pages scanners worker loop with
  | zero => exact ⟨rfl, mirrors⟩
  | succ left ih =>
      rcases loop with ⟨scanner, pattern, kind, complete, bullmq⟩
      rcases worker with ⟨reads, _, _, _⟩
      cases mirrors.pattern
      cases mirrors.kind
      cases mirrors.complete
      rw [gather, Worker.gather]
      split
      next going =>
          cases scanner with
          | none =>
              cases mirrors.scanner
              exact ⟨rfl, mirrors.completed⟩
          | some scanner =>
              rcases mirrors.reading rfl with ⟨unread, there, same, next⟩
              cases same
              apply ends_nextPage
              rw [there, Option.getD_some]
              rcases unread with _ | ⟨failure | page, unread⟩
              · exact ⟨rfl, next.completed⟩
              · exact ⟨rfl, next⟩
              · exact ih next _ _
      next stopped => exact ⟨rfl, mirrors⟩

theorem ends_scanBatch (mirrors : loop.Mirrors scanners worker) (reset : Bool) :
    (scanBatch conn loop reset).Ends (scanHost conn scanApi)
      (fun answer after => answer.2 = (worker.scanBatch conn reset).2 ∧
        answer.1.Mirrors after (worker.scanBatch conn reset).1) scanners := by
  rw [Worker.scanBatch]
  apply (ends_gather mirrors maxPagesPerBatch [] 0).bind
  rintro ⟨result, loop⟩ after ⟨same, next⟩
  dsimp only at same next
  generalize worker.gather maxPagesPerBatch [] 0 = gathered at same next
  rcases gathered with ⟨found, worker⟩
  cases same
  cases found with
  | error failure => exact ⟨rfl, next⟩
  | ok gathered =>
      apply (tells_typeKeys next.kind conn gathered.1).ends.bind
      rintro typed _ ⟨rfl, rfl⟩
      exact ⟨congrArg (fun complete => Update.batch _ reset complete _) next.complete.symm, next⟩

theorem ends_rescan (scanners : Scanners) (loop : Loop) (worker : Worker) (pattern : Option Str)
    (kind : Option Kind) :
    (rescan conn loop pattern kind).Ends (scanHost conn scanApi)
      (fun answer after =>
        answer.2 = (worker.rescan (sceneOf conn scanApi) pattern kind).2 ∧
          answer.1.Mirrors after (worker.rescan (sceneOf conn scanApi) pattern kind).1)
      scanners := by
  rintro _ rfl
  apply ends_scanBatch
  refine ⟨?_, ?_, rfl, rfl, rfl⟩
  · have last : (scanners ++ [scanApi.pages conn (pattern.getD "*".toList) (some scanCount)
        ((serverTypeFilter { loop with pattern, kind, complete := false } conn).bind
          parseScanType)])[scanners.length]? = some _ := List.getElem?_concat_length
    exact (congrArg (Option.map KeyScanner.mk) last).symm
  · rintro _ ⟨⟩
    change scanners.length < (scanners ++ [_]).length
    simp

/-! ## Everything else -/

/-- A scanner that is opened is not the one that is kept. -/
def opensApart (kept : Option Nat) : calls.Answers
  | .openScan _ _ _, (scanner : Nat) => kept ≠ some scanner
  | _, _ => True

/-- The scanner that is kept is not read. -/
def leaves (kept : Option Nat) : Call → Prop
  | .nextPage scanner => kept ≠ some scanner
  | _ => True

/-- A computation that leaves a scanner alone. -/
abbrev Leaves {α : Type} (kept : Option Nat) (gives : α → Prop) (work : Work α) : Prop :=
  work.Every (opensApart kept) (leaves kept) gives

section Leaves

variable {α β : Type} {kept : Option Nat} {session : Session α} {rest : Result α → Work β}
variable {gives : β → Prop}

theorem leaves_of_plain {api : ValueApi} {call : Call} (plain : call.Plain api) :
    leaves kept call := by
  cases call with
  | nextPage => cases plain.1
  | _ => trivial

theorem leaves_plain {api : ValueApi} (asks : session.Asks (Call.Plain api)) :
    session.run.Every (opensApart kept) (leaves kept) fun _ => True :=
  (Prog.Every.told asks fun _ _ _ => trivial).mono (fun _ => leaves_of_plain) fun _ _ => trivial

theorem leaves_session {api : ValueApi} (asks : session.Asks (Call.Plain api))
    (later : ∀ result, (rest result).Leaves kept gives) :
    Leaves kept gives (session.run >>= rest) :=
  (leaves_plain asks).bind fun result _ => later result

theorem leaves_pane {α : Type} {session : Session α} {api : ValueApi}
    (availability : Availability) (asks : session.Asks (Call.Plain api)) :
    (pane availability session).Leaves kept fun _ => True := by
  rw [pane]
  split
  next => exact trivial
  next => exact leaves_session asks fun _ => trivial

theorem leaves_clusterPane (conn : Conn) : (clusterPane conn).Leaves kept fun _ => True := by
  rw [clusterPane]
  split
  next =>
      split
      next => exact trivial
      next => exact leaves_pane _ (Session.asks_clusterTopology conn)
  next => exact leaves_pane _ (Session.asks_clusterTopology conn)

theorem leaves_job (setting : Setting) (loop : Loop) (queue id : Str) :
    (job setting loop queue id).Leaves kept fun _ => True := by
  apply leaves_session (BullMq.Session.asks_job ..)
  rintro (failure | found | found)
  · exact trivial
  · exact trivial
  · exact leaves_session (BullMq.Session.asks_jobLogs ..) fun _ => trivial

/-- A scan for queues reads a scanner of its own. -/
theorem leaves_scanMetaKeys (lens : BullMqLens) (conn : Conn) :
    (BullMq.Session.scanMetaKeys lens conn).run.Every (opensApart kept) (leaves kept)
      fun _ => True := by
  have collects (scanner left : Nat) (names : List Str) (apart : kept ≠ some scanner) :
      (BullMq.Session.collectNames lens scanner left names).run.Every (opensApart kept)
        (leaves kept) fun _ => True := by
    induction left generalizing names with
    | zero => exact trivial
    | succ left ih =>
        refine ⟨apart, ?_⟩
        rintro (failure | _ | keys) _
        · exact trivial
        · exact trivial
        · change Prog.Every _ _ _ (ExceptT.run (if _ then _ else _))
          split
          next => exact trivial
          next => exact ih _
  refine ⟨trivial, ?_⟩
  intro scanner apart
  apply Prog.Every.failing (collects scanner maxDetectPages [] apart)
  · exact fun _ _ => trivial
  · exact fun _ _ => trivial

theorem leaves_detect (lens : BullMqLens) (conn : Conn) :
    (BullMq.Session.detect lens conn).run.Every (opensApart kept) (leaves kept)
      fun _ => True := by
  apply Prog.Every.failing (leaves_scanMetaKeys lens conn)
  · intro names _
    split
    next => exact trivial
    next =>
        exact leaves_plain ((BullMq.Session.asks_sampleMeta ..).bind fun _ => Session.asks_pure _)
  · exact fun _ _ => trivial

theorem leaves_allQueues (lens : BullMqLens) (conn : Conn) :
    (BullMq.Session.allQueues lens conn).run.Every (opensApart kept) (leaves kept)
      fun _ => True := by
  apply Prog.Every.failing (leaves_scanMetaKeys lens conn)
  · exact fun names _ => leaves_plain (BullMq.Session.asks_summaries ..)
  · exact fun _ _ => trivial

theorem leaves_handle {request : Request} {work : Work (Loop × Update)}
    (handled : handle setting loop request = some work) (other : ¬request.scans) :
    work.Leaves kept fun answer => { answer.1 with bullmq := loop.bullmq } = loop := by
  cases request with
  | select | refreshInfo => cases handled
  | rescan | more => exact absurd rfl other
  | loadSlowlog =>
      cases handled
      exact (leaves_pane _ (Session.asks_slowlog _ _)).bind fun _ _ => rfl
  | loadClients =>
      cases handled
      exact (leaves_pane _ (Session.asks_clientList _)).bind fun _ _ => rfl
  | loadCluster =>
      cases handled
      exact (leaves_clusterPane _).bind fun _ _ => rfl
  | loadPubSub =>
      cases handled
      exact (leaves_pane _ (Session.asks_pubsubChannels _ _)).bind fun _ _ => rfl
  | detect =>
      cases handled
      apply (leaves_detect loop.bullmq setting.conn).bind
      rintro (failure | _ | found) _ <;> rfl
  | loadQueues =>
      cases handled
      exact (leaves_allQueues loop.bullmq setting.conn).bind fun _ _ => rfl
  | loadJobs queue jobState =>
      cases handled
      exact leaves_session (BullMq.Session.asks_jobs ..) fun _ => rfl
  | loadJob queue id =>
      cases handled
      exact (leaves_job setting loop queue id).bind fun _ _ => rfl

end Leaves

/-- What does not read the scanner of the loop leaves the loop where it stands. -/
theorem Leaves.ends {α : Type} {work : Work α} {gives : α → Prop}
    (left : work.Leaves loop.scanner gives) (mirrors : loop.Mirrors scanners worker) :
    work.Ends (scanHost conn scanApi)
      (fun value after => gives value ∧ loop.Mirrors after worker) scanners := by
  apply Prog.Every.ends left (fun after => loop.Mirrors after worker) mirrors
  intro after call answer mirrors leaves told
  cases call with
  | custom | together | buffer | tryAll => exact ⟨trivial, mirrors⟩
  | openScan pattern count typeFilter =>
      cases told
      have apart : loop.scanner ≠ some after.length := fun same =>
        (mirrors.opened _ same).false
      refine ⟨apart, ?_, ?_, mirrors.pattern, mirrors.kind, mirrors.complete⟩
      · rw [mirrors.scanner]
        cases open' : loop.scanner with
        | none => rfl
        | some scanner =>
            have inside := mirrors.opened scanner open'
            exact congrArg (Option.map KeyScanner.mk) (List.getElem?_append_left inside).symm
      · intro scanner open'
        exact (mirrors.opened scanner open').trans_le (List.prefix_append _ _).length_le
  | nextPage scanner =>
      refine ⟨trivial, ?_, ?_, mirrors.pattern, mirrors.kind, mirrors.complete⟩
      · rw [mirrors.scanner]
        cases open' : loop.scanner with
        | none => rfl
        | some kept =>
            have other : scanner ≠ kept := by
              rintro rfl
              exact leaves open'
            have same : (after.modify scanner List.tail)[kept]? = after[kept]? :=
              List.getElem?_modify_ne _ _ other
            exact congrArg (Option.map KeyScanner.mk) same.symm
      · intro kept open'
        exact (mirrors.opened kept open').trans_eq (List.length_modify ..).symm

/-- Whatever the main loop is at, it comes to what the worker alone comes to. -/
theorem ends_handle (mirrors : loop.Mirrors scanners worker) {updates : List Update}
    {request : Request} {work : Work (Loop × Update)}
    (handled : handle setting loop request = some work) :
    let alone := ScanRun.serve (sceneOf setting.conn scanApi) { worker, updates } request
    work.Ends (scanHost setting.conn scanApi)
      (fun answer after => answer.1.Mirrors after alone.worker ∧
        (request.scans → alone.updates.getLast? = some answer.2)) scanners := by
  intro alone
  by_cases scans : request.scans
  · cases request with
    | rescan pattern kind =>
        cases handled
        apply (ends_rescan scanners loop worker pattern kind).mono
        rintro ⟨loop, update⟩ after ⟨rfl, next⟩
        exact ⟨next, fun _ => List.getLast?_concat⟩
    | more =>
        cases handled
        apply (ends_scanBatch mirrors false).mono
        rintro ⟨loop, update⟩ after ⟨rfl, next⟩
        exact ⟨next, fun _ => List.getLast?_concat⟩
    | _ => cases scans
  · have same : alone.worker = worker := by
      cases request <;> first | rfl | exact absurd rfl scans
    have left : work.Leaves loop.scanner _ := leaves_handle handled scans
    apply (left.ends mirrors).mono
    rintro ⟨after, update⟩ scanners ⟨kept, next⟩
    rw [same]
    refine ⟨?_, fun isScan => absurd isScan scans⟩
    rw [← kept] at next
    exact ⟨next.scanner, next.opened, next.pattern, next.kind, next.complete⟩

end Work

end Keylens.Backend
