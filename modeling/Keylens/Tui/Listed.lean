import Keylens.Tui.Filter
import Keylens.Tui.Hosted
import Keylens.Tui.RowBound
import Keylens.Tui.Told
import Keylens.Backend.Listed

/-!
# What the key list shows

Before a server that answers every command the same at any time and lists its keys without
errors, the key list shows a front of what the filter asks for that was answered last, and
all of it once the scan is said to be complete.
-/

namespace Keylens.Tui

open Keylens.Library Keylens.Connection Keylens.BullMq Keylens.Ui Keylens.Backend

/-! ## A scan with one filter after another -/

section Alone

variable {conn : Conn} {scanApi : ScanApi} {typeOf : Str → Str}
variable {pages : Option Str → List (List Str)} {requests : List Request}

theorem scanAlone_concat (scene : Scene) (requests : List Request) (request : Request) :
    scanAlone scene (requests ++ [request]) = (scanAlone scene requests).serve scene request :=
  run_append _ _

/-- The tasks for keys and stats have nothing to do with the scan. -/
theorem scanAlone_filter_inLoop (scene : Scene) (requests : List Request) :
    scanAlone scene (requests.filter Request.inLoop) = scanAlone scene requests := by
  induction requests using List.reverseRecOn with
  | nil => rfl
  | append_singleton requests request ih =>
      rw [List.filter_append, scanAlone_concat, ← ih]
      cases inLoop : request.inLoop with
      | true =>
          rw [List.filter_singleton, inLoop]
          exact scanAlone_concat scene _ request
      | false =>
          rw [List.filter_singleton, inLoop]
          cases request <;> first | exact congrArg _ (List.append_nil _) | cases inLoop

/-- Once a `Rescan` has been asked for, the scan lists what its filter asks for. -/
theorem listsFront_scanAlone (keyspace : ListsKeys conn scanApi typeOf pages)
    (rescans : ∃ pattern kind, .rescan pattern kind ∈ requests)
    (settable : ∀ pattern kind, .rescan pattern kind ∈ requests → kind ∈ kindCycle) :
    (scanAlone (sceneOf conn scanApi) requests).ListsFront conn typeOf pages
      (filterAfter (none, none) requests).1 (filterAfter (none, none) requests).2 := by
  induction requests using List.reverseRecOn with
  | nil =>
      rcases rescans with ⟨_, _, member⟩
      cases member
  | append_singleton requests request ih =>
      rw [scanAlone_concat, filterAfter_append]
      cases request with
      | rescan pattern kind =>
          have inCycle := settable pattern kind (List.mem_append_right _ List.mem_cons_self)
          have opened := listsFront_openScan keyspace inCycle
            (scanAlone (sceneOf conn scanApi) requests).worker pattern
          exact (opened.batch keyspace true).2
      | more =>
          rcases rescans with ⟨pattern, kind, member⟩
          have before := (List.mem_append.mp member).resolve_right (by simp)
          have lists := ih ⟨pattern, kind, before⟩ fun pattern kind member =>
            settable pattern kind (List.mem_append_left _ member)
          exact (lists.batch keyspace false).2
      | _ =>
          rcases rescans with ⟨pattern, kind, member⟩
          have before := (List.mem_append.mp member).resolve_right (by simp)
          exact ih ⟨pattern, kind, before⟩ fun pattern kind member =>
            settable pattern kind (List.mem_append_left _ member)

/-- What answers a request for keys is a batch. -/
theorem exists_batch (keyspace : ListsKeys conn scanApi typeOf pages) {request : Request}
    (scans : request.scans)
    (rescans : request = .more → ∃ pattern kind, .rescan pattern kind ∈ requests)
    (settable : ∀ pattern kind, .rescan pattern kind ∈ requests ++ [request] → kind ∈ kindCycle) :
    ∃ keys reset complete pageCount,
      (scanAlone (sceneOf conn scanApi) (requests ++ [request])).updates =
        (if reset then [] else (scanAlone (sceneOf conn scanApi) requests).updates) ++
          [.batch keys reset complete pageCount] := by
  rw [scanAlone_concat]
  cases request with
  | rescan pattern kind =>
      have inCycle := settable pattern kind (List.mem_append_right _ List.mem_cons_self)
      have opened := listsFront_openScan keyspace inCycle
        (scanAlone (sceneOf conn scanApi) requests).worker pattern
      rcases (opened.batch keyspace true).1 with ⟨keys, complete, pageCount, answered⟩
      exact ⟨keys, true, complete, pageCount, congrArg (fun update => [] ++ [update]) answered⟩
  | more =>
      have lists := listsFront_scanAlone keyspace (rescans rfl) fun pattern kind member =>
        settable pattern kind (List.mem_append_left _ member)
      rcases (lists.batch keyspace false).1 with ⟨keys, complete, pageCount, answered⟩
      exact ⟨keys, false, complete, pageCount, congrArg (fun update => _ ++ [update]) answered⟩
  | _ => cases scans

end Alone

/-! ## The tree -/

namespace App

variable {app : App} {tree : KeyTree} {entries : List (Str × Option Kind)}

theorem holds_insertAll (holds : tree.Holds entries) (keys : List (Str × Option Kind)) :
    (keys.foldl (fun tree (key, kind) => tree.insertWithKind key kind) tree).Holds
      (entries ++ keys) := by
  induction keys generalizing tree entries with
  | nil => simpa using holds
  | cons entry keys ih => simpa using ih (holds.insertWithKind entry.1 entry.2)

/-- Key presses open and fold branches. -/
theorem holds_handleKey (holds : app.tree.Holds entries) (key : KeyEvent) :
    (app.handleKey key).tree.Holds entries := by
  change (app.handleKey key).core.tree.Holds entries
  rw [app.core_handleKey key]
  rcases @Intent.tree_run (app.intent key) app.core with same | retrees
  · rw [same]
    exact holds
  · rcases app.tree_of_retree key retrees with expanded | collapsed | ⟨path, toggled⟩
    · rw [expanded]
      exact holds.of_root_eq rfl rfl
    · rw [collapsed]
      exact holds.of_root_eq rfl rfl
    · rw [toggled]
      have same := KeyTree.toggle_root app.tree path
      exact holds.of_root_eq same.1 same.2

/-- A batch is inserted into the tree, or into an empty one. -/
theorem holds_apply_batch (holds : app.tree.Holds entries) (keys : List (Str × Option Kind))
    (reset complete : Bool) (pageCount : Nat) :
    (app.apply (.batch keys reset complete pageCount)).tree.Holds
      ((if reset then [] else entries) ++ keys) := by
  cases reset with
  | true =>
      have cleared : app.tree.clearKeys.Holds [] := .empty rfl rfl
      exact holds_insertAll cleared keys
  | false => exact holds_insertAll holds keys

end App

/-- Only a batch says whether the scan is complete. -/
theorem App.scanComplete_apply (app : App) {update : Update}
    (notBatch : ∀ keys reset complete pages, update ≠ .batch keys reset complete pages) :
    (app.apply update).scanComplete = app.scanComplete := by
  cases update with
  | batch keys reset complete pages => exact absurd rfl (notBatch keys reset complete pages)
  | detail keyMeta value stream =>
      rw [App.apply, App.applyDetail]
      split <;> rfl
  | jobs jobState data =>
      rw [App.apply, App.applyJobs]
      split <;> rfl
  | _ => rfl

/-! ## The filters that are asked for -/

/-- The kinds that a scan is asked for are those that the user can choose. -/
def Browse.AsksSettable (state : Browse) : Prop :=
  state.app.kindFilter ∈ kindCycle ∧
    ∀ pattern kind, .rescan pattern kind ∈ state.tasks.accepted → kind ∈ kindCycle

/-- A rescan that is meant has a kind that the user can choose. -/
def Intent.settable : Intent → Prop
  | .rescan _ kind => kind ∈ kindCycle
  | _ => True

theorem Intent.settable_of_not_isScan {intent : Intent} (other : intent.isScan = false) :
    intent.settable := by
  cases intent <;> trivial

theorem Intent.eq_of_mem_scanRequest {intent : Intent} {pattern : Option Str} {kind : Option Kind}
    (member : .rescan pattern kind ∈ intent.scanRequest) : intent = .rescan pattern kind := by
  cases intent with
  | rescan =>
      cases List.mem_singleton.mp member
      rfl
  | more => cases List.mem_singleton.mp member
  | _ => cases member

namespace App

variable (app : App) (key : KeyEvent)

theorem nextKind_mem (kind : Option Kind) : nextKind kind ∈ kindCycle := by
  rw [nextKind]
  cases found : kindCycle[((kindCycle.idxOf? kind).getD 0 + 1) % kindCycle.length]? with
  | none => exact List.mem_cons_self
  | some next => exact List.mem_of_getElem? found

theorem settable_loadIntent (settable : app.kindFilter ∈ kindCycle) (force : Bool) :
    (app.loadIntent force).settable := by
  rw [loadIntent]
  cases app.view with
  | keys =>
      dsimp only
      split
      next => exact settable
      next => trivial
  | queues => cases app.level <;> dsimp only <;> first | trivial | (split <;> trivial)
  | stats => trivial
  | slowlog | clients | cluster | pubSub =>
      dsimp only
      split <;> trivial

theorem settable_intent (settable : app.kindFilter ∈ kindCycle) : (app.intent key).settable := by
  apply app.intent_cases key
  · trivial
  · intro _
    rw [searchIntent]
    split
    next => exact settable
    next => trivial
  · exact fun _ => app.settable_loadIntent settable true
  · intro _ view
    rw [gotoIntent]
    split
    next => trivial
    next => exact settable_loadIntent { app with view } settable false
  · intro _
    rw [viewIntent]
    split
    next =>
        rw [keysViewIntent]
        split
        case h_3 =>
            split
            next => exact settable
            next => trivial
        case h_4 => exact nextKind_mem _
        case h_5 | h_6 => split <;> trivial
        case h_8 =>
            apply Intent.settable_of_not_isScan
            rw [focusIntent]
            split
            next => rfl
            next => exact app.isScan_treeIntent key
        all_goals trivial
    next =>
        apply Intent.settable_of_not_isScan
        exact Intent.not_isScan_of_inQueues (app.inQueues_queuesIntent key)
    next => trivial

end App

namespace Browse

variable {setting : Setting} {rtt : Nat} {state next : Browse} {event : BrowseEvent}

theorem AsksSettable.act (settable : state.AsksSettable) {action : App → App}
    (filter : ∀ app : App, app.kindFilter ∈ kindCycle → (action app).kindFilter ∈ kindCycle)
    (asked : ∀ pattern kind, .rescan pattern kind ∈
      (state.app.act state.channel action).2.filter isScanRequest → kind ∈ kindCycle) :
    (state.act action).AsksSettable := by
  refine ⟨filter { state.app with tx := { channel := state.channel } } settable.1, ?_⟩
  intro pattern kind member
  rcases List.mem_append.mp member with before | new
  · exact settable.2 pattern kind before
  · exact asked pattern kind (List.mem_filter.mpr ⟨new, rfl⟩)

theorem AsksSettable.of_same (settable : state.AsksSettable) (app : next.app = state.app)
    (accepted : next.tasks.accepted = state.tasks.accepted) : next.AsksSettable := by
  rw [AsksSettable, app, accepted]
  exact settable

theorem AsksSettable.step (settable : state.AsksSettable)
    (step : Step setting calls.anything rtt state event next) : next.AsksSettable := by
  cases step with
  | key runs event =>
      apply AsksSettable.of_same _ (app_rearm rtt) (congrArg Tasks.accepted (tasks_rearm rtt))
      apply settable.act
      · intro app inCycle
        have filter := congrArg Prod.snd (app.filter_handleKey event)
        have meant := app.settable_intent event inCycle
        change (app.handleKey event).kindFilter = _ at filter
        rw [filter]
        generalize app.intent event = intent at meant ⊢
        cases intent <;> first | exact meant | exact inCycle
      · intro pattern kind member
        rw [App.scanRequests_handleKey] at member
        have meant := state.app.settable_intent event settable.1
        split at member
        next =>
            rw [Intent.eq_of_mem_scanRequest member] at meant
            exact meant
        next => cases member
  | fetch runs armed due =>
      apply AsksSettable.of_same _ (app_rearm rtt) (congrArg Tasks.accepted (tasks_rearm rtt))
      have disarmed : AsksSettable { state with fetchAt := none } := settable
      apply disarmed.act
      · intro app inCycle
        have view : app.flushSelection.kindFilter = app.kindFilter :=
          congrArg (fun view => view.2.1) app.scanView_flushSelection
        rwa [view]
      · intro pattern kind member
        rw [App.scanRequests_flushSelection] at member
        cases member
  | @receive runs source update rest waiting =>
      have filter : (state.app.apply update).kindFilter = state.app.kindFilter :=
        congrArg Prod.snd (Filtering.filter_apply state.app update)
      rw [AsksSettable, app_receive, tasks_receive, filter]
      exact settable
  | tick runs due =>
      refine ⟨settable.1, ?_⟩
      intro pattern kind member
      rcases List.mem_append.mp member with before | new
      · exact settable.2 pattern kind before
      · split at new
        next => cases List.mem_singleton.mp new
        next => cases new
  | wait time => exact settable
  | work move =>
      exact settable.of_same rfl (Tasks.accepted_of_drains (.move move))
  | read attached room events => exact settable

/-! ## What is shown -/

/-- What a worker that does nothing but scan has answered to the requests whose answers the
app has taken. -/
def scanned (conn : Conn) (scanApi : ScanApi) (state : Browse) : ScanRun :=
  scanAlone (sceneOf conn scanApi) state.tasks.handledRequests

/-- The tree holds the keys of those answers, and the scan is said to be complete only if the
last one says so. -/
structure ShowsScan (conn : Conn) (scanApi : ScanApi) (state : Browse) : Prop where
  begun : (state.scanned conn scanApi).updates ≠ [] →
    ∃ pattern kind, .rescan pattern kind ∈ state.tasks.handledRequests
  holds : state.app.tree.Holds (deliveredPairs (state.scanned conn scanApi).updates)
  complete : state.app.scanComplete → EndsComplete (state.scanned conn scanApi).updates

theorem ShowsScan.of_same {conn : Conn} {scanApi : ScanApi} (shown : state.ShowsScan conn scanApi)
    (holds : ∀ entries, state.app.tree.Holds entries → next.app.tree.Holds entries)
    (complete : next.app.scanComplete → state.app.scanComplete)
    (handled : next.tasks.handledRequests = state.tasks.handledRequests) :
    next.ShowsScan conn scanApi := by
  have same : next.scanned conn scanApi = state.scanned conn scanApi := by
    rw [scanned, handled, scanned]
  constructor
  · rw [same, handled]
    exact shown.begun
  · rw [same]
    exact holds _ shown.holds
  · rw [same]
    exact fun isComplete => shown.complete (complete isComplete)

/-- Only batches answer requests for keys. -/
theorem not_batch_of_expects {request : Request} {update : Update} (fits : request.Expects update)
    (other : ¬request.scans) (keys : List (Str × Option Kind)) (reset complete : Bool)
    (pageCount : Nat) : update ≠ .batch keys reset complete pageCount := by
  rintro rfl
  cases request <;> first | exact other rfl | cases fits

theorem not_batch_of_isAside {update : Update} (aside : isAside update)
    (keys : List (Str × Option Kind)) (reset complete : Bool) (pageCount : Nat) :
    update ≠ .batch keys reset complete pageCount := by
  rintro rfl
  cases aside

section Receive

variable {conn : Conn} {scanApi : ScanApi} {typeOf : Str → Str}
variable {pages : Option Str → List (List Str)} {source : Option Nat} {update : Update}
variable {rest : List (Option Nat × Update)}

/-- No more than a batch changes what is shown. -/
theorem ShowsScan.receive_of_not_batch (shown : state.ShowsScan conn scanApi)
    (notBatch : ∀ keys reset complete pages, update ≠ .batch keys reset complete pages)
    (same : (state.receive update).scanned conn scanApi = state.scanned conn scanApi)
    (grown : state.tasks.handledRequests ⊆ (state.receive update).tasks.handledRequests) :
    (state.receive update).ShowsScan conn scanApi := by
  constructor
  · rw [same]
    intro answered
    rcases shown.begun answered with ⟨pattern, kind, member⟩
    exact ⟨pattern, kind, grown member⟩
  · rw [same, app_receive, (state.app.keepsKeys_apply notBatch).tree]
    exact shown.holds
  · rw [same, app_receive, state.app.scanComplete_apply notBatch]
    exact shown.complete

/-- More is asked for after the first `Rescan`. -/
theorem mem_of_more {accepted handled : List Request} {number : Nat}
    (begins : [.detect, .rescan none none] <+: accepted) (found : accepted[number]? = some .more)
    (before : (accepted.take number).filter Request.inLoop = handled) :
    .rescan none none ∈ handled := by
  rcases begins with ⟨later, rfl⟩
  rcases number with _ | _ | number
  · cases found
  · cases found
  · rw [← before]
    exact List.mem_cons_of_mem _ List.mem_cons_self

/-- The loop takes the requests of its own in order. -/
theorem filter_inLoop_take_succ {accepted handled : List Request} {number : Nat}
    {request : Request} (found : accepted[number]? = some request) (scans : request.scans)
    (before : (accepted.take number).filter Request.inLoop = handled) :
    (accepted.take (number + 1)).filter Request.inLoop = handled ++ [request] := by
  have upTo : accepted.take (number + 1) = accepted.take number ++ [request] := by
    rw [List.take_add_one, found]
    rfl
  rw [upTo, List.filter_append, before, List.filter_singleton,
    show request.inLoop = true from Tasks.inLoop_of_scans scans]
  rfl

theorem ShowsScan.receive_batch (shown : state.ShowsScan conn scanApi) {request : Request}
    {keys : List (Str × Option Kind)} {reset complete : Bool} {pageCount : Nat}
    (handled : (state.receive (.batch keys reset complete pageCount)).tasks.handledRequests =
      state.tasks.handledRequests ++ [request])
    (updates : (scanAlone (sceneOf conn scanApi)
        (state.tasks.handledRequests ++ [request])).updates =
      (if reset then [] else (state.scanned conn scanApi).updates) ++
        [.batch keys reset complete pageCount])
    (rescans : ∃ pattern kind, .rescan pattern kind ∈ state.tasks.handledRequests ++ [request]) :
    (state.receive (.batch keys reset complete pageCount)).ShowsScan conn scanApi := by
  have after : ((state.receive (.batch keys reset complete pageCount)).scanned conn
      scanApi).updates = (if reset then [] else (state.scanned conn scanApi).updates) ++
        [.batch keys reset complete pageCount] := by
    rw [scanned, handled, updates]
  constructor
  · intro _
    rw [handled]
    exact rescans
  · rw [after, app_receive, deliveredPairs_concat]
    have holds := App.holds_apply_batch shown.holds keys reset complete pageCount
    cases reset with
    | true => simpa [deliveredPairs] using holds
    | false => simpa [deliveredPairs] using holds
  · rw [after, endsComplete_concat, app_receive]
    intro isComplete
    have ended : complete = true := isComplete
    exact ⟨keys, reset, pageCount, by rw [ended]⟩

theorem ShowsScan.receive (shown : state.ShowsScan setting.conn scanApi)
    (keyspace : ListsKeys setting.conn scanApi typeOf pages) (known : state.Known setting)
    (alone : state.tasks.ScansAlone setting.conn scanApi) (settable : state.AsksSettable)
    (begins : [.detect, .rescan none none] <+: state.tasks.accepted)
    (waiting : state.tasks.updates = (source, update) :: rest) :
    (state.receive update).ShowsScan setting.conn scanApi := by
  have sent := Tasks.mem_sent_of_waiting waiting
  rcases Tasks.handledRequests_receive known.delivers known.serves waiting with
    ⟨number, request, rfl, accepted, fits, before, now⟩ | ⟨same, apart⟩
  · have handled : (state.receive update).tasks.handledRequests =
        state.tasks.handledRequests ++ [request] := by
      rw [tasks_receive, now]
    by_cases scans : request.scans
    · have answered := alone.sent number request update accepted scans sent
      have inLoop := filter_inLoop_take_succ accepted scans before
      rw [Tasks.aloneAfter, ← scanAlone_filter_inLoop, inLoop] at answered
      have rescans : request = .more →
          ∃ pattern kind, .rescan pattern kind ∈ state.tasks.handledRequests := by
        rintro rfl
        exact ⟨none, none, mem_of_more begins accepted before⟩
      have chosen : ∀ pattern kind, .rescan pattern kind ∈
          state.tasks.handledRequests ++ [request] → kind ∈ kindCycle := by
        intro pattern kind member
        rw [← inLoop] at member
        exact settable.2 pattern kind (List.mem_of_mem_take (List.mem_filter.mp member).1)
      rcases exists_batch keyspace scans rescans chosen with
        ⟨keys, reset, complete, pageCount, updates⟩
      rw [updates, List.getLast?_concat, Option.some_inj] at answered
      cases answered
      apply shown.receive_batch handled updates
      cases request with
      | rescan pattern kind => exact ⟨pattern, kind, by simp⟩
      | more =>
          rcases rescans rfl with ⟨pattern, kind, member⟩
          exact ⟨pattern, kind, List.mem_append_left _ member⟩
      | _ => cases scans
    · apply shown.receive_of_not_batch (not_batch_of_expects fits scans)
      · rw [scanned, handled, scanAlone_concat]
        cases request <;> first | rfl | exact absurd rfl scans
      · rw [handled]
        exact List.subset_append_left _ _
  · have handled : (state.receive update).tasks.handledRequests = state.tasks.handledRequests := by
      rw [tasks_receive, same]
    have scanned : (state.receive update).scanned setting.conn scanApi =
        state.scanned setting.conn scanApi := by
      rw [scanned, handled, scanned]
    refine shown.receive_of_not_batch (not_batch_of_isAside ?_) scanned (handled ▸ fun _ => id)
    cases source with
    | none => exact isAside_of_events (known.events _ sent)
    | some number =>
        rcases apart number rfl with ⟨request, _, notLoop, fits⟩
        exact isAside_of_expects notLoop fits

end Receive

/-! ## Every run -/

theorem prefix_accepted (step : Step setting calls.anything rtt state event next) :
    state.tasks.accepted <+: next.tasks.accepted := by
  rcases (Relation.reflGen_iff _ _ _).mp step.tasks with same | moved
  · rw [same]
  · exact Tasks.prefix_accepted moved

theorem ShowsScan.step {scanApi : ScanApi} {typeOf : Str → Str}
    {pages : Option Str → List (List Str)} (shown : state.ShowsScan setting.conn scanApi)
    (keyspace : ListsKeys setting.conn scanApi typeOf pages) (known : state.Known setting)
    (alone : state.tasks.ScansAlone setting.conn scanApi) (settable : state.AsksSettable)
    (begins : [.detect, .rescan none none] <+: state.tasks.accepted)
    (step : Step setting calls.anything rtt state event next) :
    next.ShowsScan setting.conn scanApi := by
  have grows := prefix_accepted step
  cases step with
  | key runs event =>
      let before : App := { state.app with tx := { channel := state.channel } }
      have pressed : (state.press rtt event).app = before.handleKey event := app_rearm rtt
      apply shown.of_same
      · rw [pressed]
        exact fun entries holds => @App.holds_handleKey before entries holds event
      · rw [pressed]
        exact (before.untold_handleKey event).2.1
      · exact Tasks.handledRequests_of_grown known.serves grows (heard_press rtt event)
  | fetch runs armed due =>
      let before : App := { state.app with tx := { channel := state.channel } }
      have fetched : (state.fetch rtt).app = before.flushSelection := app_rearm rtt
      have kept : before.flushSelection.core.tree = before.core.tree := by
        rw [App.core_flushSelection]
        exact congrArg Prod.fst before.core.cursors_flush
      apply shown.of_same
      · rw [fetched]
        intro entries holds
        change before.flushSelection.core.tree.Holds entries
        rw [kept]
        exact holds
      · rw [fetched]
        exact before.untold_flushSelection.2.1
      · exact Tasks.handledRequests_of_grown known.serves grows (heard_fetch rtt)
  | receive runs waiting => exact shown.receive keyspace known alone settable begins waiting
  | tick runs due =>
      refine shown.of_same (fun _ => id) id ?_
      exact Tasks.handledRequests_of_grown known.serves grows rfl
  | wait time => exact shown.of_same (fun _ => id) id rfl
  | work move =>
      refine shown.of_same (fun _ => id) id ?_
      exact Tasks.handledRequests_of_grown known.serves grows (heard_move known.inside move)
  | read attached room events =>
      refine shown.of_same (fun _ => id) id ?_
      exact Tasks.handledRequests_of_grown known.serves grows
        (heard_put known.inside _ rfl rfl)

theorem asksSettable_of_reachable {heeds : Browse → BrowseEvent → Prop} {lens : BullMqLens}
    {server : ServerInfo} {url : Str}
    (reachable : Reachable setting calls.anything rtt heeds lens server url state) :
    state.AsksSettable ∧ [.detect, .rescan none none] <+: state.tasks.accepted := by
  induction reachable with
  | start =>
      refine ⟨⟨List.mem_cons_self, ?_⟩, List.prefix_rfl⟩
      intro pattern kind member
      simp only [Browse.start, List.mem_cons, Request.rescan.injEq, reduceCtorEq, false_or,
        List.not_mem_nil, or_false] at member
      rw [member.2]
      exact List.mem_cons_self
  | next before _ step ih => exact ⟨ih.1.step step, ih.2.trans (prefix_accepted step)⟩

theorem consistent_step (consistent : state.app.core.Consistent)
    (step : Step setting calls.anything rtt state event next) : next.app.core.Consistent := by
  cases step with
  | key runs event =>
      have pressed : (state.press rtt event).app = state.app.step (.key event state.channel) :=
        app_rearm rtt
      rw [pressed]
      exact App.consistent_step consistent _
  | fetch runs armed due =>
      have fetched : (state.fetch rtt).app = state.app.step (.flush state.channel) := app_rearm rtt
      rw [fetched]
      exact App.consistent_step consistent _
  | receive runs waiting =>
      rw [app_receive]
      exact App.consistent_apply consistent _
  | tick | wait | work | read => exact consistent

section Reachable

variable {heeds : Browse → BrowseEvent → Prop} {lens : BullMqLens} {server : ServerInfo} {url : Str}
variable {scanApi : ScanApi} {typeOf : Str → Str} {pages : Option Str → List (List Str)}

theorem shown_of_reachable (keyspace : ListsKeys setting.conn scanApi typeOf pages)
    (reachable : HostedReachable setting (scanHost setting.conn scanApi) [] rtt heeds lens server
      url state) :
    state.ShowsScan setting.conn scanApi ∧ state.app.core.Consistent := by
  induction reachable with
  | start =>
      have nothing : (start lens server url).scanned setting.conn scanApi =
          { worker := {}, updates := [] } := rfl
      refine ⟨⟨?_, ?_, nofun⟩, ⟨by rfl, .inr ⟨rfl, rfl⟩, nofun, nofun⟩⟩
      · rw [nothing]
        exact fun answered => absurd rfl answered
      · rw [nothing]
        exact .empty rfl rfl
  | next before _ step ih =>
      have stepped := step.mono fun _ _ _ => trivial
      have reached := HostedReachable.reachable before
      have asked := asksSettable_of_reachable reached
      have alone := Tasks.scansAlone_of_reachable (HostedReachable.tasks before)
      exact ⟨ih.1.step keyspace reached.known alone asked.1 asked.2 stepped,
        consistent_step ih.2 stepped⟩

/-- Where the pages of the scans and the types of the keys come without errors, the tree holds
at any time a front of what the filter of the last `Rescan` that was answered lists, and all
of it once the scan is said to be complete, however the tasks interleave and whatever the
user does meanwhile; the rows are those of the tree. -/
theorem tree_lists_keyspace (keyspace : ListsKeys setting.conn scanApi typeOf pages)
    (reachable : HostedReachable setting (scanHost setting.conn scanApi) [] rtt heeds lens server
      url state) :
    let filter := filterAfter (none, none) state.tasks.handledRequests
    let keys := listing typeOf pages filter.1 filter.2
    ∃ entries, state.app.tree.Faithful entries ∧ state.app.rows = state.app.tree.rows ∧
      entries <+: keys ∧ (state.app.scanComplete → entries = keys) := by
  intro filter keys
  rcases shown_of_reachable keyspace reachable with ⟨shown, consistent⟩
  refine ⟨deliveredPairs (state.scanned setting.conn scanApi).updates, shown.holds.faithful,
    consistent.rows, ?_⟩
  by_cases answered : (state.scanned setting.conn scanApi).updates = []
  · rw [answered]
    refine ⟨List.nil_prefix, fun complete => ?_⟩
    rcases shown.complete complete with ⟨_, _, _, last⟩
    rw [answered] at last
    cases last
  · have settable := (asksSettable_of_reachable (HostedReachable.reachable reachable)).1
    have chosen : ∀ pattern kind, .rescan pattern kind ∈ state.tasks.handledRequests →
        kind ∈ kindCycle := by
      intro pattern kind member
      rcases List.mem_filterMap.mp member with ⟨number, _, accepted⟩
      exact settable.2 pattern kind (List.mem_of_getElem? accepted)
    have lists := listsFront_scanAlone keyspace (shown.begun answered) chosen
    exact ⟨lists.delivered.1, fun complete => lists.delivered.2 (shown.complete complete)⟩

/-- The one key is listed as the string that it is. -/
theorem tree_lists_keyspace_string :
    ∃ (state : Browse) (entries : List (Str × Option Kind)),
      entries = [("a".toList, some .string)] ∧ state.app.tree.Faithful entries := by
  let typeOf := fun key : Str => if key = "a".toList then "string".toList else "none".toList
  let pages := fun _ : Option Str => [["a".toList]]
  have typed : (typingOf Tasks.smallSetting.conn).Answers ∧
      (typingOf Tasks.smallSetting.conn).Truthful Tasks.smallSetting.conn.client.api typeOf := by
    apply typingOf_serves (Conn.serves_answering plainApi_lawful plainWire Tasks.oneString
      { get := fun _ => .available })
    intro key
    dsimp only [typeOf, Tasks.oneString]
    split <;> rfl
  have keyspace : ListsKeys Tasks.smallSetting.conn Tasks.smallScans typeOf pages := by
    refine ⟨typed.1, typed.2, fun pattern => ⟨rfl, ?_⟩⟩
    intro _ type
    cases type <;> rfl
  let host := scanHost Tasks.smallSetting.conn Tasks.smallScans
  have detects : (Work.detect Tasks.smallSetting { bullmq := plainLens }).Runs host [] _
      ({ bullmq := plainLens }, .detected []) :=
    .ask (0 : Nat) rfl (.ask (.ok (some [])) rfl (.ask (.ok none) rfl .done))
  have lists : (Work.rescan Tasks.smallSetting.conn { bullmq := plainLens } none none).Runs host
      [[]] _ (_, .batch [("a".toList, some .string)] true true 1) :=
    .ask (1 : Nat) rfl (.ask (.ok (some ["a".toList])) rfl (.ask (.ok none) rfl
      (.ask (.ok ()) rfl (.ask [.ok (.string "string".toList)] rfl .done))))
  have shown : HostedReachable Tasks.smallSetting host [] 0 (fun _ _ => True) plainLens plainServer
      "redis://localhost".toList _ := .lists detects lists
  rcases tree_lists_keyspace keyspace shown with ⟨entries, faithful, _, _, all⟩
  exact ⟨_, entries, all rfl, faithful⟩

end Reachable

end Browse

end Keylens.Tui
