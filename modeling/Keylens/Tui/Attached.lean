import Keylens.Tui.LiveGraph

/-!
# Which queues the reader follows

The keyspace is searched for queues once.  What is found decides whether there is a tab for
the queues, and starts the reader; so the reader follows the queues of that tab, and it is
started at most once.
-/

namespace Keylens.Tui

open Keylens.Library Keylens.Connection Keylens.BullMq Keylens.Ui Keylens.Backend

namespace Browse

variable {setting : Setting} {rtt : Nat} {state next : Browse} {event : BrowseEvent}
variable {heeds : Browse → BrowseEvent → Prop} {lens : BullMqLens} {server : ServerInfo} {url : Str}

/-! ## The search is asked for once -/

/-- No other request than the first is one to detect. -/
def DetectsFirst (state : Browse) : Prop :=
  ∀ number, state.tasks.accepted[number]? = some .detect → number = 0

theorem DetectsFirst.append (detects : state.DetectsFirst) {accepted : List Request}
    (asked : next.tasks.accepted = state.tasks.accepted ++ accepted)
    (others : .detect ∉ accepted) : next.DetectsFirst := by
  intro number found
  rw [asked] at found
  rcases Nat.lt_or_ge number state.tasks.accepted.length with old | new
  · rw [List.getElem?_append_left old] at found
    exact detects number found
  · rw [List.getElem?_append_right new] at found
    exact absurd (List.mem_of_getElem? found) others

theorem DetectsFirst.act (detects : state.DetectsFirst) {action : App → App}
    (others : .detect ∉
      (action { state.app with tx := { channel := state.channel } }).core.tx.accepted) :
    (state.act action).DetectsFirst :=
  @append state (state.act action) detects _ rfl others

theorem DetectsFirst.rearm (detects : state.DetectsFirst) : (state.rearm rtt).DetectsFirst := by
  intro number found
  rw [tasks_rearm] at found
  exact detects number found

/-- No key is for detecting. -/
theorem not_asks_detect (intent : Intent) : intent.asks .detect = false := by
  cases intent <;> rfl

theorem DetectsFirst.step (detects : state.DetectsFirst)
    (step : Step setting calls.anything rtt state event next) : next.DetectsFirst := by
  cases step with
  | key runs event =>
      apply DetectsFirst.rearm
      apply detects.act
      intro member
      rw [App.core_handleKey] at member
      rcases Intent.mem_accepted_run member with old | asks
      · cases old
      · rw [not_asks_detect] at asks
        cases asks
  | fetch runs armed due =>
      have disarmed : DetectsFirst { state with fetchAt := none } := detects
      apply DetectsFirst.rearm
      apply disarmed.act
      intro member
      rw [App.core_flushSelection] at member
      rcases Core.mem_accepted_flush member with old | ⟨key, same⟩
      · cases old
      · cases same
  | receive runs waiting =>
      intro number found
      rw [tasks_receive] at found
      exact detects number found
  | tick runs due =>
      apply @append state (state.tick rtt) detects _ rfl
      split <;> simp
  | wait time => exact detects
  | work move =>
      intro number found
      rw [Tasks.accepted_of_drains (.move move)] at found
      exact detects number found
  | read attached room events => exact detects

/-! ## What is found -/

/-- The prefix and the queues of what was detected. -/
def follows (detections : List Detection) : Option (Str × List Str) :=
  detections.head?.map fun detection => (detection.prefix', detection.targets)

/-- The reader follows what was detected, which was heard of in answer to the first
request. -/
structure FollowsTab (state : Browse) : Prop where
  attached : state.attached = follows state.app.detections
  wellFormed : ∀ detection ∈ state.app.detections, BullMq.Session.WellFormed detection
  heard : state.app.detections ≠ [] → some 0 ∈ state.heard.map Prod.fst

theorem FollowsTab.of_same (followsTab : state.FollowsTab)
    (attached : next.attached = state.attached)
    (told : next.app.told = state.app.told) (heard : next.heard = state.heard) :
    next.FollowsTab := by
  have detections : next.app.detections = state.app.detections := congrArg Told.detections told
  refine ⟨?_, ?_, ?_⟩
  · rw [attached, detections]
    exact followsTab.attached
  · rw [detections]
    exact followsTab.wellFormed
  · rw [detections, heard]
    exact followsTab.heard

theorem attached_rearm (rtt : Nat) : (state.rearm rtt).attached = state.attached := by
  rw [rearm]
  split <;> rfl

/-- Other updates have nothing to do with it. -/
theorem attach_of_other {update : Update} (other : ∀ detections, update ≠ .detected detections) :
    state.attach update = state := by
  unfold attach
  split
  next => exact absurd rfl (other _)
  next => rfl

theorem detections_apply_of_other (app : App) {update : Update}
    (other : ∀ detections, update ≠ .detected detections) :
    (app.apply update).detections = app.detections := by
  have told := congrArg Told.detections (app.told_apply update)
  have same : (app.told.hear update).detections = app.told.detections := by
    cases update with
    | detected detections => exact absurd rfl (other detections)
    | _ => rfl
  exact told.trans same

/-- What was found answers the first request. -/
theorem DetectsFirst.of_sent (detects : state.DetectsFirst) (known : state.Known setting)
    {source : Option Nat} {detections : List Detection}
    (sent : (source, .detected detections) ∈ state.tasks.sent) :
    source = some 0 ∧ Request.detect.Expects (.detected detections) := by
  cases source with
  | none => cases known.events _ sent
  | some number =>
      rcases known.serves.sent number _ sent with ⟨_, request, accepted, fits⟩
      cases request with
      | detect => exact ⟨by rw [detects number accepted], fits⟩
      | _ => cases fits

/-- As long as the first answer has not been heard, nothing has been found. -/
theorem FollowsTab.detections_eq_nil (followsTab : state.FollowsTab) (known : state.Known setting)
    {update : Update} {rest : List (Option Nat × Update)}
    (waiting : state.tasks.updates = (some 0, update) :: rest) : state.app.detections = [] := by
  by_contra found
  -- The first request would have been answered twice.
  have before := followsTab.heard found
  have answers : state.tasks.answers =
      (state.heard.filterMap Prod.fst) ++ 0 :: rest.filterMap Prod.fst := by
    have split : state.tasks.sent = state.heard ++ (some 0, update) :: rest := by
      rw [← waiting]
      exact (List.take_append_drop ..).symm
    rw [Tasks.answers, split, List.filterMap_append]
    rfl
  have once := known.delivers.once
  rw [answers] at once
  rcases List.mem_map.mp before with ⟨entry, member, isFirst⟩
  have twice : 0 ∈ state.heard.filterMap Prod.fst := List.mem_filterMap.mpr ⟨entry, member, isFirst⟩
  exact (List.nodup_append.mp once).2.2 0 twice 0 List.mem_cons_self rfl

theorem FollowsTab.receive_detected (followsTab : state.FollowsTab) (known : state.Known setting)
    (detects : state.DetectsFirst) {source : Option Nat} {detections : List Detection}
    {rest : List (Option Nat × Update)}
    (waiting : state.tasks.updates = (source, .detected detections) :: rest) :
    (state.receive (.detected detections)).FollowsTab := by
  rcases detects.of_sent known (Tasks.mem_sent_of_waiting waiting) with ⟨rfl, few, wellFormed⟩
  have unattached : state.attached = none := by
    rw [followsTab.attached, followsTab.detections_eq_nil known waiting]
    rfl
  have shown : (state.receive (.detected detections)).app.detections = detections := rfl
  refine ⟨?_, ?_, ?_⟩
  · rw [shown]
    change (state.attach (.detected detections)).attached = _
    cases detections with
    | nil => exact unattached
    | cons detection others =>
        have some_target := (wellFormed detection List.mem_cons_self).some_target
        have goesOn : (state.attached.isSome || detection.targets.isEmpty) = false := by
          rw [unattached]
          simpa using some_target
        rw [attach, goesOn]
        rfl
  · rw [shown]
    exact wellFormed
  · intro _
    rw [heard_receive waiting]
    simp

theorem FollowsTab.receive_other (followsTab : state.FollowsTab) {source : Option Nat}
    {update : Update} {rest : List (Option Nat × Update)}
    (waiting : state.tasks.updates = (source, update) :: rest)
    (other : ∀ detections, update ≠ .detected detections) : (state.receive update).FollowsTab := by
  have detections : (state.receive update).app.detections = state.app.detections := by
    rw [app_receive]
    exact detections_apply_of_other state.app other
  refine ⟨?_, ?_, ?_⟩
  · rw [detections]
    change (state.attach update).attached = _
    rw [attach_of_other other]
    exact followsTab.attached
  · rw [detections]
    exact followsTab.wellFormed
  · rw [detections, heard_receive waiting]
    intro found
    rw [List.map_append]
    exact List.mem_append_left _ (followsTab.heard found)

theorem FollowsTab.receive (followsTab : state.FollowsTab) (known : state.Known setting)
    (detects : state.DetectsFirst) {source : Option Nat} {update : Update}
    {rest : List (Option Nat × Update)} (waiting : state.tasks.updates = (source, update) :: rest) :
    (state.receive update).FollowsTab := by
  by_cases isDetected : ∃ detections, update = .detected detections
  · rcases isDetected with ⟨detections, rfl⟩
    exact followsTab.receive_detected known detects waiting
  · exact followsTab.receive_other waiting fun detections same => isDetected ⟨detections, same⟩

theorem FollowsTab.step (followsTab : state.FollowsTab) (known : state.Known setting)
    (detects : state.DetectsFirst) (step : Step setting calls.anything rtt state event next) :
    next.FollowsTab := by
  cases step with
  | key runs event =>
      apply followsTab.of_same
      · exact attached_rearm rtt
      · rw [press, app_rearm]
        exact (App.untold_handleKey { state.app with tx := { channel := state.channel } } event).1
      · exact heard_press rtt event
  | fetch runs armed due =>
      apply followsTab.of_same
      · exact attached_rearm rtt
      · rw [fetch, app_rearm]
        exact (App.untold_flushSelection { state.app with tx := { channel := state.channel } }).1
      · exact heard_fetch rtt
  | receive runs waiting => exact followsTab.receive known detects waiting
  | tick runs due => exact followsTab.of_same rfl rfl rfl
  | wait time => exact followsTab.of_same rfl rfl rfl
  | work move => exact followsTab.of_same rfl rfl (heard_move known.inside move)
  | read attached room events =>
      exact followsTab.of_same rfl rfl (heard_put known.inside _ rfl rfl)

/-- A reader that follows some queues goes on following them. -/
theorem attached_step {may : calls.Answers} {followed : Str × List Str}
    (attached : state.attached = some followed) (step : Step setting may rtt state event next) :
    next.attached = some followed := by
  cases step with
  | key runs event => exact (attached_rearm rtt).trans attached
  | fetch runs armed due => exact (attached_rearm rtt).trans attached
  | @receive runs source update rest waiting =>
      change (state.attach update).attached = some followed
      unfold attach
      split
      next =>
          rw [attached, Option.isSome_some, Bool.true_or, if_pos rfl]
          exact attached
      next => exact attached
  | tick | wait | work | read => exact attached

/-- What can come after a state. -/
def Later (setting : Setting) (rtt : Nat) : Browse → Browse → Prop :=
  Relation.ReflTransGen fun before after =>
    ∃ event, Step setting calls.anything rtt before event after

theorem attached_later {followed : Str × List Str} {later : Browse}
    (attached : state.attached = some followed) (after : Later setting rtt state later) :
    later.attached = some followed := by
  induction after with
  | refl => exact attached
  | tail _ stepped ih =>
      rcases stepped with ⟨event, step⟩
      exact attached_step ih step

/-- At any time the reader follows the very queues that the tab for queues is about, and
there is no reader without such a tab: they are sorted and distinct, and not too many.  A
reader is not started again: whatever comes later, it follows the same queues. -/
theorem reader_follows_tab
    (reachable : Reachable setting calls.anything rtt heeds lens server url state) :
    state.attached = follows state.app.detections ∧
      (.queues ∈ state.app.views ↔ state.attached.isSome) ∧
      (∀ prefix' queues, state.attached = some (prefix', queues) →
        queues ≠ [] ∧ queues.Pairwise (· < ·) ∧ queues.length ≤ maxQueues) ∧
      ∀ followed later, state.attached = some followed → Later setting rtt state later →
        later.attached = some followed := by
  have followsTab : state.FollowsTab ∧ state.DetectsFirst := by
    induction reachable with
    | start =>
        refine ⟨⟨rfl, nofun, fun found => absurd rfl found⟩, ?_⟩
        intro number found
        match number with
        | 0 => rfl
        | 1 => cases found
        | number + 2 => cases found
    | next before _ step ih =>
        exact ⟨ih.1.step (Reachable.known before) ih.2 step, ih.2.step step⟩
  have attached := followsTab.1.attached
  refine ⟨attached, ?_, ?_, fun _ _ => attached_later⟩
  · rw [attached, App.views, follows]
    cases state.app.detections <;> simp [View.all]
  · intro prefix' queues same
    rw [attached, follows] at same
    rcases Option.map_eq_some_iff.mp same with ⟨detection, isFirst, ⟨⟩⟩
    have known := followsTab.1.wellFormed detection (List.mem_of_mem_head? isFirst)
    exact ⟨known.some_target, known.increasing, known.atMost⟩

/-- One queue was found. -/
theorem reader_follows_tab_emails :
    ∃ state : Browse, follows state.app.detections = some ("bull".toList, ["emails".toList]) ∧
      .queues ∈ state.app.views := by
  rcases exists_reported with ⟨state, reachable, attached, _⟩
  have same := reader_follows_tab reachable
  refine ⟨state, same.1.symm.trans attached, same.2.1.mpr ?_⟩
  rw [attached]
  rfl

end Browse

end Keylens.Tui
