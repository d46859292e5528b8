import Keylens.Tui.Loading
import Keylens.Tui.ScanFlag
import Keylens.Tui.Served

/-!
# What the app waits for

Whatever the app says that it is waiting for, some request is still to be answered for it:
a pane that loads, and the scan that is said to be going on.
-/

namespace Keylens.Tui

open Keylens.Library Keylens.Connection Keylens.BullMq Keylens.Ui Keylens.Backend

namespace Served

/-- A scan that is said to be going on has been asked for. -/
def ScanAsked (state : Served) : Prop :=
  state.app.loading → ∃ request ∈ state.requests, isScanRequest request

/-- A pane that loads has been asked for. -/
def PanesAsked (state : Served) : Prop :=
  state.app.core.Waits state.requests

/-- No key press cycles to another state of the jobs while no queue is selected and the
list of jobs still loads, unless the jobs of that state have been asked for. -/
def CyclesAsked (state : Served) : BrowseEvent → Prop
  | .key event => ∀ jobState, state.app.intent event = .cycle jobState →
      state.app.selectedQueue = none → state.app.jobs.isLoading →
        ∃ queue, .loadJobs queue jobState ∈ state.requests
  | _ => True

/-! ## Panes -/

/-- The requests for panes. -/
def asksPane : Request → Bool
  | .loadSlowlog | .loadClients | .loadCluster | .loadPubSub | .loadQueues | .loadJobs _ _
  | .loadJob _ _ => true
  | _ => false

theorem asksPane_of_answers {jobState : State} {pane : Pane} {request : Request}
    (answers : Answers jobState pane request) : asksPane request := by
  cases pane with
  | jobs =>
      rcases answers with ⟨queue, rfl⟩
      rfl
  | job =>
      rcases answers with ⟨queue, id, rfl⟩
      rfl
  | _ =>
      cases answers
      rfl

theorem inLoop_of_asksPane {request : Request} (asks : asksPane request) : request.inLoop := by
  cases request <;> first | rfl | cases asks

/-- The main loop answers for the panes, so nothing else is waited for there. -/
theorem waits_filter {core : Core} {before accepted : List Request}
    (waits : core.Waits (before ++ accepted)) :
    core.Waits (before ++ accepted.filter Request.inLoop) := by
  intro pane loading
  rcases waits pane loading with ⟨request, member, answers⟩
  refine ⟨request, ?_, answers⟩
  rcases List.mem_append.mp member with old | new
  · exact List.mem_append_left _ old
  · exact List.mem_append_right _
      (List.mem_filter.mpr ⟨new, inLoop_of_asksPane (asksPane_of_answers answers)⟩)

/-- A pane that has settled shows what the worker found. -/
theorem exists_found {α : Type} {pane : PaneState α} (settled : pane.Settled) :
    ∃ found : Found α, found.pane = pane := by
  cases pane with
  | idle | loading => cases settled
  | ready value => exact ⟨.ready value, rfl⟩
  | unavailable why => exact ⟨.unavailable why, rfl⟩
  | failed why => exact ⟨.failed why, rfl⟩

/-- What fits a request for a pane is a reply to it. -/
theorem reply_of_expects {request : Request} {update : Update} (asks : asksPane request)
    (fits : request.Expects update) :
    ∃ findings : Findings, findings.reply request = some update := by
  cases request with
  | loadSlowlog =>
      cases update <;> first | contradiction | skip
      rcases exists_found fits with ⟨slowlog, rfl⟩
      exact ⟨{ slowlog }, rfl⟩
  | loadClients =>
      cases update <;> first | contradiction | skip
      rcases exists_found fits with ⟨clients, rfl⟩
      exact ⟨{ clients }, rfl⟩
  | loadCluster =>
      cases update <;> first | contradiction | skip
      rcases exists_found fits with ⟨cluster, rfl⟩
      exact ⟨{ cluster }, rfl⟩
  | loadPubSub =>
      cases update <;> first | contradiction | skip
      rcases exists_found fits with ⟨pubSub, rfl⟩
      exact ⟨{ pubSub }, rfl⟩
  | loadQueues =>
      cases update <;> first | contradiction | skip
      rcases exists_found fits with ⟨queues, rfl⟩
      exact ⟨{ queues }, rfl⟩
  | loadJobs queue jobState =>
      cases update <;> first | contradiction | skip
      rcases fits with ⟨rfl, settled⟩
      rcases exists_found settled with ⟨jobs, rfl⟩
      exact ⟨{ jobs }, rfl⟩
  | loadJob queue id =>
      cases update <;> first | contradiction | skip
      rcases exists_found fits.1 with ⟨job, rfl⟩
      exact ⟨{ job }, rfl⟩
  | rescan | more | select | refreshInfo | detect => cases asks

/-- What fits another request is for no pane. -/
theorem isPaneUpdate_of_expects {request : Request} {update : Update}
    (other : asksPane request = false) (fits : request.Expects update) :
    isPaneUpdate update = false := by
  cases request with
  | rescan | more | select | refreshInfo | detect =>
      cases update <;> first | rfl | cases fits
  | _ => cases other

theorem isPaneUpdate_of_isAside {update : Update} (aside : isAside update) :
    isPaneUpdate update = false := by
  cases update <;> first | rfl | cases aside

variable {state next : Served} {event : BrowseEvent}

theorem panes_answer {request : Request} {requests : List Request} {update : Update}
    (waits : state.app.core.Waits (request :: requests)) (fits : request.Expects update) :
    (state.app.apply update).core.Waits requests := by
  cases asks : asksPane request with
  | true =>
      rcases reply_of_expects asks fits with ⟨findings, reply⟩
      have before : Loading.Attended { app := state.app, requests := request :: requests } :=
        Loading.attended_iff.mpr waits
      have after := Loading.attended_iff.mp (Loading.attended_arrive before findings)
      simpa only [Loading.step, reply] using after
  | false =>
      intro pane loading
      rw [App.isLoading_apply _ (isPaneUpdate_of_expects asks fits)] at loading
      rw [show (state.app.apply update).core.jobState = state.app.core.jobState from
        (state.app.keepsChoices_apply update).jobState]
      apply Loading.waits_tail waits loading
      intro answers
      rw [asksPane_of_answers answers] at asks
      cases asks

theorem panes_aside {requests : List Request} {update : Update}
    (waits : state.app.core.Waits requests) (aside : isAside update) :
    (state.app.apply update).core.Waits requests := by
  have before : Loading.Attended { app := state.app, requests } := Loading.attended_iff.mpr waits
  have after := Loading.attended_iff.mp (Loading.attended_other before update)
  rwa [Loading.step, isPaneUpdate_of_isAside aside, if_neg Bool.false_ne_true] at after

/-! ## The scan -/

theorem inLoop_of_isScanRequest {request : Request} (scan : isScanRequest request) :
    request.inLoop := by
  cases request <;> first | rfl | cases scan

/-- A scan is answered with a batch or an error. -/
theorem isBatch_or_isError_of_expects {request : Request} {update : Update}
    (scan : isScanRequest request) (fits : request.Expects update) :
    isBatch update || isError update := by
  cases request with
  | rescan | more => cases update <;> first | rfl | cases fits
  | _ => cases scan

theorem ScanAsked.key (asked : state.ScanAsked) (event : KeyEvent) (channel : Channel) :
    (state.act channel fun app => app.handleKey event).ScanAsked := by
  intro loading
  let before : App := { state.app with tx := { channel } }
  have flag : (state.act channel fun app => app.handleKey event).app.loading =
      if (state.app.intent event).isScan then decide (channel = .room) else state.app.loading :=
    before.loading_handleKey event
  rw [flag] at loading
  cases scans : (state.app.intent event).isScan with
  | true =>
      rw [scans, if_pos rfl, decide_eq_true_iff] at loading
      have requests := state.app.scanRequests_handleKey event channel
      rw [if_pos loading] at requests
      rcases List.exists_mem_of_ne_nil _ (Intent.scanRequest_of_isScan scans) with
        ⟨request, member⟩
      rw [← requests] at member
      rcases List.mem_filter.mp member with ⟨accepted, isScan⟩
      refine ⟨request, List.mem_append_right _ ?_, isScan⟩
      exact List.mem_filter.mpr ⟨accepted, inLoop_of_isScanRequest isScan⟩
  | false =>
      rw [scans] at loading
      rcases asked loading with ⟨request, member, isScan⟩
      exact ⟨request, List.mem_append_left _ member, isScan⟩

/-! ## Every step -/

theorem ScanAsked.step (asked : state.ScanAsked) (step : Step state event next) :
    next.ScanAsked := by
  cases step with
  | tick | wait | work | read => exact asked
  | key event channel => exact asked.key event channel
  | fetch channel =>
      intro loading
      have view := App.scanView_flushSelection { state.app with tx := { channel } }
      have flag : (state.act channel App.flushSelection).app.loading = state.app.loading :=
        congrArg (fun view => view.2.2) view
      rcases asked (flag ▸ loading) with ⟨request, member, isScan⟩
      exact ⟨request, List.mem_append_left _ member, isScan⟩
  | @answer request requests update oldest fits =>
      intro loading
      rw [App.loading_apply, Bool.and_eq_true] at loading
      rcases asked loading.1 with ⟨other, member, isScan⟩
      rw [oldest] at member
      rcases List.mem_cons.mp member with rfl | later
      · rw [isBatch_or_isError_of_expects isScan fits] at loading
        cases loading.2
      · exact ⟨other, later, isScan⟩
  | aside other =>
      intro loading
      rw [App.loading_apply, Bool.and_eq_true] at loading
      exact asked loading.1

/-- Unless a key press cycles blindly, every pane that loads has been asked for. -/
theorem PanesAsked.step (asked : state.PanesAsked) (heeded : state.CyclesAsked event)
    (step : Step state event next) : next.PanesAsked := by
  have attended : Loading.Attended { app := state.app, requests := state.requests } :=
    Loading.attended_iff.mpr asked
  cases step with
  | tick | wait | work | read => exact asked
  | key event channel =>
      have pressed := (Loading.attended_key attended event channel).mpr heeded
      exact waits_filter (Loading.attended_iff.mp pressed)
  | fetch channel =>
      exact waits_filter (Loading.attended_iff.mp (Loading.attended_flush attended channel))
  | answer oldest fits => exact panes_answer (show state.app.core.Waits _ from oldest ▸ asked) fits
  | aside other => exact panes_aside asked other

end Served

end Keylens.Tui
