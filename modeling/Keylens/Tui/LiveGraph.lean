import Keylens.Tui.Hosted
import Keylens.Tui.Told
import Keylens.BullMq.Histogram
import Keylens.Events.Reports

/-!
# The live graph

From the streams of the queues to the graph: the reader is given entries and reports them,
the worker's updates come in between, the app takes both and the user does what he likes.
In the end each cell of the graph counts the entries of one second.
-/

namespace Keylens.Tui

open Keylens.Library Keylens.Connection Keylens.BullMq Keylens.Ui Keylens.Backend Keylens.Events

/-! ## What the graph is made of -/

theorem entries_record {one other : Throughput} (same : one.entries = other.entries)
    (event : StreamEvent) :
    (one.record event.queue event.kind event.atMs).entries =
      (other.record event.queue event.kind event.atMs).entries := by
  rw [Throughput.record, Throughput.record, same]

theorem entries_foldl_record {one other : Throughput} (same : one.entries = other.entries)
    (events : List StreamEvent) :
    (events.foldl (fun throughput event =>
        throughput.record event.queue event.kind event.atMs) one).entries =
      (events.foldl (fun throughput event =>
        throughput.record event.queue event.kind event.atMs) other).entries := by
  induction events generalizing one other with
  | nil => exact same
  | cons event events ih => exact ih (entries_record same event)

/-- Of all updates only the reported events are in the series. -/
theorem entries_foldl_hear (updates : List Update) {told : Told} {throughput : Throughput}
    (same : told.throughput.entries = throughput.entries) :
    (updates.foldl Told.hear told).throughput.entries =
      ((reported updates).foldl (fun throughput event =>
        throughput.record event.queue event.kind event.atMs) throughput).entries := by
  induction updates generalizing told throughput with
  | nil => exact same
  | cons update updates ih =>
      rw [List.foldl_cons, reported_cons, List.foldl_append]
      apply ih
      cases update with
      | events events =>
          rw [show reported [.events events] = events from List.append_nil events]
          exact entries_foldl_record same events
      | _ => exact same

/-- No request is answered with events. -/
theorem not_expects_events (request : Request) (events : List StreamEvent) :
    ¬request.Expects (.events events) := by
  cases request <;> exact id

namespace Browse

variable {setting : Setting} {rtt : Nat} {state : Browse}
variable {heeds : Browse → BrowseEvent → Prop} {lens : BullMqLens} {server : ServerInfo} {url : Str}

/-- The updates of the reader that the app has taken. -/
def heardFromReader (state : Browse) : List Update :=
  (state.heard.filter fun entry => entry.1 = none).map Prod.snd

theorem reported_heard (known : state.Known setting) :
    reported (state.heard.map Prod.snd) = reported state.heardFromReader := by
  have silent : ∀ entry ∈ state.heard, entry.1 ≠ none → reported [entry.2] = [] := by
    rintro ⟨source, update⟩ member apart
    cases source with
    | none => exact absurd rfl apart
    | some number =>
        rcases (known.serves.sent number update (List.mem_of_mem_take member)).2 with
          ⟨request, _, fits⟩
        cases update with
        | events events => exact absurd fits (not_expects_events request events)
        | _ => rfl
  rw [heardFromReader]
  generalize state.heard = heard at silent
  induction heard with
  | nil => rfl
  | cons entry heard ih =>
      have later := ih fun other member => silent other (List.mem_cons_of_mem entry member)
      rw [List.map_cons, reported_cons, later]
      by_cases fromReader : entry.1 = none
      · rw [List.filter_cons_of_pos (by simpa using fromReader), List.map_cons]
        exact (reported_cons _ _).symm
      · rw [silent entry List.mem_cons_self fromReader,
          List.filter_cons_of_neg (by simpa using fromReader), List.nil_append]

/-- The series of the graph are those of the events that the reader has reported. -/
theorem series_of_reachable
    (reachable : Reachable setting calls.anything rtt heeds lens server url state) (queue : Str) :
    state.app.throughput.series queue =
      (Throughput.replay (reported state.heardFromReader)).series queue := by
  have told := congrArg Told.throughput (told_of_reachable reachable)
  have entries := @entries_foldl_hear (state.heard.map Prod.snd) { server } {} rfl
  rw [reported_heard (Reachable.known reachable)] at entries
  change state.app.throughput.entries.lookup queue = _
  rw [show state.app.throughput = _ from told, entries]
  rfl

/-- Once the app has taken what the reader sent, each cell of a queue's graph is the number
of entries delivered of its stream that fall into that second and count for the line,
as far as two minutes before the newest of them, whatever else went on in the browser and
however the calls of the reader fared. -/
theorem live_graph_exact
    (reachable : Reachable setting calls.anything rtt heeds lens server url state)
    {conn : Conn} {wire : Wire} (shows : wire.ShowsText conn.client.api) {keySlot : Str → Nat}
    {prefix' : Str} {queues : List Str} (nodup : queues.Nodup) {streams : Str → Stream}
    {events : List Event} (keeps : ∀ event ∈ events, event.keepsUi) {reader : System}
    (ran : run (System.step conn.client.api wire)
      (System.initial conn keySlot prefix' queues false streams) events = reader)
    (heard : state.heardFromReader = reader.updates) {queue : Str} (member : queue ∈ queues)
    {series : Series} (found : state.app.throughput.series queue = some series)
    {newest now : Int} {width : Nat}
    (isNewest : IsGreatest { second |
      ∃ entry ∈ reader.delivered (QueueKeys.events { prefix', name := queue }),
        ∃ event, entry.event conn.client.api wire queue = some event ∧ event.second = second }
      newest)
    (recent : newest - windowSecs ≤ now - width) (pick : Pick) {pos : Nat} (inside : pos < width) :
    (series.window now width pick.read)[pos]? =
      some ((reader.delivered (QueueKeys.events { prefix', name := queue })).countP fun entry =>
        (entry.event conn.client.api wire queue).any fun event =>
          event.second = now - width + 1 + pos && pick.counts event.kind) := by
  have each := System.reports_deliveries conn shows keySlot prefix' nodup streams events keeps
    queue member
  rw [ran] at each
  rw [series_of_reachable reachable, heard] at found
  have owns {event : StreamEvent} : event ∈ reported reader.updates ∧ event.queue = queue ↔
      ∃ entry ∈ reader.delivered (QueueKeys.events { prefix', name := queue }),
        entry.event conn.client.api wire queue = some event := by
    rw [← List.mem_filterMap, ← each, List.mem_filter, decide_eq_true_iff]
  have newestEvent : IsGreatest
      { second | ∃ event ∈ reported reader.updates, event.queue = queue ∧ event.second = second }
      newest := by
    constructor
    · rcases isNewest.1 with ⟨entry, delivered, event, stands, isSecond⟩
      rcases owns.mpr ⟨entry, delivered, stands⟩ with ⟨isReported, isQueue⟩
      exact ⟨event, isReported, isQueue, isSecond⟩
    · rintro second ⟨event, isReported, isQueue, isSecond⟩
      rcases owns.mp ⟨isReported, isQueue⟩ with ⟨entry, delivered, stands⟩
      exact isNewest.2 ⟨entry, delivered, event, stands, isSecond⟩
  let counted (event : StreamEvent) : Bool :=
    event.second = now - width + 1 + pos && pick.counts event.kind
  have cell := ((window_eq_histogram found newestEvent recent).1 pick).2 pos inside
  rw [cell]
  congr 1
  calc (reported reader.updates).countP (fun event => event.queue = queue && counted event)
      = (reported reader.updates).countP (fun event => counted event && event.queue = queue) := by
        simp only [Bool.and_comm]
    _ = ((reported reader.updates).filter fun event => event.queue = queue).countP counted :=
        List.countP_filter.symm
    _ = ((reader.delivered (QueueKeys.events { prefix', name := queue })).filterMap
          (Entry.event conn.client.api wire queue)).countP counted := by rw [each]
    _ = (reader.delivered (QueueKeys.events { prefix', name := queue })).countP fun entry =>
          (entry.event conn.client.api wire queue).any counted := by
        rw [List.countP_filterMap]
        congr 1
        funext entry
        cases entry.event conn.client.api wire queue <;> rfl

/-- A job that was completed after one second. -/
def completedEntry : Entry where
  id := toLex (1000, 0)
  fields := [(utf8Encode "event".toList, utf8Encode "completed".toList)]

def completedEvent : StreamEvent :=
  { queue := "emails".toList, kind := .completed, atMs := 1000 }

/-- One queue is detected, and its reader reports a job. -/
theorem exists_reported :
    ∃ state : Browse, Reachable plainSetting calls.anything 0 (fun _ _ => True) plainLens
      plainServer "redis://localhost".toList state ∧
      state.attached = some ("bull".toList, ["emails".toList]) ∧
      state.heardFromReader = [.eventsStatus .live, .events [completedEvent]] := by
  have detects : (Work.detect plainSetting { bullmq := plainLens }).Runs
      (Host.always calls.anything) () _ (_, .detected [_]) :=
    .ask (0 : Nat) trivial (.ask (.ok (some ["bull:emails:meta".toList])) trivial
      (.ask (.ok none) trivial (.ask (.ok (.array [])) trivial .done)))
  have answered : Reachable plainSetting calls.anything 0 (fun _ _ => True) plainLens plainServer
      "redis://localhost".toList _ := HostedReachable.detects detects
  have attached := answered.next trivial (.receive rfl rfl)
  have live := attached.next trivial (@Step.read _ _ _ _ rfl rfl (.eventsStatus .live) rfl)
  have reported := live.next trivial (@Step.read _ _ _ _ rfl rfl (.events [completedEvent]) rfl)
  have told := reported.next trivial (.receive rfl rfl)
  have shown := told.next trivial (.receive rfl rfl)
  exact ⟨_, shown, rfl, rfl⟩

/-- The stream of the queue. -/
def emailsKey : Str :=
  QueueKeys.events { prefix' := "bull".toList, name := "emails".toList }

/-- The entry is appended while the first call waits. -/
def completedEvents : List Event :=
  [.accept, .xadd emailsKey completedEntry, .reply .resp2 [emailsKey] false]

def completedReader : System :=
  run (System.step System.streamConn.client.api plainWire)
    (System.initial System.streamConn (fun _ => 0) "bull".toList ["emails".toList] false
      fun _ => System.emptyStream) completedEvents

theorem delivered_completedReader : completedReader.delivered emailsKey = [completedEntry] := by
  decide

theorem updates_completedReader :
    completedReader.updates = [.eventsStatus .live, .events [completedEvent]] := by
  rfl

theorem event_completedEntry :
    completedEntry.event System.streamConn.client.api plainWire "emails".toList =
      some completedEvent := by
  decide

/-- In its second the graph counts the job. -/
theorem live_graph_exact_completed :
    ∃ (state : Browse) (series : Series),
      state.app.throughput.series "emails".toList = some series ∧
        (series.window 1 1 Pick.completed.read)[0]? = some 1 := by
  rcases exists_reported with ⟨state, reachable, _, heard⟩
  have series := series_of_reachable reachable "emails".toList
  rw [heard] at series
  have found : ∃ series, (Throughput.replay (reported
      [.eventsStatus .live, .events [completedEvent]])).series "emails".toList = some series :=
    ⟨_, rfl⟩
  rcases found with ⟨shown, found⟩
  have isNewest : IsGreatest { second |
      ∃ entry ∈ completedReader.delivered emailsKey, ∃ event,
        entry.event System.streamConn.client.api plainWire "emails".toList = some event ∧
          event.second = second } 1 := by
    rw [delivered_completedReader]
    constructor
    · exact ⟨completedEntry, List.mem_singleton_self _, completedEvent, event_completedEntry, rfl⟩
    · rintro second ⟨entry, member, event, isEvent, rfl⟩
      rw [List.mem_singleton.mp member, event_completedEntry] at isEvent
      cases isEvent
      decide
  have keeps : ∀ event ∈ completedEvents, event.keepsUi := by
    simp [completedEvents, Event.keepsUi]
  have recent : (1 : Int) - windowSecs ≤ 1 - (1 : Nat) := by decide
  have counted := live_graph_exact reachable plainWire_showsText (List.nodup_singleton _) keeps
    (show _ = completedReader from rfl) (heard.trans updates_completedReader.symm)
    (List.mem_singleton_self _) (series.trans found) isNewest recent .completed Nat.zero_lt_one
  refine ⟨state, shown, series.trans found, counted.trans ?_⟩
  change some ((completedReader.delivered emailsKey).countP _) = _
  rw [delivered_completedReader, List.countP_singleton, event_completedEntry]
  rfl

end Browse

end Keylens.Tui
