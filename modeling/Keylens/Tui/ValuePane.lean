import Keylens.Tui.AtRest
import Keylens.Tui.Fetching

/-!
# The value pane

The value pane trails the cursor.  Once the key that the app waits for has been read, the
pane shows that key and no other, unless the read failed or a rescan cleared the pane
afterwards.
-/

namespace Keylens.Tui

open Keylens.Library Keylens.Connection Keylens.BullMq Keylens.Ui Keylens.Backend

/-- A batch with which the list of keys starts anew. -/
def isReset : Update → Bool
  | .batch _ reset _ _ => reset
  | _ => false

/-- A `Select` was accepted under a number, and none after it. -/
structure LastAsked (tasks : Tasks) (number : Nat) (key : Str) : Prop where
  accepted : tasks.accepted[number]? = some (.select key)
  last : ∀ later, number < later → ¬tasks.Selects later

theorem LastAsked.of_same {before after : Tasks} {number : Nat} {key : Str}
    (asked : LastAsked before number key) (same : after.accepted = before.accepted) :
    LastAsked after number key := by
  refine ⟨by rw [same]; exact asked.accepted, ?_⟩
  rintro later behind ⟨other, accepted⟩
  exact asked.last later behind ⟨other, same ▸ accepted⟩

/-- Something else is asked for. -/
theorem LastAsked.append {tasks : Tasks} {number : Nat} {key : Str}
    (asked : LastAsked tasks number key) {request : Request} (other : selectKey request = none) :
    LastAsked { tasks with accepted := tasks.accepted ++ [request] } number key := by
  have inside := Tasks.lt_length_of_accepted asked.accepted
  refine ⟨?_, ?_⟩
  · exact (List.getElem?_append_left inside).trans asked.accepted
  · rintro later behind ⟨key, accepted⟩
    have accepted : (tasks.accepted ++ [request])[later]? = some (.select key) := accepted
    rcases Nat.lt_or_ge later tasks.accepted.length with old | new
    · exact asked.last later behind ⟨key, by rwa [List.getElem?_append_left old] at accepted⟩
    · rw [List.getElem?_append_right new] at accepted
      have isRequest := List.mem_of_getElem? accepted
      rw [← List.mem_singleton.mp isRequest] at other
      cases other

/-- A key is asked for. -/
theorem lastAsked_select (tasks : Tasks) (key : Str) :
    LastAsked { tasks with accepted := tasks.accepted ++ [.select key] } tasks.accepted.length
      key := by
  refine ⟨List.getElem?_concat_length, ?_⟩
  rintro later behind ⟨other, accepted⟩
  have inside := Tasks.lt_length_of_accepted accepted
  rw [List.length_append, List.length_singleton] at inside
  omega

namespace Browse

/-- The updates that the app has taken, oldest first. -/
def heard (state : Browse) : List (Option Nat × Update) :=
  state.tasks.sent.take state.tasks.received

/-- Since the answer to a read was taken, the pane has shown its key, unless the read
failed, until a rescan has cleared it. -/
def ShowsAnswer (state : Browse) (number : Nat) (key : Str) : Prop :=
  ∀ before update after, state.heard = before ++ (some number, update) :: after →
    isError update ∨ state.app.detailKey = some key ∨
      state.app.detailKey = none ∧ ∃ entry ∈ after, isReset entry.2

/-- The key that is waited for is the one asked for last, and its answer is shown. -/
def CatchesUp (state : Browse) : Prop :=
  ∀ key, state.app.pendingKey = some key →
    ∃ number, LastAsked state.tasks number key ∧ state.ShowsAnswer number key

variable {setting : Setting} {rtt : Nat} {state next : Browse} {event : BrowseEvent}

/-! ## What has been heard -/

theorem heard_of_tasks (same : next.tasks = state.tasks) : next.heard = state.heard := by
  rw [heard, same, heard]

/-- What is put into the channel has not been taken yet. -/
theorem heard_put (inside : state.tasks.received ≤ state.tasks.sent.length) (tasks : Tasks)
    (received : tasks.received = state.tasks.received) {later : List (Option Nat × Update)}
    (sent : tasks.sent = state.tasks.sent ++ later) :
    heard { state with tasks } = state.heard := by
  rw [heard, heard]
  dsimp only
  rw [received, sent, List.take_append_of_le_length inside]

theorem heard_move (inside : state.tasks.received ≤ state.tasks.sent.length) {tasks : Tasks}
    (move : Tasks.Move setting calls.anything state.tasks tasks) :
    heard { state with tasks } = state.heard := by
  cases move with
  | take idle accepted =>
      apply @heard_put state inside _ (Tasks.received_take _) []
      rw [Tasks.sent_take, List.append_nil]
  | mainAsks | taskAsks | taskVanishes => rfl
  | mainSends main room => exact heard_put inside _ rfl rfl
  | taskSends spawned room => exact heard_put inside _ rfl rfl

theorem heard_press (rtt : Nat) (event : KeyEvent) :
    (state.press rtt event).heard = state.heard := by
  rw [heard, tasks_press]
  rfl

theorem heard_fetch (rtt : Nat) : (state.fetch rtt).heard = state.heard := by
  rw [heard, tasks_fetch]
  rfl

theorem heard_receive {source : Option Nat} {update : Update} {rest : List (Option Nat × Update)}
    (waiting : state.tasks.updates = (source, update) :: rest) :
    (state.receive update).heard = state.heard ++ [(source, update)] := by
  rw [Browse.heard, tasks_receive]
  exact Tasks.take_sent_succ waiting

/-! ## Nothing is asked for -/

theorem ShowsAnswer.of_same {number : Nat} {key : Str} (shows : state.ShowsAnswer number key)
    (heard : next.heard = state.heard) (detail : next.app.detail = state.app.detail) :
    next.ShowsAnswer number key := by
  have detailKey : next.app.detailKey = state.app.detailKey := by
    rw [App.detailKey, detail, App.detailKey]
  intro before update after split
  rw [detailKey]
  exact shows before update after (heard ▸ split)

theorem CatchesUp.of_same (catchesUp : state.CatchesUp) (app : next.app = state.app)
    (accepted : next.tasks.accepted = state.tasks.accepted) (heard : next.heard = state.heard) :
    next.CatchesUp := by
  intro key pending
  rcases catchesUp key (app ▸ pending) with ⟨number, asked, shows⟩
  exact ⟨number, asked.of_same accepted, shows.of_same heard (congrArg App.detail app)⟩

/-! ## Something is asked for -/

theorem CatchesUp.act (catchesUp : state.CatchesUp) (known : state.Known setting)
    {action : App → App} (once : ∀ app : App, app.core.AsksOnce (action app).core)
    (effect : ∀ app : App, app.SelectsOrKeeps (action app)) :
    (state.act action).CatchesUp := by
  intro key pending
  let before : App := { state.app with tx := { channel := state.channel } }
  let after : App := action before
  have tasks : (state.act action).tasks =
      { state.tasks with accepted := state.tasks.accepted ++ after.tx.accepted } := rfl
  have heard : (state.act action).heard = state.heard := rfl
  have pending : after.selection.pendingKey = some key := pending
  have asks : after.tx.accepted = [] ∨ ∃ request, after.tx.accepted = [request] := by
    rcases once before with nothing | ⟨_, request, one⟩
    · exact .inl nothing
    · exact .inr ⟨request, one⟩
  rcases (effect before).cases with kept | cleared | dropped | ⟨path, asked⟩
  · have same : state.app.pendingKey = some key :=
      (congrArg Selection.pendingKey kept).symm.trans pending
    have detail : (state.act action).app.detail = state.app.detail :=
      congrArg Selection.detail kept
    have selects : after.tx.accepted.filterMap selectKey = [] := congrArg Selection.selects kept
    rcases catchesUp key same with ⟨number, asked, shows⟩
    refine ⟨number, ?_, shows.of_same heard detail⟩
    rw [tasks]
    rcases asks with nothing | ⟨request, one⟩
    · rw [nothing, List.append_nil]
      exact asked
    · rw [one] at selects ⊢
      apply asked.append
      cases other : selectKey request with
      | none => rfl
      | some path => simp [other] at selects
  · simp [after, before, cleared] at pending
  · simp [after, before, dropped] at pending
  · have selects : after.tx.accepted.filterMap selectKey = [path] :=
      congrArg Selection.selects asked
    have same : path = key := by
      have waiting := congrArg Selection.pendingKey asked
      exact Option.some.inj (waiting.symm.trans pending)
    rcases asks with nothing | ⟨request, one⟩
    · rw [nothing] at selects
      cases selects
    · have isSelect : request = .select key := by
        rw [one] at selects
        cases request with
        | select asked =>
            cases selects
            rw [same]
        | _ => cases selects
      refine ⟨state.tasks.accepted.length, ?_, ?_⟩
      · rw [tasks, one, isSelect]
        exact lastAsked_select state.tasks key
      · intro front update back split
        have member : (some state.tasks.accepted.length, update) ∈ state.heard := by
          rw [heard] at split
          simp [split]
        have early := (known.serves.sent _ _ (List.mem_of_mem_take member)).1
        exact (early.trans_le known.serves.taken_le).false.elim

/-! ## An update is taken -/

/-- Other updates leave alone what is shown. -/
theorem detail_apply (app : App) {update : Update} (keeps : isReset update = false)
    (other : ∀ keyMeta value stream, update ≠ .detail keyMeta value stream) :
    (app.apply update).detail = app.detail := by
  cases update with
  | batch keys reset complete scannedPages =>
      cases keeps
      rfl
  | detail keyMeta value stream => exact absurd rfl (other keyMeta value stream)
  | jobs jobState data =>
      rw [App.apply, App.applyJobs]
      split <;> rfl
  | _ => rfl

/-- What an update does to the key that is shown. -/
theorem detailKey_apply {app : App} {key : Str} (pending : app.pendingKey = some key)
    (update : Update) :
    (app.apply update).detailKey = some key ∨
      (app.apply update).detailKey = none ∧ isReset update ∨
      (app.apply update).detailKey = app.detailKey ∧
        ∀ keyMeta value stream, update = .detail keyMeta value stream → keyMeta.key ≠ key := by
  by_cases isDetail : ∃ keyMeta value stream, update = .detail keyMeta value stream
  · rcases isDetail with ⟨keyMeta, value, stream, rfl⟩
    by_cases wanted : keyMeta.key = key
    · left
      have applied : app.applyDetail keyMeta value stream =
          { app with
            detailScroll := 0, stream, detail := some (keyMeta, value), error := none } :=
        if_pos (pending.trans (congrArg some wanted.symm))
      rw [App.apply, applied]
      exact congrArg some wanted
    · right
      right
      have ignored : app.applyDetail keyMeta value stream = app := by
        apply if_neg
        intro same
        exact wanted (Option.some.inj (same.symm.trans pending))
      rw [App.apply, ignored]
      refine ⟨rfl, ?_⟩
      rintro _ _ _ ⟨⟩
      exact wanted
  · right
    cases resets : isReset update with
    | true =>
        left
        cases update with
        | batch keys reset complete scannedPages =>
            cases resets
            exact ⟨rfl, rfl⟩
        | _ => cases resets
    | false =>
        right
        have same := detail_apply app resets fun keyMeta value stream same =>
          isDetail ⟨keyMeta, value, stream, same⟩
        refine ⟨by rw [App.detailKey, same, App.detailKey], ?_⟩
        intro keyMeta value stream same
        exact absurd ⟨keyMeta, value, stream, same⟩ isDetail

/-- What answers a `Select` is the key's detail, or its read has failed. -/
theorem isError_or_detail_of_expects {key : Str} {update : Update}
    (fits : (Request.select key).Expects update) :
    isError update ∨ ∃ keyMeta value stream, update = .detail keyMeta value stream ∧
      keyMeta.key = key := by
  cases update with
  | detail keyMeta value stream => exact .inr ⟨keyMeta, value, stream, rfl, fits⟩
  | error message => exact .inl rfl
  | _ => cases fits

theorem CatchesUp.receive (catchesUp : state.CatchesUp) (known : state.Known setting)
    {source : Option Nat} {update : Update} {rest : List (Option Nat × Update)}
    (waiting : state.tasks.updates = (source, update) :: rest) :
    (state.receive update).CatchesUp := by
  intro key pending
  have heard := heard_receive waiting
  rw [app_receive] at pending
  have before : state.app.pendingKey = some key :=
    (state.app.keepsChoices_apply update).pendingKey.symm.trans pending
  rcases catchesUp key before with ⟨number, asked, shows⟩
  refine ⟨number, ?_, ?_⟩
  · rw [tasks_receive]
    exact asked.of_same rfl
  · intro front answer back split
    rw [heard] at split
    rw [app_receive]
    rcases List.eq_nil_or_concat back with rfl | ⟨back, last, rfl⟩
    · -- This is the answer.
      have same : (source, update) = (some number, answer) := by
        have ends := congrArg List.getLast? split
        simpa using ends
      cases same
      have sent := Tasks.mem_sent_of_waiting waiting
      rcases known.serves.sent number update sent with ⟨_, request, accepted, fits⟩
      cases accepted.symm.trans asked.accepted
      rcases isError_or_detail_of_expects fits with failed | ⟨keyMeta, value, stream, rfl, isKey⟩
      · exact .inl failed
      · rcases detailKey_apply before (.detail keyMeta value stream) with
          shown | ⟨_, reset⟩ | ⟨_, ignored⟩
        · exact .inr (.inl shown)
        · cases reset
        · exact absurd isKey (ignored _ _ _ rfl)
    · -- The answer was taken before.
      have parts : state.heard = front ++ (some number, answer) :: back ∧
          (source, update) = last := by
        have split : state.heard ++ [(source, update)] =
            (front ++ (some number, answer) :: back) ++ [last] := by
          simpa using split
        simpa using List.append_inj' split rfl
      rcases shows front answer back parts.1 with failed | earlier
      · exact .inl failed
      right
      rcases detailKey_apply before update with shown | ⟨cleared, reset⟩ | ⟨kept, _⟩
      · exact .inl shown
      · exact .inr ⟨cleared, last, by simp, parts.2 ▸ reset⟩
      · rw [kept]
        rcases earlier with shown | ⟨cleared, entry, member, reset⟩
        · exact .inl shown
        · exact .inr ⟨cleared, entry, by simp [member], reset⟩

/-! ## Every run -/

theorem CatchesUp.rearm (catchesUp : state.CatchesUp) : (state.rearm rtt).CatchesUp :=
  catchesUp.of_same (app_rearm rtt) (congrArg Tasks.accepted (tasks_rearm rtt))
    (heard_of_tasks (tasks_rearm rtt))

theorem CatchesUp.step (catchesUp : state.CatchesUp) (known : state.Known setting)
    (step : Step setting calls.anything rtt state event next) : next.CatchesUp := by
  cases step with
  | key runs event =>
      apply CatchesUp.rearm
      exact catchesUp.act known (fun app => app.asksOnce_handleKey event) fun app =>
        (app.keyPress_handleKey event).selection
  | fetch runs armed due =>
      have disarmed : CatchesUp { state with fetchAt := none } := catchesUp.of_same rfl rfl rfl
      apply CatchesUp.rearm
      apply disarmed.act ⟨known.serves, known.delivers, known.inside, known.events⟩
        App.asksOnce_flushSelection
      exact fun app => .inr ⟨app, rfl, rfl⟩
  | receive runs waiting => exact catchesUp.receive known waiting
  | tick runs due =>
      intro key pending
      rcases catchesUp key pending with ⟨number, asked, shows⟩
      refine ⟨number, ?_, shows.of_same rfl rfl⟩
      have tasks : (state.tick rtt).tasks = { state.tasks with
          accepted := state.tasks.accepted ++
            if state.channel = .room then [.refreshInfo] else [] } := rfl
      rw [tasks]
      split
      next => exact asked.append rfl
      next =>
          rw [List.append_nil]
          exact asked
  | wait time => exact catchesUp.of_same rfl rfl rfl
  | read attached room events =>
      exact catchesUp.of_same rfl rfl (heard_put known.inside _ rfl rfl)
  | work move =>
      exact catchesUp.of_same rfl (Tasks.accepted_of_drains (.move move))
        (heard_move known.inside move)

variable {heeds : Browse → BrowseEvent → Prop} {lens : BullMqLens} {server : ServerInfo} {url : Str}

theorem catchesUp_of_reachable {may : calls.Answers}
    (reachable : Reachable setting may rtt heeds lens server url state) : state.CatchesUp := by
  induction reachable with
  | start => exact nofun
  | next before _ step ih => exact ih.step (Reachable.known before) (step.mono fun _ _ _ => trivial)

/-- When the browser comes to rest, the key that it waits for has been read; the pane
shows that key, unless the read failed or a rescan was answered after it. -/
theorem value_pane_catches_up
    (reachable : Reachable setting calls.anything rtt (fun _ _ => True) lens server url state)
    (runs : state.app.quit = false) {key : Str} (pending : state.app.pendingKey = some key) :
    Inevitable (Drains setting calls.anything rtt)
      (fun rest => Rests (Drains setting calls.anything rtt) rest ∧
        ∃ number before update after, LastAsked rest.tasks number key ∧
          rest.heard = before ++ (some number, update) :: after ∧
          (isError update ∨ rest.app.detailKey = some key ∨
            rest.app.detailKey = none ∧ ∃ entry ∈ after, isReset entry.2)) state := by
  have waits (before after : Browse) (waiting : before.app.pendingKey = some key)
      (drains : Drains setting calls.anything rtt before after) :
      after.app.pendingKey = some key := by
    rcases drains with ⟨event, quiet, step⟩
    cases step with
    | key | fetch | tick | wait | read => cases quiet
    | work move => exact waiting
    | receive runs waits =>
        rw [app_receive]
        exact (before.app.keepsChoices_apply _).pendingKey.trans waiting
  have rests := inevitably_at_rest reachable runs (fun _ _ _ => trivial) fun _ =>
    catchesUp_of_reachable
  apply (rests.and_invariant waits pending).mono
  rintro rest ⟨⟨still, settled, _, caughtUp⟩, waiting⟩
  rcases caughtUp key waiting with ⟨number, asked, shows⟩
  have everything : rest.heard = rest.tasks.sent :=
    List.take_of_length_le (List.drop_eq_nil_iff.mp settled.delivered)
  have answered := settled.select number ⟨key, asked.accepted⟩ asked.last
  rcases List.mem_filterMap.mp answered with ⟨⟨source, update⟩, sent, rfl⟩
  rw [← everything] at sent
  rcases List.append_of_mem sent with ⟨before, after, split⟩
  exact ⟨still, number, before, update, after, asked, split, shows before update after split⟩

/-- The first of two keys is fetched. -/
theorem value_pane_catches_up_first :
    ∃ state : Browse, state.app.pendingKey = some "a".toList ∧
      Inevitable (Drains plainSetting calls.anything 0)
        (fun rest => Rests (Drains plainSetting calls.anything 0) rest ∧
          ∃ number before update after, LastAsked rest.tasks number "a".toList ∧
            rest.heard = before ++ (some number, update) :: after ∧
            (isError update ∨ rest.app.detailKey = some "a".toList ∨
              rest.app.detailKey = none ∧ ∃ entry ∈ after, isReset entry.2)) state := by
  rcases exists_listed with ⟨⟨app, tasks, now, fetchAt, tickAt, attached⟩, reachable, listed, loop,
    asked, answered⟩
  cases listed
  cases answered
  have pressed := reachable.next trivial (.key rfl { code := .char 'g' })
  exact ⟨_, rfl, value_pane_catches_up pressed rfl rfl⟩

end Browse

end Keylens.Tui
