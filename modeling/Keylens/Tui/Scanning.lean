import Keylens.Tui.Apply
import Keylens.Connection.Redis
import Keylens.Library.Runs
import Keylens.Ui.Keys
import Keylens.Backend.Batch

/-!
# Whether two scans mix in the tree

The worker answers the scanning requests in order, and the app applies the
answers in order.  The answer to a `Rescan` carries the mark that clears the
tree; when it is an error, the mark is lost, and the next `More` puts the keys of
the new scan beside those of the old one.

`updates` keeps every answer the worker has sent, each with the number of the
`Rescan` it belongs to; the first `applied` of them have arrived.
-/

namespace Keylens.Tui

open Keylens.Library Keylens.Connection Keylens.BullMq Keylens.Ui Keylens.Backend

/-- The app, the worker's scanner and the messages between them. -/
structure Scanning where
  app : App
  worker : Worker := {}
  requests : List Request := []
  rescans : Nat := 0
  updates : List (Nat × Update) := []
  applied : Nat := 0

inductive ScanningInput where
  | request (request : Request)
  /-- The worker handles the oldest request. -/
  | handle (scene : Scene)
  /-- The oldest update that is on its way arrives. -/
  | arrive

namespace Scanning

/-- The worker has answered a request of the current scan. -/
def answer (state : Scanning) (result : Worker × Update) : Scanning :=
  { state with worker := result.1, updates := state.updates ++ [(state.rescans, result.2)] }

def step (state : Scanning) : ScanningInput → Scanning
  | .request request => { state with requests := state.requests ++ [request] }
  | .handle scene =>
      match state.requests with
      | .rescan pattern kind :: requests =>
          { state with requests, rescans := state.rescans + 1 }.answer
            (state.worker.rescan scene pattern kind)
      | .more :: requests => { state with requests }.answer (state.worker.more scene)
      -- The answers to other requests hold no keys of a scan.
      | _ :: requests => { state with requests }
      | [] => state
  | .arrive =>
      match state.updates[state.applied]? with
      | some (_, update) =>
          { state with app := state.app.apply update, applied := state.applied + 1 }
      | none => state

/-- A batch with some key has arrived for a scan. -/
def HasKey (updates : List (Nat × Update)) (scan : Nat) (key : Str) : Prop :=
  ∃ keys reset complete pages,
    (scan, Update.batch keys reset complete pages) ∈ updates ∧ key ∈ keys.map Prod.fst

/-- No batch has been sent for a scan. -/
def Unanswered (updates : List (Nat × Update)) (scan : Nat) : Prop :=
  ∀ keys reset complete pages, (scan, Update.batch keys reset complete pages) ∉ updates

/-- All keys in the tree come from one scan, and the first batch after a
`Rescan` clears the tree. -/
structure Separate (state : Scanning) : Prop where
  oneScan : ∃ scan, ∀ key, state.app.tree.contains key →
    HasKey (state.updates.take state.applied) scan key
  firstResets : ∀ before scan keys reset complete pages after,
    state.updates = before ++ (scan, .batch keys reset complete pages) :: after →
      1 ≤ scan → Unanswered before scan → reset = true

/-- A `More` that is handled while the last `Rescan` has not been answered by a
batch meets an error again. -/
def AnswersRescan (state : Scanning) : ScanningInput → Prop
  | .handle _ =>
      match state.requests with
      | .more :: _ =>
          1 ≤ state.rescans → Unanswered state.updates state.rescans →
            MeetsError state.worker.unread
      | _ => True
  | _ => True

/-! ## The order of the answers -/

/-- The scan whose keys are in the tree after some updates. -/
def shownAfter (updates : List (Nat × Update)) : Nat :=
  updates.foldl (fun shown (scan, update) =>
    match update with
    | .batch _ true _ _ => scan
    | _ => shown) 0

/-- A batch that does not clear the tree belongs to the scan that is shown. -/
def InOrder (updates : List (Nat × Update)) : Prop :=
  ∀ before scan keys complete pages after,
    updates = before ++ (scan, .batch keys false complete pages) :: after →
      scan = shownAfter before

theorem shownAfter_concat (updates : List (Nat × Update)) (scan : Nat) (update : Update) :
    shownAfter (updates ++ [(scan, update)]) =
      match update with
      | .batch _ true _ _ => scan
      | _ => shownAfter updates := by
  rw [shownAfter, List.foldl_append]
  rfl

/-- What is shown is the scan of a batch. -/
theorem answered_shownAfter {updates : List (Nat × Update)} (shown : 1 ≤ shownAfter updates) :
    ¬Unanswered updates (shownAfter updates) := by
  induction updates using List.reverseRecOn with
  | nil => cases shown
  | append_singleton updates entry ih =>
      rcases entry with ⟨scan, update⟩
      have earlier (still : shownAfter (updates ++ [(scan, update)]) = shownAfter updates) :
          ¬Unanswered (updates ++ [(scan, update)])
            (shownAfter (updates ++ [(scan, update)])) := by
        intro unanswered
        rw [still] at shown unanswered
        apply ih shown
        intro keys reset complete pages member
        exact unanswered keys reset complete pages (List.mem_append_left _ member)
      cases update with
      | batch keys reset complete pages =>
          cases reset with
          | false => exact earlier (shownAfter_concat ..)
          | true =>
              intro unanswered
              rw [shownAfter_concat] at unanswered
              exact unanswered keys true complete pages (by simp)
      | _ => exact earlier (shownAfter_concat ..)

/-- The answers that the worker has sent so far. -/
structure Answers (rescans : Nat) (updates : List (Nat × Update)) : Prop where
  tagged : ∀ entry ∈ updates, entry.1 ≤ rescans
  ordered : InOrder updates
  current : shownAfter updates = rescans ∨ Unanswered updates rescans

variable {rescans scan : Nat} {updates : List (Nat × Update)} {update : Update}

theorem shownAfter_le (tagged : ∀ entry ∈ updates, entry.1 ≤ rescans) :
    shownAfter updates ≤ rescans := by
  induction updates using List.reverseRecOn with
  | nil => exact Nat.zero_le rescans
  | append_singleton updates entry ih =>
      rcases entry with ⟨scan, update⟩
      rw [shownAfter_concat]
      split
      next keys complete pages => exact tagged (scan, .batch keys true complete pages) (by simp)
      next => exact ih fun entry member => tagged entry (List.mem_append_left _ member)

theorem InOrder.concat (ordered : InOrder updates)
    (allowed : ∀ keys complete pages, update = .batch keys false complete pages →
      scan = shownAfter updates) : InOrder (updates ++ [(scan, update)]) := by
  intro before other keys complete pages after split
  rcases List.eq_nil_or_concat after with rfl | ⟨rest, last, rfl⟩
  · rcases List.append_inj' split rfl with ⟨rfl, same⟩
    cases same
    exact allowed keys complete pages rfl
  · rw [List.concat_eq_append, ← List.cons_append, ← List.append_assoc] at split
    exact ordered before other keys complete pages rest (List.append_inj' split rfl).1

/-- A new scan has no answers yet. -/
theorem Answers.next (answers : Answers rescans updates) : Answers (rescans + 1) updates := by
  refine ⟨fun entry member => Nat.le_succ_of_le (answers.tagged entry member),
    answers.ordered, .inr ?_⟩
  intro keys reset complete pages member
  exact Nat.not_succ_le_self rescans (answers.tagged _ member)

/-- One more answer: a batch that does not clear the tree must come after one
that does. -/
theorem Answers.concat (answers : Answers rescans updates)
    (allowed : ∀ keys complete pages, update = .batch keys false complete pages →
      rescans = shownAfter updates) :
    Answers rescans (updates ++ [(rescans, update)]) := by
  refine ⟨?_, answers.ordered.concat allowed, ?_⟩
  · intro entry member
    rcases List.mem_append.mp member with earlier | last
    · exact answers.tagged entry earlier
    · exact (congrArg Prod.fst (List.mem_singleton.mp last)).le
  · rw [shownAfter_concat]
    have stays (notBatch : ∀ keys reset complete pages, update ≠ .batch keys reset complete pages) :
        shownAfter updates = rescans ∨ Unanswered (updates ++ [(rescans, update)]) rescans := by
      apply answers.current.imp_right
      intro unanswered keys reset complete pages member
      rcases List.mem_append.mp member with earlier | last
      · exact unanswered keys reset complete pages earlier
      · exact notBatch keys reset complete pages
          (congrArg Prod.snd (List.mem_singleton.mp last)).symm
    cases update with
    | batch keys reset complete pages =>
        cases reset with
        | true => exact .inl rfl
        | false => exact .inl (allowed keys complete pages rfl).symm
    | _ => exact stays nofun

theorem Answers.firstResets (answers : Answers rescans updates) {before after : List (Nat × Update)}
    {keys : List (Str × Option Kind)} {reset complete : Bool} {pages : Nat}
    (split : updates = before ++ (scan, .batch keys reset complete pages) :: after)
    (opened : 1 ≤ scan) (unanswered : Unanswered before scan) : reset = true := by
  cases reset with
  | true => rfl
  | false =>
      have shown : scan = shownAfter before :=
        answers.ordered before scan keys complete pages after split
      rw [shown] at opened unanswered
      exact absurd unanswered (answered_shownAfter opened)

/-! ## The keys in the tree -/

/-- The keys in a tree are of the scan that is shown after some updates. -/
def Shows (tree : KeyTree) (updates : List (Nat × Update)) : Prop :=
  ∀ key, tree.contains key → HasKey updates (shownAfter updates) key

theorem HasKey.concat {key : Str} (hasKey : HasKey updates scan key) (entry : Nat × Update) :
    HasKey (updates ++ [entry]) scan key := by
  rcases hasKey with ⟨keys, reset, complete, pages, member, isKey⟩
  exact ⟨keys, reset, complete, pages, List.mem_append_left _ member, isKey⟩

theorem contains_applyBatch (app : App) (keys : List (Str × Option Kind)) (reset complete : Bool)
    (pages : Nat) (key : Str) :
    (app.applyBatch keys reset complete pages).tree.contains key →
      reset = false ∧ app.tree.contains key ∨ key ∈ keys.map Prod.fst := by
  change (keys.foldl _ (if reset then app.resetTree else app).tree).contains key → _
  rw [KeyTree.contains_foldl_insertWithKind]
  cases reset with
  | false => exact Or.imp (fun before => ⟨rfl, before⟩) And.right
  | true => simp [App.resetTree]

theorem Shows.apply {app : App} (shows : Shows app.tree updates)
    (allowed : ∀ keys complete pages, update = .batch keys false complete pages →
      scan = shownAfter updates) :
    Shows (app.apply update).tree (updates ++ [(scan, update)]) := by
  intro key contained
  rw [shownAfter_concat]
  have stays (notBatch : ∀ keys reset complete pages, update ≠ .batch keys reset complete pages) :
      HasKey (updates ++ [(scan, update)]) (shownAfter updates) key := by
    rw [(app.keepsKeys_apply notBatch).tree] at contained
    exact (shows key contained).concat _
  cases update with
  | batch keys reset complete pages =>
      rcases contains_applyBatch app keys reset complete pages key contained with
        ⟨rfl, before⟩ | isKey
      · exact (shows key before).concat _
      · have delivered : HasKey (updates ++ [(scan, .batch keys reset complete pages)]) scan key :=
          ⟨keys, reset, complete, pages, by simp, isKey⟩
        cases reset with
        | true => exact delivered
        | false =>
            rw [allowed keys complete pages rfl] at delivered
            exact (allowed keys complete pages rfl) ▸ delivered
  | _ => exact stays nofun

/-! ## Every run -/

/-- The app and the worker agree on the scan that is going on. -/
structure Agree (state : Scanning) : Prop where
  scanner : state.rescans = 0 ∧ state.worker.scanner = none ∨
    ∃ kind unread, state.worker.Before kind unread
  answers : Answers state.rescans state.updates
  applied_le : state.applied ≤ state.updates.length
  shows : Shows state.app.tree (state.updates.take state.applied)

variable {state : Scanning}

theorem Agree.separate (agree : state.Agree) : state.Separate where
  oneScan := ⟨_, agree.shows⟩
  firstResets _ _ _ _ _ _ _ split opened unanswered :=
    agree.answers.firstResets split opened unanswered

theorem Agree.with_requests (agree : state.Agree) (requests : List Request) :
    { state with requests }.Agree :=
  ⟨agree.scanner, agree.answers, agree.applied_le, agree.shows⟩

/-- The worker's answer is in its place. -/
theorem Agree.answer (agree : state.Agree) {worker : Worker}
    (scanner : state.rescans = 0 ∧ worker.scanner = none ∨
      ∃ kind unread, worker.Before kind unread)
    (allowed : ∀ keys complete pages, update = .batch keys false complete pages →
      state.rescans = shownAfter state.updates) :
    (state.answer (worker, update)).Agree where
  scanner := scanner
  answers := agree.answers.concat allowed
  applied_le := by
    rw [Scanning.answer, List.length_append]
    exact Nat.le_add_right_of_le agree.applied_le
  shows := by
    rw [Scanning.answer, List.take_append_of_le_length agree.applied_le]
    exact agree.shows

/-- The worker answers a `Rescan`. -/
theorem Agree.rescan (agree : state.Agree) (scene : Scene) (pattern : Option Str)
    (kind : Option Kind) :
    ({ state with rescans := state.rescans + 1 }.answer
      (state.worker.rescan scene pattern kind)).Agree := by
  let opened : Worker := state.worker.openScan scene pattern kind
  have before : opened.Before kind opened.unread :=
    state.worker.before_openScan scene pattern kind
  have next : { state with
      rescans := state.rescans + 1
      worker := opened }.Agree :=
    ⟨.inr ⟨kind, opened.unread, before⟩, agree.answers.next, agree.applied_le, agree.shows⟩
  by_cases meets : MeetsError opened.unread
  · rcases scanBatch_of_meetsError before meets scene.conn true with
      ⟨worker, after, message, answered, standing⟩
    rw [Worker.rescan, answered]
    exact next.answer (.inr ⟨kind, after, standing⟩) nofun
  · rcases scanBatch_of_not_meetsError before meets scene.conn true with
      ⟨worker, after, keys, complete, pages, answered, standing⟩
    rw [Worker.rescan, answered]
    exact next.answer (.inr ⟨kind, after, standing⟩) nofun

/-- The worker answers a `More`. -/
theorem Agree.more (agree : state.Agree) (scene : Scene)
    (answers : 1 ≤ state.rescans → Unanswered state.updates state.rescans →
      MeetsError state.worker.unread) :
    (state.answer (state.worker.more scene)).Agree := by
  have shown : ¬MeetsError state.worker.unread → state.rescans = shownAfter state.updates := by
    intro meets
    rcases agree.answers.current with current | unanswered
    · exact current.symm
    · cases opened : state.rescans with
      | zero =>
          have bound : shownAfter state.updates ≤ state.rescans :=
            shownAfter_le agree.answers.tagged
          rw [opened] at bound
          exact (Nat.le_zero.mp bound).symm
      | succ rescans =>
          exact absurd (answers (by rw [opened]; exact Nat.succ_pos _) unanswered) meets
  rcases agree.scanner with ⟨unopened, noScanner⟩ | ⟨kind, unread, before⟩
  · rcases scanBatch_of_none noScanner scene.conn false with
      ⟨worker, keys, complete, pages, answered, stillNone⟩
    rw [Worker.more, answered]
    apply agree.answer (.inl ⟨unopened, stillNone⟩)
    intro _ _ _ _
    apply shown
    rintro ⟨taken, source, after, split, _⟩
    rw [Worker.unread, noScanner] at split
    cases taken <;> cases split
  · rw [before.unread_eq] at shown
    by_cases meets : MeetsError unread
    · rcases scanBatch_of_meetsError before meets scene.conn false with
        ⟨worker, after, message, answered, standing⟩
      rw [Worker.more, answered]
      apply agree.answer (.inr ⟨kind, after, standing⟩)
      intro _ _ _ isBatch
      cases isBatch
    · rcases scanBatch_of_not_meetsError before meets scene.conn false with
        ⟨worker, after, keys, complete, pages, answered, standing⟩
      rw [Worker.more, answered]
      exact agree.answer (.inr ⟨kind, after, standing⟩) fun _ _ _ _ => shown meets

/-- The oldest update on its way arrives. -/
theorem Agree.arrive (agree : state.Agree)
    (arriving : state.updates[state.applied]? = some (scan, update)) :
    { state with app := state.app.apply update, applied := state.applied + 1 }.Agree := by
  have bound : state.applied < state.updates.length := (List.getElem?_eq_some_iff.mp arriving).1
  have taken : state.updates.take (state.applied + 1) =
      state.updates.take state.applied ++ [(scan, update)] := by
    rw [List.take_add_one, arriving]
    rfl
  refine ⟨agree.scanner, agree.answers, bound, ?_⟩
  dsimp only
  rw [taken]
  apply agree.shows.apply
  rintro keys complete pages rfl
  apply agree.answers.ordered _ scan keys complete pages (state.updates.drop (state.applied + 1))
  calc
    state.updates = state.updates.take (state.applied + 1) ++
        state.updates.drop (state.applied + 1) := (List.take_append_drop _ _).symm
    _ = _ := by rw [taken, List.append_assoc, List.singleton_append]

theorem Agree.step (agree : state.Agree) (input : ScanningInput)
    (answers : state.AnswersRescan input) : (state.step input).Agree := by
  cases input with
  | request request => exact agree.with_requests _
  | handle scene =>
      rw [Scanning.step]
      split
      next pattern kind requests queued =>
          exact (agree.with_requests requests).rescan scene pattern kind
      next requests queued =>
          simp only [AnswersRescan, queued] at answers
          exact (agree.with_requests requests).more scene answers
      next requests _ _ _ => exact agree.with_requests requests
      next => exact agree
  | arrive =>
      rw [Scanning.step]
      split
      next scan update arriving => exact agree.arrive arriving
      next => exact agree

/-- A `More` that is the first to answer a `Rescan` does not clear the tree. -/
theorem Agree.not_separate_more (agree : state.Agree) (scene : Scene) (opened : 1 ≤ state.rescans)
    (unanswered : Unanswered state.updates state.rescans)
    (meets : ¬MeetsError state.worker.unread) :
    ¬(state.answer (state.worker.more scene)).Separate := by
  intro separate
  rcases agree.scanner with ⟨unopened, _⟩ | ⟨kind, unread, before⟩
  · rw [unopened] at opened
    cases opened
  · rw [before.unread_eq] at meets
    rcases scanBatch_of_not_meetsError before meets scene.conn false with
      ⟨worker, after, keys, complete, pages, answered, _⟩
    rw [Worker.more, answered] at separate
    cases separate.firstResets state.updates state.rescans keys false complete pages [] rfl opened
      unanswered

/-- How a step can fail the condition. -/
theorem more_of_not_answersRescan {input : ScanningInput} (fails : ¬state.AnswersRescan input) :
    ∃ scene requests, input = .handle scene ∧ state.requests = .more :: requests ∧
      1 ≤ state.rescans ∧ Unanswered state.updates state.rescans ∧
      ¬MeetsError state.worker.unread := by
  cases input with
  | request request => exact absurd trivial fails
  | arrive => exact absurd trivial fails
  | handle scene =>
      rw [AnswersRescan] at fails
      split at fails
      next requests queued =>
          simp only [Classical.not_imp] at fails
          exact ⟨scene, requests, rfl, queued, fails⟩
      next => exact absurd trivial fails

theorem Agree.not_separate_step (agree : state.Agree) (input : ScanningInput)
    (fails : ¬state.AnswersRescan input) : ¬(state.step input).Separate := by
  rcases more_of_not_answersRescan fails with
    ⟨scene, requests, rfl, queued, opened, unanswered, meets⟩
  simp only [Scanning.step, queued]
  exact (agree.with_requests requests).not_separate_more scene opened unanswered meets

theorem agree_start (server : ServerInfo) (url : Str) (tx : Sender) :
    Agree { app := App.new server url tx } where
  scanner := .inl ⟨rfl, rfl⟩
  answers := ⟨fun _ member => absurd member List.not_mem_nil,
    fun _ _ _ _ _ _ split => absurd split.symm (by simp), .inl rfl⟩
  applied_le := Nat.le_refl 0
  shows key contained := by
    rw [KeyTree.contains_of_root_eq rfl] at contained
    cases contained

/-- Throughout a run, no two scans mix, exactly when every step of the run meets
the condition. -/
theorem separate_iff_answersRescan (server : ServerInfo) (url : Str) (tx : Sender)
    (inputs : List ScanningInput) :
    (∀ front, front <+: inputs →
        (run step { app := App.new server url tx } front).Separate) ↔
      Along step AnswersRescan { app := App.new server url tx } inputs :=
  forall_prefix_iff_along (fun _ input agree answers => agree.step input answers)
    (fun _ agree => agree.separate)
    (fun _ input agree fails => agree.not_separate_step input fails) (agree_start server url tx)

/-- The scan of `a*`, the scan of `b*` that fails before it yields `b`, and a
`More`: both keys are in the tree. -/
theorem separate_fails_after_error :
    let scene (pages : Pages) : Scene :=
      { conn := Conn.answering plainApi plainWire (fun _ => none) {}
        keyScanner := fun _ _ _ => ⟨pages⟩ }
    let server : ServerInfo := { vendor := .redis, version := [], mode := [], fields := [] }
    let start : Scanning :=
      { app := App.new server "redis://localhost".toList { channel := .room } }
    let state := run step start
      [.request (.rescan (some "a*".toList) none), .request (.rescan (some "b*".toList) none),
        .request .more, .handle (scene [.ok ["a".toList]]),
        .handle (scene [.error stillLoading, .ok ["b".toList]]), .handle (scene []),
        .arrive, .arrive, .arrive]
    state.app.tree.contains "a".toList ∧ state.app.tree.contains "b".toList ∧
      ¬state.Separate := by
  intro scene server start state
  have first : state.app.tree.contains "a".toList := by decide +kernel
  have second : state.app.tree.contains "b".toList := by decide +kernel
  have arrived : state.updates.take state.applied =
      [(1, .batch [("a".toList, some .none)] true true 1),
        (2, .error (ConnError.command .scan stillLoading).text),
        (2, .batch [("b".toList, some .none)] false true 1)] := rfl
  refine ⟨first, second, fun separate => ?_⟩
  rcases separate.oneScan with ⟨scan, isOf⟩
  have ofFirst : scan = 1 := by
    rcases isOf _ first with ⟨keys, reset, complete, pages, member, isKey⟩
    rw [arrived] at member
    grind
  have ofSecond : scan = 2 := by
    rcases isOf _ second with ⟨keys, reset, complete, pages, member, isKey⟩
    rw [arrived] at member
    grind
  rw [ofFirst] at ofSecond
  cases ofSecond

end Scanning

end Keylens.Tui
