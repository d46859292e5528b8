import Keylens.Tui.Cursors
import Keylens.Tui.TreeKeys
import Keylens.Ui.Counts

/-!
# The number of rows on the screen

The tree of the app always folds chains and is always the set of some keys, so it
has fewer rows without a key than keys, even with every branch open.
-/

namespace Keylens.Tui

open Keylens.Library Keylens.Connection Keylens.BullMq Keylens.Ui Keylens.Backend

/-- A tree that folds chains and is the set of some keys. -/
structure Grown (tree : KeyTree) : Prop where
  compact : tree.compact
  holds : ∃ entries, tree.Holds entries

namespace Grown

variable {tree other : KeyTree}

/-- A tree with the same nodes. -/
theorem of_root_eq (grown : Grown tree) (root : other.root = tree.root)
    (total : other.total = tree.total) (compact : other.compact = tree.compact) : Grown other := by
  rcases grown with ⟨folds, entries, holds⟩
  exact ⟨compact.trans folds, entries, holds.of_root_eq root total⟩

theorem toggle (grown : Grown tree) (path : Str) : Grown (tree.toggle path).1 := by
  have same := KeyTree.toggle_root tree path
  apply grown.of_root_eq same.1 same.2
  rw [KeyTree.toggle]
  split
  · rfl
  · split <;> rfl

theorem insertWithKind (grown : Grown tree) (key : Str) (kind : Option Kind) :
    Grown (tree.insertWithKind key kind) := by
  rcases grown with ⟨folds, entries, holds⟩
  exact ⟨(KeyTree.insertWithKind_open tree key kind).2.trans folds, _,
    holds.insertWithKind key kind⟩

theorem insertAll (grown : Grown tree) (keys : List (Str × Option Kind)) :
    Grown (keys.foldl (fun tree (key, kind) => tree.insertWithKind key kind) tree) := by
  induction keys generalizing tree with
  | nil => exact grown
  | cons entry keys ih => exact ih (grown.insertWithKind entry.1 entry.2)

theorem clearKeys (grown : Grown tree) : Grown tree.clearKeys :=
  ⟨grown.compact, [], .empty rfl rfl⟩

theorem apply {app : App} (grown : Grown app.tree) (update : Update) :
    Grown (app.apply update).tree := by
  have stays (notBatch : ∀ keys reset complete pages, update ≠ .batch keys reset complete pages) :
      Grown (app.apply update).tree := by
    rw [(app.keepsKeys_apply notBatch).tree]
    exact grown
  cases update with
  | batch keys reset complete scannedPages =>
      change Grown (keys.foldl (fun tree (key, kind) => tree.insertWithKind key kind)
        (if reset then app.resetTree else app).tree)
      apply insertAll
      cases reset with
      | true => exact grown.clearKeys
      | false => exact grown
  | _ => exact stays nofun

end Grown

namespace Intent

theorem tree_send (core : Core) (request : Request) : (core.send request).tree = core.tree :=
  congrArg Prod.fst (core.cursors_send request)

theorem tree_loadJobs (core : Core) : core.loadJobs.tree = core.tree := by
  rw [Core.loadJobs]
  split
  · rfl
  · exact tree_send core _

theorem tree_loadJob (core : Core) : core.loadJob.tree = core.tree := by
  rw [Core.loadJob]
  split
  · exact tree_send core _
  · rfl

/-- Only one intent shows another tree. -/
theorem tree_run {intent : Intent} (core : Core) :
    (intent.run core).tree = core.tree ∨ intent = .retree (intent.run core).tree := by
  cases intent with
  | stay | leave => exact .inl rfl
  | rescan | more | refreshInfo => exact .inl (tree_send core _)
  | loadSlowlog | loadClients | loadCluster | loadPubSub | loadQueues =>
      exact .inl (tree_send core _)
  | listJobs | openQueue | cycle => exact .inl (tree_loadJobs _)
  | showJob | openJob => exact .inl (tree_loadJob _)
  | moveQueue delta =>
      left
      rcases core.moveQueue_eq delta with ⟨queueSelected, moved⟩
      rw [run, moved]
  | moveJob delta =>
      left
      rcases core.moveJob_eq delta with ⟨jobSelected, moved⟩
      rw [run, moved]
  | retree tree => exact .inr rfl
  | jumpToParent =>
      left
      rw [run]
      split <;> rfl
  | walk delta =>
      left
      rcases core.walk_eq delta with ⟨selected, selectionDirty, error, walked⟩
      rw [run, walked]
  | fetchFirst | fetchLast | fetchHere => exact .inl (congrArg Prod.fst (Core.cursors_flush _))

end Intent

namespace App

variable {app : App}

theorem grown_handleKey (grown : Grown app.tree) (key : KeyEvent) :
    Grown (app.handleKey key).tree := by
  change Grown (app.handleKey key).core.tree
  rw [app.core_handleKey key]
  rcases @Intent.tree_run (app.intent key) app.core with same | retrees
  · rw [same]
    exact grown
  · rcases app.tree_of_retree key retrees with expanded | collapsed | ⟨path, toggled⟩
    · rw [expanded]
      exact grown.of_root_eq rfl rfl rfl
    · rw [collapsed]
      exact grown.of_root_eq rfl rfl rfl
    · rw [toggled]
      exact grown.toggle path

theorem grown_step (grown : Grown app.tree) (input : AppInput) : Grown (app.step input).tree := by
  cases input with
  | key event channel =>
      let before : App := { app with tx := { channel } }
      have kept : Grown before.tree := grown
      exact grown_handleKey kept event
  | flush channel =>
      let before : App := { app with tx := { channel } }
      have kept := congrArg Prod.fst before.core.cursors_flush
      rw [← core_flushSelection] at kept
      change Grown before.flushSelection.core.tree
      rw [show before.flushSelection.core.tree = before.core.tree from kept]
      exact grown
  | update update => exact grown.apply update

/-- In every run the tree of the app folds chains and is the set of some keys. -/
theorem grown_run (server : ServerInfo) (url : Str) (tx : Sender) (inputs : List AppInput) :
    Grown (run step (App.new server url tx) inputs).tree := by
  have preserves (app : App) (input : AppInput) (grown : Grown app.tree) :
      Grown (step app input).tree := grown_step grown input
  have initially : Grown (App.new server url tx).tree := ⟨rfl, [], .empty rfl rfl⟩
  exact run_invariant_of_step preserves initially inputs

/-- The rows after `E`. -/
theorem rows_handleKey_expandAll {key : KeyEvent} (normal : app.mode = .normal)
    (keys : app.view = .keys) (expands : key.code = .char 'E') :
    (app.handleKey key).rows =
      if app.tree.total ≤ 5000 then app.tree.expandAll.rows else app.rows := by
  have intent : app.intent key =
      if app.tree.total ≤ 5000 then .retree app.tree.expandAll else .stay := by
    have letter : ('E' : Char).isDigit = false := by decide
    simp [App.intent, normalIntent, charIntent, viewIntent, keysViewIntent, normal, keys, expands,
      letter]
  have rows := congrArg Core.rows (app.core_handleKey key)
  rw [intent] at rows
  rw [show (app.handleKey key).rows = (app.handleKey key).core.rows from rfl, rows]
  split <;> rfl

/-- A tree that folds chains has forks and keys for rows, so fewer rows than twice
its keys; and `E` never shows more than 9,999 rows. -/
theorem compact_rows_bounded :
    (∀ ops expanded,
      let tree : KeyTree := { KeyTree.run ops with expanded, compact := true }
      (∀ line ∈ tree.lines, ¬line.row.isKey →
        line.row.isBranch ∧ 2 ≤ line.node.children.length) ∧
      (0 < tree.len → tree.rows.length ≤ 2 * tree.len - 1) ∧
      (tree.len = 0 → tree.rows.length = 0)) ∧
    ∀ server url tx inputs key channel,
      let app := run step (App.new server url tx) inputs
      app.mode = .normal → app.view = .keys → key.code = .char 'E' →
        (app.step (.key key channel)).rows.length ≤ 9999 ∨
          5000 < app.tree.len ∧ (app.step (.key key channel)).rows = app.rows := by
  constructor
  · intro ops expanded tree
    have holds : tree.Holds (inserted ops) := (KeyTree.holds_run ops).of_root_eq rfl rfl
    have bound := holds.length_rows_le rfl
    refine ⟨?_, fun _ => bound, ?_⟩
    · intro line member noKey
      exact holds.fork_of_mem_lines rfl member noKey
    · intro empty
      rw [empty] at bound
      exact Nat.le_zero.mp bound
  · intro server url tx inputs key channel app normal keys expands
    have rows : (app.step (.key key channel)).rows =
        if app.tree.total ≤ 5000 then app.tree.expandAll.rows else app.rows :=
      @rows_handleKey_expandAll { app with tx := { channel } } key normal keys expands
    rw [rows]
    split
    next few =>
        left
        have grown : Grown app.tree.expandAll :=
          (grown_run server url tx inputs).of_root_eq rfl rfl rfl
        rcases grown with ⟨compact, entries, holds⟩
        have bound := holds.length_rows_le compact
        have same : app.tree.expandAll.len = app.tree.total := rfl
        rw [same] at bound
        omega
    next many => exact .inr ⟨Nat.lt_of_not_le many, rfl⟩

end App

end Keylens.Tui
