import Keylens.Tui.Browse
import Keylens.Backend.Handling

/-!
# The start of the browser

What the server answers may depend on what it was asked before.  The first two requests
are there from the start: the scan for queues and the scan of the keyspace.
-/

namespace Keylens.Tui

open Keylens.Library Keylens.Connection Keylens.BullMq Keylens.Ui Keylens.Backend

namespace Browse

/-- Where the browser gets when what may be answered depends on what was asked before. -/
def HostedReachable {σ : Type} (setting : Setting) (host : Host calls σ) (first : σ) (rtt : Nat)
    (heeds : Browse → BrowseEvent → Prop) (lens : BullMqLens) (server : ServerInfo) (url : Str) :
    Browse → Prop :=
  Reaches
    (fun before => Step setting (host.answers first before.tasks.asked) rtt before) heeds
    (start lens server url)

section Start

variable {σ : Type} {setting : Setting} {host : Host calls σ} {first : σ} {rtt : Nat}
variable {heeds : Browse → BrowseEvent → Prop} {lens : BullMqLens} {server : ServerInfo} {url : Str}

theorem HostedReachable.keptByMoves (state : Browse)
    (heeded : ∀ tasks, heeds { state with tasks } .work) :
    Tasks.KeptByMoves setting host first fun tasks =>
      HostedReachable setting host first rtt heeds lens server url { state with tasks } :=
  fun _ _ reachable move => reachable.next (heeded _) (.work move)

theorem Reachable.keptByMoves {may : calls.Answers} (state : Browse)
    (heeded : ∀ tasks, heeds { state with tasks } .work) :
    Tasks.KeptByMoves setting (Host.always may) () fun tasks =>
      Reachable setting may rtt heeds lens server url { state with tasks } :=
  HostedReachable.keptByMoves state heeded

variable {made listing : List Call} {found loop : Loop}

/-- The scan for queues is answered. -/
theorem HostedReachable.detects {update : Update}
    (runs : (Work.detect setting { bullmq := lens }).Runs host first made (found, update)) :
    HostedReachable setting host first rtt (fun _ _ => True) lens server url
      { start lens server url with
        tasks := (start lens server url).tasks.handled made found update } :=
  (keptByMoves (start lens server url) fun _ => trivial).handles .start rfl rfl rfl runs rfl

/-- There are no queues, and the first batch of keys is shown. -/
theorem HostedReachable.lists {keys : List (Str × Option Kind)} {complete : Bool} {pages : Nat}
    (detects : (Work.detect setting { bullmq := lens }).Runs host first made (found, .detected []))
    (lists : (Work.rescan setting.conn found none none).Runs host (host.after first made) listing
      (loop, .batch keys true complete pages)) :
    HostedReachable setting host first rtt (fun _ _ => True) lens server url
      { start lens server url with
        app := ((start lens server url).app.apply (.detected [])).apply
          (.batch keys true complete pages)
        tasks :=
          { loop, accepted := [.detect, .rescan none none], taken := 2, received := 2
            sent := [(some 0, .detected []), (some 1, .batch keys true complete pages)]
            asked := made ++ listing } } := by
  have answered : HostedReachable setting host first rtt (fun _ _ => True) lens server url _ :=
    .detects detects
  have detected := answered.next trivial (.receive rfl rfl)
  have listed := (keptByMoves _ fun _ => trivial).handles detected rfl rfl rfl lists rfl
  have shown := listed.next trivial (.receive rfl rfl)
  exact shown

end Start

/-! ## A browser that has listed two keys -/

def plainServer : ServerInfo :=
  { vendor := .redis, version := [], mode := [], fields := [] }

def plainStart : Browse :=
  start plainLens plainServer "redis://localhost".toList

/-- There are no queues, and of the two keys the types are not known. -/
def listedApp : App :=
  (plainStart.app.apply (.detected [])).apply
    (.batch [("a".toList, none), ("b".toList, none)] true true 1)

/-- The scan for queues and the scan of the keyspace take one page each. -/
theorem exists_listed :
    ∃ state : Browse, Reachable plainSetting calls.anything 0 (fun _ _ => True) plainLens
      plainServer "redis://localhost".toList state ∧ state.app = listedApp ∧
      ∃ loop asked, state.tasks =
        { loop, asked, accepted := [.detect, .rescan none none], taken := 2, received := 2
          sent := [(some 0, .detected []),
            (some 1, .batch [("a".toList, none), ("b".toList, none)] true true 1)] } := by
  have detects : (Work.detect plainSetting { bullmq := plainLens }).Runs
      (Host.always calls.anything) () _ ({ bullmq := plainLens }, .detected []) :=
    .ask (0 : Nat) trivial (.ask (.ok none) trivial .done)
  have lists : (Work.rescan plainSetting.conn { bullmq := plainLens } none none).Runs
      (Host.always calls.anything) () _
      (_, .batch [("a".toList, none), ("b".toList, none)] true true 1) :=
    .ask (0 : Nat) trivial (.ask (.ok (some ["a".toList, "b".toList])) trivial
      (.ask (.ok none) trivial (.ask (.error { kind := .protocol, details := [] }) trivial .done)))
  exact ⟨_, HostedReachable.lists detects lists, rfl, _, _, rfl⟩

end Browse

end Keylens.Tui
