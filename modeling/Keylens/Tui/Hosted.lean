import Keylens.Tui.Served
import Keylens.Backend.OneScan

/-!
# The browser before a server with a state

What the server answers may depend on what it was asked before.  Whatever holds whatever
is answered still holds then.
-/

namespace Keylens.Tui

open Keylens.Library Keylens.Connection Keylens.BullMq Keylens.Ui Keylens.Backend

namespace Browse

variable {setting : Setting} {rtt : Nat} {state next : Browse} {event : BrowseEvent}
variable {heeds : Browse → BrowseEvent → Prop} {lens : BullMqLens} {server : ServerInfo} {url : Str}

section Hosted

variable {σ : Type} {host : Host calls σ} {first : σ}

theorem HostedReachable.reachable
    (reachable : HostedReachable setting host first rtt heeds lens server url state) :
    Reachable setting calls.anything rtt heeds lens server url state := by
  induction reachable with
  | start => exact .start
  | next _ heeded step ih => exact ih.next heeded (step.mono fun _ _ _ => trivial)

theorem HostedReachable.tasks
    (reachable : HostedReachable setting host first rtt heeds lens server url state) :
    Tasks.HostedReachable setting host first lens state.tasks := by
  induction reachable with
  | start =>
      have empty : 0 < channelSize := by decide
      have room : 1 < channelSize := by decide
      have begun : Tasks.HostedReachable setting host first lens { loop := { bullmq := lens } } :=
        .refl
      have detecting := begun.tail (.accept .detect empty)
      exact detecting.tail (.accept (.rescan none none) room)
  | next before heeded step ih =>
      rcases (Relation.reflGen_iff _ _ _).mp step.tasks with same | moved
      · rwa [same]
      · exact ih.tail moved

end Hosted

end Browse

end Keylens.Tui
