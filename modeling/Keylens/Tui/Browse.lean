import Keylens.Tui.Apply
import Keylens.Tui.Intent
import Keylens.Library.Steps
import Keylens.Backend.Answered

/-!
# The browser

The event loop owns the app.  It waits for the first of four things: the deadline for
fetching the key under the cursor, a key press, an update, and the tick for the stats.
The worker and the reader of the events go on at the same time.  Times are in
nanoseconds.
-/

namespace Keylens.Tui

open Keylens.Library Keylens.Connection Keylens.BullMq Keylens.Ui Keylens.Backend

/-! ## Pacing -/

def millis (count : Nat) : Nat :=
  count * 1000000

def infoTickMin : Nat := millis 5000
def infoTickMax : Nat := millis 60000
/-- How many round trips apart to space the refreshes of the stats. -/
def infoTickRtts : Nat := 20

def selectDebounceMin : Nat := millis 90
def selectDebounceMax : Nat := millis 400

def clamp (value low high : Nat) : Nat :=
  if value < low then low else if high < value then high else value

/-- How often to refresh the stats; a round trip of zero means that it was not
measured. -/
def infoTick (rtt : Nat) : Nat :=
  if rtt = 0 then infoTickMin else clamp (rtt * infoTickRtts) infoTickMin infoTickMax

/-- How long the cursor must sit still before the key under it is fetched. -/
def selectDebounce (rtt : Nat) : Nat :=
  if rtt = 0 then selectDebounceMin else clamp (rtt / 2) selectDebounceMin selectDebounceMax

theorem clamp_le {low high : Nat} (value : Nat) (le : low ≤ high) :
    clamp value low high ≤ high := by
  rw [clamp]
  split
  next => exact le
  next =>
      split
      next => exact Nat.le_refl high
      next below => exact Nat.le_of_not_lt below

/-! ## The event loop -/

structure Browse where
  app : App
  tasks : Tasks
  now : Nat := 0
  /-- When the pending selection is to be fetched. -/
  fetchAt : Option Nat := none
  /-- When the stats are to be refreshed next. -/
  tickAt : Nat := 0
  /-- The prefix and the queues that the reader of the events was started with. -/
  attached : Option (Str × List Str) := none

namespace Browse

variable (rtt : Nat) (state : Browse)

/-- What the next `try_send` meets. -/
def channel : Channel :=
  if state.tasks.requests.length < channelSize then .room else .full

/-- Let the app act. -/
def act (action : App → App) : Browse :=
  let (app, accepted) := state.app.act state.channel action
  { state with app, tasks := { state.tasks with accepted := state.tasks.accepted ++ accepted } }

/-- While the cursor has moved and the key under it has not been fetched, there is a
deadline for it. -/
def rearm : Browse :=
  if state.app.selectionDirty then
    { state with fetchAt := some (state.now + selectDebounce rtt) }
  else state

/-- A run of cursor moves pushes the deadline back and back. -/
def press (event : KeyEvent) : Browse :=
  (state.act fun app => app.handleKey event).rearm rtt

/-- The deadline has come; without room for the request there is another one. -/
def fetch : Browse :=
  ({ state with fetchAt := none }.act App.flushSelection).rearm rtt

/-- A second detection does not start a second reader. -/
def attach : Update → Browse
  | .detected (detection :: _) =>
      if state.attached.isSome || detection.targets.isEmpty then state
      else { state with attached := some (detection.prefix', detection.targets) }
  | _ => state

def receive (update : Update) : Browse :=
  let state := state.attach update
  { state with
    app := state.app.apply update
    tasks := { state.tasks with received := state.tasks.received + 1 } }

/-- Ticks that were missed are skipped. -/
def tick : Browse :=
  let late := (state.now - state.tickAt) / infoTick rtt
  { state with
    tickAt := state.tickAt + infoTick rtt * (late + 1)
    tasks := { state.tasks with
      accepted := state.tasks.accepted ++
        if state.channel = .room then [.refreshInfo] else [] } }

end Browse

/-- What the reader of the events sends. -/
def isEventsUpdate : Update → Bool
  | .eventsStatus _ | .events _ => true
  | _ => false

/-- What can happen. -/
inductive BrowseEvent where
  | key (event : KeyEvent)
  | fetch
  | receive
  | tick
  | wait
  | work
  | read
  deriving DecidableEq, Repr

/-- One thing happens; after `quit` the event loop is left. -/
inductive Browse.Step (setting : Setting) (may : calls.Answers) (rtt : Nat) :
    Browse → BrowseEvent → Browse → Prop where
  | key {state : Browse} (runs : state.app.quit = false) (event : KeyEvent) :
      Step setting may rtt state (.key event) (state.press rtt event)
  | fetch {state : Browse} (runs : state.app.quit = false) {deadline : Nat}
      (armed : state.fetchAt = some deadline) (due : deadline ≤ state.now) :
      Step setting may rtt state .fetch (state.fetch rtt)
  | receive {state : Browse} (runs : state.app.quit = false) {source : Option Nat}
      {update : Update} {rest : List (Option Nat × Update)}
      (waiting : state.tasks.updates = (source, update) :: rest) :
      Step setting may rtt state .receive (state.receive update)
  | tick {state : Browse} (runs : state.app.quit = false) (due : state.tickAt ≤ state.now) :
      Step setting may rtt state .tick (state.tick rtt)
  | wait {state : Browse} (time : Nat) :
      Step setting may rtt state .wait { state with now := state.now + time }
  | work {state : Browse} {tasks : Tasks} (move : Tasks.Move setting may state.tasks tasks) :
      Step setting may rtt state .work { state with tasks }
  | read {state : Browse} (attached : state.attached.isSome) (room : state.tasks.hasRoom)
      {update : Update} (events : isEventsUpdate update) :
      Step setting may rtt state .read { state with tasks := state.tasks.put none update }

namespace Browse

/-- Detection comes first: it decides which streams the reader follows.  Then the keys
are listed. -/
def start (lens : BullMqLens) (server : ServerInfo) (url : Str) : Browse where
  app := App.new server url { channel := .room }
  tasks := { loop := { bullmq := lens }, accepted := [.detect, .rescan none none] }

/-- Where the browser gets when every event meets a condition. -/
def Reachable (setting : Setting) (may : calls.Answers) (rtt : Nat)
    (heeds : Browse → BrowseEvent → Prop) (lens : BullMqLens) (server : ServerInfo) (url : Str) :
    Browse → Prop :=
  Reaches (Step setting may rtt) heeds (start lens server url)

end Browse

end Keylens.Tui
