import Keylens.Connection.Unchanged
import Keylens.Library.Rest
import Keylens.Backend.Info
import Keylens.Backend.Replies

/-!
# The tasks of the worker

The main loop takes the requests out of a channel, one by one, and answers most of
them itself.  It has a key read, or the stats refreshed, on a task of its own; a
newer `Select` aborts the read that is under way, which may get a little further
before it notices.  All of them put their updates into one channel.  The moves come
in any order, and between any two of them the server may do anything.
-/

namespace Keylens.Backend

open Keylens.Library Keylens.Connection Keylens.BullMq Keylens.Ui

/-- Bounded so that a burst of keystrokes applies backpressure. -/
def channelSize : Nat := 32

/-- The main loop answers the request itself. -/
def Request.inLoop : Request → Bool
  | .select _ | .refreshInfo => false
  | _ => true

/-- A task for the request of a number; nothing is left of one that is finished. -/
structure Task where
  number : Nat
  left : Option (Work Update)
  aborted : Bool := false

/-- The main loop, its tasks and the two channels.  A channel holds what was put into
it and has not been taken out. -/
structure Tasks where
  loop : Loop
  accepted : List Request := []
  taken : Nat := 0
  /-- The request that the main loop is at. -/
  main : Option (Nat × Work (Loop × Update)) := none
  spawned : List Task := []
  /-- The place of the task that reads the key asked for last. -/
  detail : Option Nat := none
  stats : Option Nat := none
  /-- Each update with the number of the request that it answers. -/
  sent : List (Option Nat × Update) := []
  received : Nat := 0
  asked : List Call := []

namespace Tasks

variable (setting : Setting) (may : calls.Answers) (state : Tasks)

def requests : List Request :=
  state.accepted.drop state.taken

def updates : List (Option Nat × Update) :=
  state.sent.drop state.received

def hasRoom : Bool :=
  state.updates.length < channelSize

def put (source : Option Nat) (update : Update) : Tasks :=
  { state with sent := state.sent ++ [(source, update)] }

/-- The read that is under way is cancelled, whatever read it is. -/
def abortDetail : List Task :=
  match state.detail with
  | some place => state.spawned.modify place fun task => { task with aborted := true }
  | none => state.spawned

def spawnDetail (number : Nat) (key : Str) : Tasks :=
  { state with
    spawned := state.abortDetail ++ [{ number, left := some (Work.detail setting.conn key) }]
    detail := some state.spawned.length }

def infoRunning : Bool :=
  (state.stats.bind fun place => state.spawned[place]?).any fun task => task.left.isSome

/-- Refresh the stats, unless the last refresh is still out. -/
def spawnInfo (number : Nat) : Tasks :=
  if state.infoRunning then state
  else
    { state with
      spawned := state.spawned ++ [{ number, left := some (Work.stats setting.info) }]
      stats := some state.spawned.length }

/-- The main loop turns to a request that it answers itself. -/
def turnTo (number : Nat) (request : Request) : Tasks :=
  { state with
    main := (Work.handle setting state.loop request).map fun work => (number, work) }

/-- Take the next request. -/
def take (request : Request) : Tasks :=
  let number := state.taken
  let state := { state with taken := state.taken + 1 }
  match request with
  | .select key => state.spawnDetail setting number key
  | .refreshInfo => if !setting.conn.hasServerInfo then state else state.spawnInfo setting number
  | _ => state.turnTo setting number request

/-- What the worker can do next, with the answers that the server may give. -/
inductive Move : Tasks → Tasks → Prop where
  | take {state : Tasks} {request : Request} (idle : state.main = none)
      (next : state.accepted[state.taken]? = some request) : Move state (state.take setting request)
  | mainAsks {state : Tasks} {number : Nat} {call : Call}
      {rest : call.Answer → Work (Loop × Update)} {answer : call.Answer}
      (main : state.main = some (number, .ask call rest)) (told : may call answer) :
      Move state
        { state with main := some (number, rest answer), asked := state.asked ++ [call] }
  | mainSends {state : Tasks} {number : Nat} {loop : Loop} {update : Update}
      (main : state.main = some (number, .done (loop, update))) (room : state.hasRoom) :
      Move state { state.put (some number) update with loop, main := none }
  | taskAsks {state : Tasks} {front back : List Task} {number : Nat} {aborted : Bool}
      {call : Call} {rest : call.Answer → Work Update} {answer : call.Answer}
      (spawned : state.spawned = front ++ ⟨number, some (.ask call rest), aborted⟩ :: back)
      (told : may call answer) :
      Move state
        { state with
          spawned := front ++ ⟨number, some (rest answer), aborted⟩ :: back
          asked := state.asked ++ [call] }
  | taskSends {state : Tasks} {front back : List Task} {number : Nat} {aborted : Bool}
      {update : Update}
      (spawned : state.spawned = front ++ ⟨number, some (.done update), aborted⟩ :: back)
      (room : state.hasRoom) :
      Move state
        { state.put (some number) update with spawned := front ++ ⟨number, none, aborted⟩ :: back }
  | taskVanishes {state : Tasks} {front back : List Task} {number : Nat} {work : Work Update}
      (spawned : state.spawned = front ++ ⟨number, some work, true⟩ :: back) :
      Move state { state with spawned := front ++ ⟨number, none, true⟩ :: back }

/-- What goes on when nothing is asked for: the worker moves, and the UI takes an
update. -/
inductive Drains : Tasks → Tasks → Prop where
  | move {state next : Tasks} (move : Move setting may state next) : Drains state next
  | receive {state : Tasks} (waiting : state.received < state.sent.length) :
      Drains state { state with received := state.received + 1 }

/-- Everything that can happen: a request is accepted, and the reader of the events has
something to say, as long as the channels have room. -/
inductive Step : Tasks → Tasks → Prop where
  | drains {state next : Tasks} (drains : Drains setting may state next) : Step state next
  | accept {state : Tasks} (request : Request) (room : state.requests.length < channelSize) :
      Step state { state with accepted := state.accepted ++ [request] }
  | read {state : Tasks} (update : Update) (room : state.hasRoom) :
      Step state (state.put none update)

/-- What can be reached from a worker that has just been started. -/
def Reachable (lens : BullMqLens) : Tasks → Prop :=
  Relation.ReflTransGen (Step setting may) { loop := { bullmq := lens } }

end Tasks

end Keylens.Backend
