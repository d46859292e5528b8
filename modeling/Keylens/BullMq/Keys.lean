import Keylens.BullMq.Job
import Keylens.Connection.Command

/-!
# BullMQ key names
-/

namespace Keylens.BullMq

open Keylens.Connection

/-- The key suffix of a state; waiting jobs live in `wait`. -/
def State.suffix : State → Str
  | .waiting => "wait".toList
  | .active => "active".toList
  | .prioritized => "prioritized".toList
  | .delayed => "delayed".toList
  | .waitingChildren => "waiting-children".toList
  | .completed => "completed".toList
  | .failed => "failed".toList

/-- Whether a state is stored as a list and not as a sorted set. -/
def State.isListBacked : State → Bool
  | .waiting | .active => true
  | _ => false

/-- The command that counts a state. -/
def State.countCmd (state : State) : CmdName :=
  if state.isListBacked then .llen else .zcard

/-- Whether a queue is paused, by the `paused` field of its meta hash. -/
def isPaused : Option Str → Bool
  | some field => field ≠ "0".toList && field ≠ []
  | none => false

/-- The keys of one queue. -/
structure QueueKeys where
  prefix' : Str
  name : Str
  deriving DecidableEq, Repr

namespace QueueKeys

def base (keys : QueueKeys) : Str :=
  keys.prefix' ++ ":".toList ++ keys.name

def key (keys : QueueKeys) (suffix : Str) : Str :=
  keys.base ++ ":".toList ++ suffix

def state (keys : QueueKeys) (state : State) : Str :=
  keys.key state.suffix

def meta' (keys : QueueKeys) : Str :=
  keys.key "meta".toList

def events (keys : QueueKeys) : Str :=
  keys.key "events".toList

def job (keys : QueueKeys) (id : Str) : Str :=
  keys.key id

def jobLogs (keys : QueueKeys) (id : Str) : Str :=
  keys.base ++ ":".toList ++ id ++ ":logs".toList

/-- Queues of one prefix have keys of their own. -/
theorem events_injective (prefix' : Str) :
    Function.Injective fun name => QueueKeys.events { prefix', name } := by
  intro left right equal
  simpa [events, key, base] using equal

end QueueKeys

/-- The name in a `<prefix>:<name>:meta` key; the name may contain colons. -/
def queueNameFromMetaKey (prefix' key : Str) : Option Str := do
  let head := prefix' ++ ":".toList
  let rest ← key.dropPrefix? head
  let name ← rest.dropSuffix? ":meta".toList
  if name ≠ [] then some name else none

/-- The names read from keys are those that are not empty, each from its own meta
key: the prefix goes first, so what is stripped from the two ends never overlaps. -/
theorem queueNameFromMetaKey_eq_some_iff {prefix' key name : Str} :
    queueNameFromMetaKey prefix' key = some name ↔
      name ≠ [] ∧ QueueKeys.meta' { prefix', name } = key := by
  simp only [queueNameFromMetaKey, Option.bind_eq_bind, Option.bind_eq_some_iff,
    List.dropPrefix?_eq_some_iff, List.dropSuffix?_eq_some_iff, beq_iff_eq]
  constructor
  · rintro ⟨rest, ⟨head, rfl, rfl⟩, named, ⟨tail, rfl, rfl⟩, found⟩
    split at found
    next visible =>
        cases found
        refine ⟨visible, ?_⟩
        simp [QueueKeys.meta', QueueKeys.key, QueueKeys.base]
    next => cases found
  · rintro ⟨visible, rfl⟩
    refine ⟨name ++ ":meta".toList, ⟨_, ?_, rfl⟩, name, ⟨_, rfl, rfl⟩, if_pos visible⟩
    simp [QueueKeys.meta', QueueKeys.key, QueueKeys.base]

end Keylens.BullMq
