import Keylens.Connection.Value

/-!
# Queues and jobs
-/

namespace Keylens.BullMq

open Keylens.Connection

/-- The states a job can be in. -/
inductive State where
  | waiting | active | prioritized | delayed | waitingChildren | completed | failed
  deriving DecidableEq, Repr

/-- Every state, in the order the browser cycles through them. -/
def State.all : List State :=
  [.waiting, .active, .prioritized, .delayed, .waitingChildren, .completed, .failed]

/-- One row of the queue table. -/
structure QueueSummary where
  name : Str
  paused : Bool
  counts : List (State × Nat)
  deriving DecidableEq, Repr

/-- One row of a job list. -/
structure JobRef where
  id : Str
  score : Option F64
  deriving DecidableEq, Repr

structure Job where
  id : Str
  name : Str
  data : Str
  opts : Str
  attemptsMade : Nat
  attemptsAllowed : Option Nat
  stacktrace : List Str
  failedReason : Str
  returnValue : Str
  progress : Str
  timestamp : Option Int
  processedOn : Option Int
  finishedOn : Option Int
  delay : Option Int
  priority : Option Int
  parentKey : Str
  deriving DecidableEq, Repr

/-- How sure a detector is. -/
inductive Confidence where
  | weak | likely | certain
  deriving DecidableEq, Repr

/-- The result of a successful detection. -/
structure Detection where
  lensId : Str
  confidence : Confidence
  version : Option Str
  prefix' : Str
  summary : Str
  targets : List Str
  deriving DecidableEq, Repr

end Keylens.BullMq
