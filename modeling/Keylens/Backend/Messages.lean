import Keylens.BullMq.Events
import Keylens.BullMq.Job
import Keylens.Connection.ReadKey
import Keylens.Connection.Server
import Keylens.Ui.Pane

/-!
# The messages between the UI and the worker
-/

namespace Keylens.Backend

open Keylens.Connection Keylens.BullMq Keylens.Ui

/-- What the UI asks for. -/
inductive Request where
  /-- Start over with a new filter. -/
  | rescan (pattern : Option Str) (kind : Option Kind)
  /-- Continue the current scan. -/
  | more
  /-- Load metadata and the first value page for one key. -/
  | select (key : Str)
  | refreshInfo
  | loadSlowlog
  | loadClients
  | loadCluster
  | loadPubSub
  | detect
  | loadQueues
  | loadJobs (queue : Str) (state : State)
  | loadJob (queue id : Str)
  deriving DecidableEq, Repr

/-- A job with its logs, which are a separate key. -/
structure JobDetail where
  job : Job
  logs : List Str
  deriving DecidableEq, Repr

/-- One observed event. -/
abbrev StreamEvent := Recorded

/-- What the worker answers. -/
inductive Update where
  | batch (keys : List (Str × Option Kind)) (reset complete : Bool) (scannedPages : Nat)
  | detail (keyMeta : KeyMeta) (value : KeyValue) (stream : Option StreamInfo)
  | info (server : ServerInfo)
  | error (message : Str)
  | slowlog (state : PaneState (List SlowEntry))
  | clients (state : PaneState (List ClientInfo))
  | cluster (state : PaneState ClusterTopology)
  | pubSub (state : PaneState (List PubSubChannel))
  | detected (detections : List Detection)
  | eventsStatus (status : EventsStatus)
  | events (events : List StreamEvent)
  | queues (state : PaneState (List QueueSummary))
  | jobs (state : State) (data : PaneState (List JobRef))
  /-- A ready `none` is a job that was removed between listing and reading. -/
  | job (state : PaneState (Option JobDetail))

end Keylens.Backend
