import Keylens.Connection.Url
import Keylens.Ui.Tree
import Keylens.Backend.Messages

/-!
# The state of the application

`App` is what the UI task owns.  It talks to the worker over a bounded channel;
whether the channel has room is the environment's choice, which `Sender` keeps
together with the requests that were accepted.  What ratatui needs for drawing
is left out.
-/

namespace Keylens.Tui

open Keylens.Library Keylens.Connection Keylens.BullMq Keylens.Ui Keylens.Backend

/-- The top-level tabs. -/
inductive View where
  | keys | queues | stats | slowlog | clients | cluster | pubSub
  deriving DecidableEq, Repr

def View.all : List View :=
  [.keys, .queues, .stats, .slowlog, .clients, .cluster, .pubSub]

/-- How deep into the queue view we are. -/
inductive QueueLevel where
  | queues | jobs | job
  deriving DecidableEq, Repr

inductive Focus where
  | tree | value
  deriving DecidableEq, Repr

inductive Mode where
  | normal
  /-- Editing the key pattern. -/
  | search
  | help
  deriving DecidableEq, Repr

inductive KeyCode where
  | down | up | pageDown | pageUp | home | end' | enter | left | right | esc | tab | backspace
  | char (c : Char)
  | other
  deriving DecidableEq, Repr

structure KeyEvent where
  code : KeyCode
  /-- Whether Control is held. -/
  control : Bool := false
  deriving DecidableEq, Repr

/-- Order the `t` key cycles through. -/
def kindCycle : List (Option Kind) :=
  [none, some .string, some .hash, some .list, some .set, some .zset, some .stream]

def workerBusy {α : Type} : PaneState α :=
  .failed "worker busy — press r to retry".toList

/-- What `try_send` meets at the other end. -/
inductive Channel where
  | room | full | closed
  deriving DecidableEq, Repr

/-- The sending half of the request channel, with the requests it has taken,
oldest first. -/
structure Sender where
  channel : Channel
  accepted : List Request := []

structure App where
  tree : KeyTree := {}
  rows : List Row := []
  selected : Nat := 0
  detail : Option (KeyMeta × KeyValue) := none
  /-- Consumer-group state for the selected key, when it is a stream. -/
  stream : Option StreamInfo := none
  detailScroll : Nat := 0
  /-- Key whose detail we asked for most recently. -/
  pendingKey : Option Str := none
  /-- The cursor moved and the key under it has not been fetched yet. -/
  selectionDirty : Bool := false
  focus : Focus := .tree
  mode : Mode := .normal
  searchInput : Str := []
  pattern : Option Str := none
  kindFilter : Option Kind := none
  view : View := .keys
  /-- Scroll offset for whichever server pane is showing. -/
  paneScroll : Nat := 0
  slowlog : PaneState (List SlowEntry) := .idle
  clients : PaneState (List ClientInfo) := .idle
  cluster : PaneState ClusterTopology := .idle
  pubSub : PaneState (List PubSubChannel) := .idle
  /-- Lenses that matched this keyspace. -/
  detections : List Detection := []
  level : QueueLevel := .queues
  queues : PaneState (List QueueSummary) := .idle
  queueSelected : Nat := 0
  jobState : State := .failed
  jobs : PaneState (List JobRef) := .idle
  jobSelected : Nat := 0
  job : PaneState (Option JobDetail) := .idle
  throughput : Throughput := {}
  server : ServerInfo
  url : Str
  status : Str := "scanning keyspace…".toList
  error : Option Str := none
  loading : Bool := true
  scanComplete : Bool := false
  splash : Bool := true
  quit : Bool := false
  tx : Sender

namespace App

def new (server : ServerInfo) (url : Str) (tx : Sender) : App :=
  { server, url := redactUrl url, tx }

def selectedRow (app : App) : Option Row :=
  app.rows[app.selected]?

/-- The queue the cursor is on. -/
def selectedQueue (app : App) : Option QueueSummary :=
  app.queues.ready?.bind fun queues => queues[app.queueSelected]?

def selectedJob (app : App) : Option JobRef :=
  app.jobs.ready?.bind fun jobs => jobs[app.jobSelected]?

/-- The tabs currently on offer; `queues` only when a lens matched. -/
def views (app : App) : List View :=
  View.all.filter fun view => view ≠ .queues || !app.detections.isEmpty

/-- Digits are assigned to the tabs by position. -/
def viewFromDigit (app : App) (c : Char) : Option View :=
  let digit := c.toNat - '0'.toNat
  if digit = 0 then none else app.views[digit - 1]?

/-- Queue a request for the worker; the answer is whether it was accepted. -/
def send (app : App) (request : Request) : Bool × App :=
  match app.tx.channel with
  | .room => (true, { app with tx := { app.tx with accepted := app.tx.accepted ++ [request] } })
  | .full => (false, app)
  | .closed => (false, { app with error := some "worker stopped".toList })

/-- Ask for the data of a pane; the answer is what the pane shows meanwhile. -/
def load {α : Type} (app : App) (request : Request) : PaneState α × App :=
  let (accepted, app) := app.send request
  (if accepted then .loading else workerBusy, app)

/-- Rebuild the visible rows, keeping the cursor on the same path where
possible. -/
def rebuild (app : App) : App :=
  let rows := app.tree.rows
  let anchor := app.selectedRow.bind fun row => rows.findIdx? fun other => other.path = row.path
  { app with rows, selected := min (anchor.getD app.selected) (rows.length - 1) }

/-- Let the app act while the channel is in some state; the requests are the
ones that were accepted. -/
def act (app : App) (channel : Channel) (action : App → App) : App × List Request :=
  let app := action { app with tx := { channel } }
  (app, app.tx.accepted)

end App

end Keylens.Tui
