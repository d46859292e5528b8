import Keylens.Basic

/-!
# What the server panes show
-/

namespace Keylens.Connection

inductive Vendor where
  | redis | valkey | dragonfly | keyDb | garnet | recached
  | unknown (name : Str)
  deriving DecidableEq, Repr

/-- A parsed `INFO` payload; the fields are sorted by name. -/
structure ServerInfo where
  vendor : Vendor
  version : Str
  mode : Str
  fields : List (Str × Str)
  deriving DecidableEq, Repr

/-- One row of the slow log. -/
structure SlowEntry where
  id : Int
  /-- Unix seconds when the command completed. -/
  timestamp : Int
  durationUs : Nat
  command : Str
  clientAddr : Str
  clientName : Str
  deriving DecidableEq, Repr

/-- One row of `CLIENT LIST`. -/
structure ClientInfo where
  id : Str
  addr : Str
  name : Str
  age : Nat
  idle : Nat
  db : Str
  cmd : Str
  sub : Nat
  deriving DecidableEq, Repr

structure ClusterNode where
  id : Str
  addr : Str
  flags : Str
  master : Bool
  linkState : Str
  slots : List Str
  myself : Bool
  deriving DecidableEq, Repr

structure ClusterTopology where
  enabled : Bool
  state : Str
  slotsAssigned : Nat
  knownNodes : Nat
  size : Nat
  nodes : List ClusterNode
  deriving DecidableEq, Repr

structure PubSubChannel where
  name : Str
  subscribers : Nat
  deriving DecidableEq, Repr

structure ConsumerInfo where
  name : Str
  pending : Nat
  idleMs : Int
  inactiveMs : Option Int
  deriving DecidableEq, Repr

structure GroupInfo where
  name : Str
  consumerCount : Nat
  pending : Nat
  lastDeliveredId : Str
  entriesRead : Option Int
  lag : Option Int
  consumers : List ConsumerInfo
  pendingMinId : Str
  pendingMaxId : Str
  deriving DecidableEq, Repr

/-- Groups, consumers and pending state of a stream. -/
structure StreamInfo where
  length : Nat
  entriesAdded : Option Nat
  lastGeneratedId : Str
  maxDeletedId : Str
  firstEntryId : Str
  groups : List GroupInfo
  groupsTruncated : Bool
  deriving DecidableEq, Repr

end Keylens.Connection
