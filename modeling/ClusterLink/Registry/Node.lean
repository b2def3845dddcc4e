/-!
# Nodes

A node of the cluster has an id, a role, tags and the connections it can be reached on. A
connection is known by its id, which no other connection ever has.
-/

namespace ClusterLink

/-- What tells one connection from all others. -/
structure ConnectionId where
  number : Nat
  deriving DecidableEq, Repr

/-- What a node is there for (`Role`). Nothing is copied between nodes because of it. -/
inductive Role where
  | master
  | slave
  deriving DecidableEq, Repr

namespace Role

/-- The role of a node that joins as a replica or not (`from_replica_flag`). -/
def ofReplica (isReplica : Bool) : Role := if isReplica then slave else master

def text : Role → String
  | master => "master"
  | slave => "slave"

end Role

/-- A member of the cluster (`Node`). -/
structure Node where
  id : String
  role : Role
  tags : List String
  /-- The connections it joined on, the oldest first. -/
  connections : List ConnectionId := []
  /-- Connections to its replicas. -/
  replicas : List ConnectionId := []
  deriving DecidableEq, Repr

namespace Node

/-- The connections that are not closed (`live_connections`). -/
def live (closed : ConnectionId → Bool) (n : Node) : List ConnectionId :=
  n.connections.filter (!closed ·)

/-- Adds a connection unless it is there already. -/
def attach (c : ConnectionId) (n : Node) : Node :=
  if c ∈ n.connections then n else { n with connections := n.connections ++ [c] }

/-- Adds a connection to a replica unless it is there already. -/
def attachReplica (c : ConnectionId) (n : Node) : Node :=
  if c ∈ n.replicas then n else { n with replicas := n.replicas ++ [c] }

/-- Forgets a connection, also as one to a replica. -/
def detach (c : ConnectionId) (n : Node) : Node :=
  { n with connections := n.connections.filter (· ≠ c), replicas := n.replicas.filter (· ≠ c) }

/-- Whether the connection is one of the node's or leads to one of its replicas. -/
def holds (c : ConnectionId) (n : Node) : Bool := c ∈ n.connections || c ∈ n.replicas

/-- Whether nothing leads to the node any more. -/
def isBare (n : Node) : Bool := n.connections.isEmpty && n.replicas.isEmpty

end Node

end ClusterLink
