import ClusterLink.Connection.Calls
import ClusterLink.Registry.Basic
/-!
# Speaking to all slaves

A broadcast writes a message to every connection of every slave and reports each of them as
delivered or failed. A request to the slaves is made on all of their connections at once, under one
id, and comes to one outcome for each.

The slaves are addressed in the order of their ids and each slave's connections in the order in which
it joined on them.
-/

namespace ClusterLink

/-- A connection of a slave that is spoken to (`Delivery`). -/
structure Delivery where
  nodeId : String
  connection : ConnectionId
  deriving DecidableEq, Repr

/-- The connections that a message to all slaves goes to (`slave_connections`). -/
def Registry.deliveries (r : Registry) : List Delivery :=
  r.slaveNodes.flatMap fun n => n.connections.map fun c => ⟨n.id, c⟩

/-- The connections of a server by their ids. -/
abbrev Connections := ConnectionId → Connection

def Connections.set (t : Connections) (id : ConnectionId) (c : Connection) : Connections :=
  fun other => if other = id then c else t other

@[simp] theorem Connections.set_self (t : Connections) (id : ConnectionId) (c : Connection) :
    t.set id c id = c := if_pos rfl

theorem Connections.set_of_ne (t : Connections) {id other : ConnectionId} (h : other ≠ id)
    (c : Connection) : t.set id c other = t other := if_neg h

/-- What became of a broadcast (`BroadcastReport`). -/
structure BroadcastReport where
  delivered : List Delivery := []
  failed : List (Delivery × ConnectionError) := []
  deriving DecidableEq, Repr

namespace BroadcastReport

/-- Whether every node has answered (`is_complete`). -/
def isComplete (r : BroadcastReport) : Bool := r.failed.isEmpty

/-- Adds what became of one connection. -/
def note (r : BroadcastReport) (d : Delivery) : Except ConnectionError Nat → BroadcastReport
  | .ok _ => { r with delivered := r.delivered ++ [d] }
  | .error e => { r with failed := r.failed ++ [(d, e)] }

end BroadcastReport

/-- Writes a message to some connections, one after the other; none is left out because another
failed. -/
def broadcastTo (m : Message) : List Delivery → BroadcastReport × Connections →
    BroadcastReport × Connections
  | [], state => state
  | d :: rest, (report, table) =>
    let (result, c) := (table d.connection).push m.encode
    broadcastTo m rest (report.note d result, table.set d.connection c)

/-- Writes a message to every slave connection without waiting for responses (`send_to_slaves`). -/
def Registry.broadcast (r : Registry) (table : Connections) (m : Message) :
    BroadcastReport × Connections :=
  broadcastTo m r.deliveries ({}, table)

/-! ## Requests -/

/-- A request to all slaves (`request_slaves`): the connections, and the ticket that the request has
on each connection it was made on. -/
structure SlaveRequests where
  connections : Connections
  targets : List (Delivery × Option Ticket)

namespace SlaveRequests

/-- Before any request was made. -/
def new (r : Registry) (table : Connections) : SlaveRequests where
  connections := table
  targets := r.deliveries.map fun d => (d, none)

/-- What happens while the slaves are asked. -/
inductive Event where
  /-- The request to one target is made. -/
  | ask (target : Nat)
  /-- A step on one of the connections. -/
  | on (connection : ConnectionId) (event : ConnectionEvent)
  deriving Repr

def step (m : Message) (s : SlaveRequests) : Event → Option SlaveRequests
  | .ask i =>
    match s.targets[i]? with
    | some (d, none) =>
      let c := s.connections d.connection
      some {
        connections := s.connections.set d.connection (c.send m)
        targets := s.targets.set i (d, some c.requests.length) }
    | _ => none
  | .on id e =>
    ((s.connections id).step e).map fun c => { s with connections := s.connections.set id c }

/-- All interleavings of the requests with everything else on the connections. -/
def machine (r : Registry) (table : Connections) (m : Message) : Machine SlaveRequests Event where
  start := new r table
  step := step m

/-- What the request to one target came to. -/
def outcome? (s : SlaveRequests) : Delivery × Option Ticket →
    Option (Delivery × Except ConnectionError Message)
  | (_, none) => none
  | (d, some t) =>
    ((s.connections d.connection).result? t).map fun result => (d, result.map Arrival.message)

/-- What all requests came to, once the last is over. -/
def outcomes? (s : SlaveRequests) : Option (List (Delivery × Except ConnectionError Message)) :=
  s.targets.mapM s.outcome?

end SlaveRequests

end ClusterLink
