import ClusterLink.Machine
import ClusterLink.Registry.Basic
/-!
# Sockets, membership and shutdown

Every accepted socket goes its way on a thread of its own: it looks whether the server is shut down,
lets its node in, registers the connection, looks again, serves until the connection is closed, and
takes the connection out of the registry. A shutdown raises the flag, takes a snapshot of the
registered connections and closes each of them. The second look is for a connection that was
registered too late for the snapshot: its own thread closes it. A connection may also be closed by
its peer, by its writer or by the application, and its node stays registered until the read loop has
noticed.

A `SessionTable` is what all these threads share, with how far each has come. The connection of a
socket has the number of the socket.
-/

namespace ClusterLink

/-- What a node said of itself when it was let in. -/
structure Joined where
  nodeId : String
  role : Role
  tags : List String
  deriving DecidableEq, Repr

/-- How far the thread of a socket has come. -/
inductive SessionStage where
  | accepted
  /-- The server was not shut down. -/
  | authenticating
  /-- The node was let in. -/
  | admitted (node : Joined)
  | registered (node : Joined)
  /-- The second look found the server shut down. -/
  | tooLate (node : Joined)
  /-- The second look is over. -/
  | serving (node : Joined)
  /-- The connection is closed. -/
  | leaving (node : Joined)
  | ended
  deriving DecidableEq, Repr

namespace SessionStage

/-- The node of a connection that is in the registry as far as its thread is concerned. -/
def member? : SessionStage → Option Joined
  | registered node | tooLate node | serving node | leaving node => some node
  | _ => none

/-- Whether the node was let in and has a connection. -/
def hasConnection : SessionStage → Bool
  | admitted _ | registered _ | tooLate _ | serving _ | leaving _ => true
  | _ => false

/-- Whether the second look is over, with all that comes of it, or will never come. -/
def isPastSecondLook : SessionStage → Bool
  | serving _ | leaving _ | ended => true
  | _ => false

end SessionStage

/-- How far a call to shut down has come. -/
inductive ShutdownStage where
  /-- The flag was raised by this call. -/
  | flagged
  /-- The connections that are still to be closed. -/
  | closing (left : List ConnectionId)
  | returned
  deriving DecidableEq, Repr

/-- What the threads of a server share (`Inner`). -/
structure SessionTable where
  registry : Registry := {}
  isShutDown : Bool := false
  /-- The threads of the sockets, in the order in which they were accepted. -/
  sessions : List SessionStage := []
  /-- The connections that are closed. -/
  closed : List ConnectionId := []
  /-- The calls to shut down. -/
  shutdowns : List ShutdownStage := []
  /-- How often the shutdown hook has run. -/
  hooks : Nat := 0
  /-- Every connection that was ever registered, and under which node. -/
  registrations : List (ConnectionId × String) := []
  /-- The connections that were taken out together with their node. -/
  takenOut : List ConnectionId := []
  deriving DecidableEq, Repr

/-- What the thread of a socket does. -/
inductive SessionAction where
  /-- Looks whether the server is shut down before doing anything. -/
  | look
  | refuse
  | letIn (node : Joined)
  | register
  /-- Looks again whether the server is shut down. -/
  | lookAgain
  /-- Closes the connection, since the server is shut down. -/
  | giveUp
  /-- The read loop ends, with the connection closed. -/
  | stopServing
  | remove
  deriving DecidableEq, Repr

/-- What a call to shut down does after raising the flag. -/
inductive ShutdownAction where
  /-- Takes down all registered connections; the registry names its nodes in any order. -/
  | snapshot (order : List ConnectionId)
  | closeNext
  /-- Runs the shutdown hook and returns. -/
  | finish
  deriving DecidableEq, Repr

/-- A step of one thread. -/
inductive SessionEvent where
  | accept
  | session (number : Nat) (action : SessionAction)
  /-- Somebody else than the threads here closes the connection of a socket. -/
  | hangUp (number : Nat)
  /-- Somebody takes a node out. -/
  | removeNode (id : String)
  /-- A call to shut down; only the first raises the flag. -/
  | beginShutdown
  | shutdown (call : Nat) (action : ShutdownAction)
  deriving DecidableEq, Repr

namespace SessionTable

def setSession (t : SessionTable) (i : Nat) (stage : SessionStage) : SessionTable :=
  { t with sessions := t.sessions.set i stage }

def setShutdown (t : SessionTable) (k : Nat) (stage : ShutdownStage) : SessionTable :=
  { t with shutdowns := t.shutdowns.set k stage }

/-- Closes a connection, if it is not closed already. -/
def close (t : SessionTable) (c : ConnectionId) : SessionTable :=
  if c ∈ t.closed then t else { t with closed := t.closed ++ [c] }

/-- One step of the thread of a socket (`handle_socket`). -/
def stepSession (t : SessionTable) (i : Nat) (stage : SessionStage) (a : SessionAction) :
    Option SessionTable :=
  match stage, a with
  | .accepted, .look => some (t.setSession i (if t.isShutDown then .ended else .authenticating))
  | .authenticating, .refuse => some (t.setSession i .ended)
  | .authenticating, .letIn node => some (t.setSession i (.admitted node))
  | .admitted node, .register =>
    let next := t.setSession i (.registered node)
    some { next with
      registry := (t.registry.register node.nodeId node.role node.tags ⟨i⟩).2
      registrations := t.registrations ++ [(⟨i⟩, node.nodeId)] }
  | .registered node, .lookAgain =>
    some (t.setSession i (if t.isShutDown then .tooLate node else .serving node))
  | .tooLate node, .giveUp => some ((t.setSession i (.serving node)).close ⟨i⟩)
  | .serving node, .stopServing => some ((t.setSession i (.leaving node)).close ⟨i⟩)
  | .leaving node, .remove =>
    let next := t.setSession i .ended
    some { next with registry := (t.registry.removeConnection node.nodeId ⟨i⟩).2 }
  | _, _ => none

/-- One step of a call to shut down (`shutdown`). -/
def stepShutdown (t : SessionTable) (k : Nat) (stage : ShutdownStage) (a : ShutdownAction) :
    Option SessionTable :=
  match stage, a with
  | .flagged, .snapshot order =>
    if order.Perm (t.registry.connections.map (·.2)) then some (t.setShutdown k (.closing order))
    else none
  | .closing (c :: left), .closeNext => some ((t.setShutdown k (.closing left)).close c)
  | .closing [], .finish =>
    let next := t.setShutdown k .returned
    some { next with hooks := t.hooks + 1 }
  | _, _ => none

/-- Takes a node out, with all of its connections. -/
def removeNode (t : SessionTable) (id : String) : SessionTable :=
  let (node, registry) := t.registry.removeNode id
  let gone := (node.map fun n => n.connections ++ n.replicas).getD []
  { t with registry, takenOut := t.takenOut ++ gone }

def step (t : SessionTable) : SessionEvent → Option SessionTable
  | .accept => some { t with sessions := t.sessions ++ [.accepted] }
  | .session i a => (t.sessions[i]?).bind fun stage => t.stepSession i stage a
  | .hangUp i =>
    (t.sessions[i]?).bind fun stage => if stage.hasConnection then some (t.close ⟨i⟩) else none
  | .removeNode id => some (t.removeNode id)
  | .beginShutdown =>
    if t.isShutDown then some { t with shutdowns := t.shutdowns ++ [.returned] }
    else some { t with isShutDown := true, shutdowns := t.shutdowns ++ [.flagged] }
  | .shutdown k a => (t.shutdowns[k]?).bind fun stage => t.stepShutdown k stage a

/-- All interleavings of sockets and shutdowns. -/
def machine : Machine SessionTable SessionEvent where
  start := {}
  step := step

end SessionTable

end ClusterLink
