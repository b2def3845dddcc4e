import ClusterLink.Connection.Error
import ClusterLink.Connection.Options
import ClusterLink.Message.Basic
import ClusterLink.Workers.Panic
/-!
# Connections

A connection lets any number of callers talk over one socket. What they write waits in a bounded
queue for one writer, which puts whole frames on the socket. A request leaves a slot under its id and
waits; one reader takes frames off the socket, puts each into the slot that waits for its id, and
hands the others to a callback. A request whose time is up takes its slot away and has its id
remembered, so that a late response can be told from an unasked frame.

A `Connection` is everything these parties share, together with how far each of them has come. What
they do step by step is in `ClusterLink.Connection.Step`.
-/

namespace ClusterLink

/-- How many ids of timed out requests are remembered (`EXPIRED_CAPACITY`). -/
def expiredCapacity : Nat := 1024

/-- A frame that came in, and its place in the order of arrival. -/
structure Arrival where
  number : Nat
  message : Message
  deriving DecidableEq, Repr

/-- The place that a response is put into. -/
inductive Slot where
  | vacant
  | filled (response : Arrival)
  /-- Nobody is left who could fill it. -/
  | abandoned
  deriving DecidableEq, Repr

/-- How far a request has come. -/
inductive RequestStage where
  /-- The connection was found open. -/
  | entered
  /-- The slot waits under the request's id. -/
  | registered
  /-- The caller has hold of the queue. -/
  | holding
  /-- The frame could not be queued. -/
  | refused
  /-- The frame was queued. -/
  | waiting
  /-- The time for a response is up. -/
  | overdue
  /-- The time was up, and nothing waited under the id any more. -/
  | missed
  | ended (result : Except ConnectionError Arrival)
  deriving Repr

/-- The number of a request on its connection. -/
abbrev Ticket := Nat

/-- A request and its slot. -/
structure Request where
  message : Message
  stage : RequestStage
  slot : Slot := .vacant
  /-- How many frames had come in when the slot was registered. -/
  since : Nat := 0
  /-- Whether the frame was queued. -/
  sent : Bool := false
  deriving Repr

namespace Request

/-- What the request came to. -/
def result? (r : Request) : Option (Except ConnectionError Arrival) :=
  match r.stage with
  | .ended result => some result
  | _ => none

/-- Whether the request has come back to its caller. -/
def isOver (r : Request) : Bool := r.result?.isSome

/-- Whether the slot waits for a response, or is about to be given one or taken away. -/
def isRegistered (r : Request) : Bool :=
  match r.stage with
  | .entered | .ended _ => false
  | _ => true

/-- Whether the caller has hold of the queue. -/
def isHolding (r : Request) : Bool :=
  match r.stage with
  | .holding => true
  | _ => false

end Request

/-- How far the writing of a frame has come that asks for no response. -/
inductive WriteStage where
  | entered
  /-- The caller has hold of the queue. -/
  | holding
  /-- How many bytes were queued. -/
  | ended (result : Except ConnectionError Nat)
  deriving Repr

/-- A frame that asks for no response. -/
structure Write where
  bytes : Bytes
  stage : WriteStage
  deriving Repr

namespace Write

/-- What the write came to. -/
def result? (w : Write) : Option (Except ConnectionError Nat) :=
  match w.stage with
  | .ended result => some result
  | _ => none

/-- Whether the caller has hold of the queue. -/
def isHolding (w : Write) : Bool :=
  match w.stage with
  | .holding => true
  | _ => false

end Write

/-- Who closes a connection. -/
inductive Closer where
  | caller
  | reader
  | writer
  deriving DecidableEq, Repr

/-- How far the closing has come. Only the first to close does any of it. -/
inductive Closing where
  | notYet
  /-- The connection is marked as closed. -/
  | flagged (closer : Closer)
  /-- Those who wait for the end were told. -/
  | announced (closer : Closer)
  /-- The queue can no longer be got hold of. -/
  | detached (closer : Closer)
  /-- The socket was shut down, or could not be. -/
  | settled (closer : Closer) (result : Except IoError Unit)
  deriving Repr

namespace Closing

/-- Whether the connection is marked as closed. -/
def isFlagged : Closing → Bool
  | notYet => false
  | _ => true

/-- Whether those who wait for the end were told. -/
def isAnnounced : Closing → Bool
  | notYet | flagged _ => false
  | _ => true

/-- Whether the queue can be got hold of. -/
def hasQueue : Closing → Bool
  | notYet | flagged _ | announced _ => true
  | _ => false

def isOver : Closing → Bool
  | settled .. => true
  | _ => false

end Closing

/-- What the writer is doing. -/
inductive Writer where
  | idle
  /-- It took a frame off the queue and has not looked whether the connection is closed. -/
  | holding (frame : Bytes)
  /-- The socket took the first `done` bytes of a frame. -/
  | writing (frame : Bytes) (done : Nat)
  /-- The socket failed, and the writer has not looked whether the connection is closed. -/
  | failed (cause : IoError)
  /-- It writes no more and has let go of the queue. -/
  | leaving (result : Except ConnectionError Unit)
  /-- It is closing the connection. -/
  | closing (result : Except ConnectionError Unit)
  | ended (result : Except ConnectionError Unit)
  deriving Repr

/-- Whether the writer may still take frames off the queue. -/
def Writer.isServing : Writer → Bool
  | idle | holding _ | writing .. | failed _ => true
  | _ => false

/-- What the reader is doing. -/
inductive Reader where
  | notStarted
  | reading
  /-- It took a frame off the socket, and the slot that waited for its id. -/
  | claimed (arrival : Arrival) (slot : Option Ticket)
  /-- The callback has a frame. -/
  | calling (arrival : Arrival)
  /-- It reads no more. -/
  | leaving (result : Except ConnectionError Unit)
  /-- It is closing the connection. -/
  | closing (result : Except ConnectionError Unit)
  | ended (result : Except ConnectionError Unit)
  /-- The callback was given up on, and the reader with it. -/
  | panicked (cause : Panic)
  deriving Repr

/-- Whether the reader takes no more frames and does nothing else either. -/
def Reader.isOver : Reader → Bool
  | ended _ | panicked _ => true
  | _ => false

/-- What has happened on a connection; nothing that the connection does depends on it. -/
structure History where
  /-- All frames that came in. -/
  arrivals : List Message := []
  /-- All frames that were queued. -/
  queued : List Bytes := []
  /-- The ids of the requests that timed out with their slots in place. -/
  expirations : List MessageId := []
  /-- The frames that were put into slots, with the requests they were put there for. -/
  delivered : List (Ticket × Arrival) := []
  /-- The frames that took a slot whose request had come back when they were to be put there. -/
  orphaned : List (Ticket × Arrival) := []
  /-- The frames that answered a request after its time. -/
  late : List Arrival := []
  /-- The frames that nobody asked for. -/
  unasked : List Arrival := []
  /-- What the finished calls to close came to. -/
  closes : List (Except ConnectionError Unit) := []
  /-- How often the socket was shut down. -/
  shutdowns : Nat := 0
  deriving Repr

/-- Everything that the users of a connection, its writer and its reader share (`Shared`). -/
structure Connection where
  options : ConnectionOptions
  /-- Whether unasked frames are handed to a callback. -/
  hasCallback : Bool := false
  requests : List Request := []
  writes : List Write := []
  /-- The slots that wait, under the ids they wait for. -/
  pending : List (MessageId × Ticket) := []
  /-- The ids whose responses are late, the oldest first. -/
  expired : List MessageId := []
  /-- The frames that wait for the writer. -/
  queue : List Bytes := []
  closing : Closing := .notYet
  writer : Writer := .idle
  reader : Reader := .notStarted
  /-- The bytes that the socket took. -/
  wire : Bytes := []
  history : History := {}
  deriving Repr

namespace Connection

/-- A connection on a socket that nobody has used yet. -/
def new (options : ConnectionOptions) : Connection := { options }

/-- Whether the connection is marked as closed (`is_closed`). -/
def isClosed (c : Connection) : Bool := c.closing.isFlagged

/-- Whether those who wait for the end were told, which is what they look at. -/
def isDone (c : Connection) : Bool := c.closing.isAnnounced

/-- How many requests wait for a response (`pending_requests`). -/
def pendingRequests (c : Connection) : Nat := c.pending.length

/-- How many frames may wait for the writer. -/
def capacity (c : Connection) : Nat := max c.options.queueCapacity 1

/-- What a request came to. -/
def result? (c : Connection) (t : Ticket) : Option (Except ConnectionError Arrival) :=
  (c.requests[t]?).bind Request.result?

end Connection

end ClusterLink
