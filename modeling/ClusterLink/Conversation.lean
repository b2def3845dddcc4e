import ClusterLink.Frame.Parse
import ClusterLink.Server.Service
/-!
# A client and a server talking

The frames that one end writes travel as bytes to the other, which takes a frame as soon as all of
it has arrived. The client makes requests on its connection; the server answers them from its reader
and its workers.

A run of `Conversation.machine` is any interleaving of both ends and of the bytes between them.
-/

namespace ClusterLink

/-- One direction of a stream: how many bytes have arrived, and how many of them were read. What was
sent is on the wire of the sending end. -/
structure Transit where
  arrived : Nat := 0
  consumed : Nat := 0
  deriving DecidableEq, Repr

namespace Transit

/-- The bytes that have arrived and were not read. -/
def unread (t : Transit) (wire : Bytes) : Bytes := (wire.take t.arrived).drop t.consumed

/-- Some more bytes arrive. -/
def arrive (t : Transit) (wire : Bytes) (n : Nat) : Option Transit :=
  if 0 < n ∧ t.arrived + n ≤ wire.length then some { t with arrived := t.arrived + n } else none

/-- The first frame, if all of it has arrived. -/
def take? (t : Transit) (wire : Bytes) : Option (Message × Transit) :=
  match Frame.parse (t.unread wire) with
  | (.ok m, rest) => some (m, { t with consumed := t.arrived - rest.length })
  | _ => none

end Transit

/-- Both ends and what is between them. -/
structure Conversation where
  client : Connection
  service : Service
  toServer : Transit := {}
  toClient : Transit := {}
  deriving Repr

/-- A step of one end or of the stream. -/
inductive ConversationEvent where
  /-- A step at the client that takes no frame off its socket. -/
  | client (event : ConnectionEvent)
  /-- A step at the server that takes no frame off its socket. -/
  | service (event : ServiceEvent)
  | arriveAtServer (bytes : Nat)
  | arriveAtClient (bytes : Nat)
  /-- The server's reader takes a frame. -/
  | serverReads
  /-- The client's reader takes a frame. -/
  | clientReads
  deriving Repr

namespace Conversation

/-- Whether an event takes a frame off a socket or ends the reading of it. -/
def isReading : ConnectionEvent → Bool
  | .reader (.arrive _) => true
  | .reader (.stop _) => true
  | _ => false

def isServiceReading : ServiceEvent → Bool
  | .connection e => isReading e
  | _ => false

def step (handler : Option Handler) (s : Conversation) : ConversationEvent → Option Conversation
  | .client e =>
    if isReading e then none else (s.client.step e).map fun client => { s with client }
  | .service e =>
    if isServiceReading e then none
    else (s.service.step handler e).map fun service => { s with service }
  | .arriveAtServer n =>
    (s.toServer.arrive s.client.wire n).map fun toServer => { s with toServer }
  | .arriveAtClient n =>
    (s.toClient.arrive s.service.connection.wire n).map fun toClient => { s with toClient }
  | .serverReads =>
    (s.toServer.take? s.client.wire).bind fun (m, toServer) =>
      (s.service.step handler (.connection (.reader (.arrive m)))).map fun service =>
        { s with service, toServer }
  | .clientReads =>
    (s.toClient.take? s.service.connection.wire).bind fun (m, toClient) =>
      (s.client.step (.reader (.arrive m))).map fun client => { s with client, toClient }

/-- A client that reads, and a server that serves it. -/
def machine (handler : Option Handler) (client server : ConnectionOptions) (workers : Nat) :
    Machine Conversation ConversationEvent where
  start := {
    client := { Connection.new client with reader := .reading }
    service := .new server workers }
  step := step handler

end Conversation

end ClusterLink
