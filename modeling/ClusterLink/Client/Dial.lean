import ClusterLink.Client.Config
import ClusterLink.Client.Error
import ClusterLink.Connection.Opening
import ClusterLink.Connection.ReadLoop
import ClusterLink.Frame.Socket
import ClusterLink.Join.Signature
/-!
# Dialing

A client that dials a server sends a signed join request and waits for a welcome under the same id.
A server that refuses says nothing and ends the connection. The dialed connection is read from then
on; the client answers pings itself and hands all else that nobody waits for to its callback.
-/

namespace ClusterLink

namespace ClientConfig

/-- The join request that the client signs at a given time (`signed`). -/
def joinRequest (c : ClientConfig) (mac : Mac) (now : UInt64) : JoinRequest :=
  .sign mac c.secret c.nodeId c.tags c.replica now

/-- The first message on a dialed socket, if a frame can hold it. -/
def greeting (c : ClientConfig) (mac : Mac) (now : UInt64) (id : MessageId) :
    Except HeaderError Message :=
  Message.ofPayload id (.greeting (c.joinRequest mac now))

end ClientConfig

/-- Whether a message welcomes the node that sent a greeting. -/
def Message.isWelcomeFor (greeting reply : Message) : Bool :=
  reply.kind = .welcome && reply.id = greeting.id

/-- Waits for the answer to a greeting. -/
def awaitWelcome (greeting : Message) (s : Socket) : Except ClientError Unit × Socket :=
  match s.read with
  | (.ok reply, t) =>
    if greeting.isWelcomeFor reply then (.ok (), t) else (.error (.unexpectedReply reply.kind), t)
  | (.error cause, t) => (.error (if cause.isDisconnect then .rejected else .frame cause), t)

/-- Sends a greeting and waits for the answer. -/
def dial (greeting : Message) (s : Socket) : Except ClientError Unit × Socket :=
  match s.write greeting with
  | (.error cause, t) => (.error (.frame cause), t)
  | (.ok (), t) => awaitWelcome greeting t

/-- Why a dial gives no connection. -/
inductive DialFailure where
  | failed (error : ClientError)
  /-- The dial itself was given up. -/
  | panicked (cause : Panic)
  deriving DecidableEq, Repr

/-- How a dial fails that cannot open its connection. -/
def OpeningFailure.dialFailure : OpeningFailure → DialFailure
  | failed cause => .failed (.connection (.io cause))
  | panicked cause => .panicked cause

/-- Makes a connection of a connected socket: the greeting has to be answered, the connection to
open, and its reader to start (`dial`, without the TLS handshake). `writer` and `reader` say what
became of starting the two threads. -/
def dialConnection (greeting : Message) (options : ConnectionOptions)
    (writer reader : Except IoError Unit) (s : Socket) : Except DialFailure Connection :=
  match dial greeting s with
  | (.error cause, _) => .error (.failed cause)
  | (.ok (), _) =>
    match Connection.launch options writer, reader with
    | .error failure, _ => .error failure.dialFailure
    | .ok _, .error cause => .error (.failed (.connection (.io cause)))
    | .ok c, .ok () => .ok (c.startReading true)

/-- What a dialed connection does with frames that nobody waits for (`inbound`). -/
def inbound (callback : Option Callback) : Callback := fun m =>
  if m.kind = .ping then { replies := [m.pong] }
  else match callback with
    | some f => f m
    | none => {}

/-- The round trip of a ping is over; nothing but a pong will do. -/
def checkPong (reply : Message) : Except ClientError Unit :=
  if reply.kind = .pong then .ok () else .error (.unexpectedReply reply.kind)

end ClusterLink
