import ClusterLink.Client.Dial
import ClusterLink.Server.Handshake
/-!
# A client and a server shaking hands

The client's greeting travels to the server, and whatever the server answers before it registers the
node or hangs up travels back. Either side writes to a sink that takes bytes as it likes, and on the
way the bytes may be cut in any way. With the welcome the two agree, and each side then opens its
connection for itself: memory for a queue, threads, and on the server the observer of new
connections. No byte of the socket tells the other side what comes of that.
-/

namespace ClusterLink

/-- A dialing client, a server, and the streams between them. -/
structure Handshake where
  config : ClientConfig
  gate : Gate
  /-- The settings of the connections that the server accepts. -/
  options : ConnectionOptions := {}
  /-- Is told of a new connection before it is registered. -/
  hook : Option ConnectionHook := none
  /-- The time at the client when it signs. -/
  signedAt : UInt64
  /-- The id of the greeting. -/
  id : MessageId
  registry : Registry
  /-- The connection that the server makes of the socket. -/
  connection : ConnectionId
  /-- What the client writes to. -/
  clientSink : Frame.Sink := {}
  /-- What the server writes to. -/
  serverSink : Frame.Sink := {}
  /-- How the bytes that the client wrote arrive at the server. -/
  toServer : Bytes → Frame.Source
  /-- How the bytes that the server wrote arrive at the client. -/
  toClient : Bytes → Frame.Source
  /-- What becomes of starting the writer of the server's connection. -/
  serverWriter : Except IoError Unit := .ok ()
  /-- What becomes of starting the writer of the client's connection. -/
  clientWriter : Except IoError Unit := .ok ()
  /-- What becomes of starting the reader of the client's connection. -/
  clientReader : Except IoError Unit := .ok ()

/-- What both sides have of a handshake. -/
structure HandshakeResult where
  client : Except DialFailure Connection
  server : Admission
  registry : Registry

namespace Handshake

/-- The handshake with a given greeting. -/
def runWith (h : Handshake) (greeting : Message) : HandshakeResult :=
  let sent := (h.clientSink.writeMessage greeting).2.written
  let (server, registry, socket) := h.gate.enroll h.options h.serverWriter h.hook h.registry
    h.connection { source := h.toServer sent, sink := h.serverSink }
  let client := dialConnection greeting h.config.connectionOptions h.clientWriter h.clientReader
    { source := h.toClient socket.sink.written, sink := h.clientSink }
  { client, server, registry }

/-- The handshake, if a frame can hold the greeting. -/
def run (h : Handshake) : Except HeaderError HandshakeResult :=
  (h.config.greeting h.gate.mac h.signedAt h.id).map h.runWith

end Handshake

end ClusterLink
