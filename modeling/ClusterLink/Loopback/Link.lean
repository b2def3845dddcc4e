import ClusterLink.Connection.ReadLoop
import ClusterLink.Frame.Parse
/-!
# A connection with the other end at hand

On the loopback network of a host both ends of a socket can be looked at. A `Link` is a connection
together with the bytes that were sent to it and are not read yet, and with how much its peer has
read. After each operation everyone has gone on as far as possible, so what is seen does not depend
on who was faster.
-/

namespace ClusterLink

/-- A connection, what lies in front of its reader, and what its peer has read. -/
structure Link where
  connection : Connection
  /-- What the callback does, if the reader was started with one. -/
  callback : Option Callback := none
  /-- The bytes that have arrived and were not read. -/
  inbox : Bytes := []
  /-- Whether the peer has ended its sending side. -/
  isEnded : Bool := false
  /-- How many of the connection's bytes the peer has read. -/
  peerRead : Nat := 0

/-- Whether a reader that finds no whole frame waits for more. -/
def FrameError.isIncomplete : FrameError → Bool
  | ended | header (.length _) | shortBody .. => true
  | _ => false

namespace Link

/-- A link on which nothing was said yet. -/
def new (options : ConnectionOptions) : Link where
  connection := .new options

/-- Whether no byte will come after those in the inbox. -/
def isOver (l : Link) : Bool := l.isEnded || l.connection.closing.isOver

/-- Whether the reader waits for a frame. -/
def isReading (l : Link) : Bool :=
  match l.connection.reader with
  | .reading => true
  | _ => false

/-- The reader takes all whole frames, and stops if there will not be a further one. -/
def pump (l : Link) : Link :=
  if l.isReading then
    match _h : Frame.parse l.inbox with
    | (.ok m, rest) =>
      pump { l with connection := l.connection.receive l.callback m, inbox := rest }
    | (.error e, rest) =>
      if e.isIncomplete && !l.isOver then l
      else { l with connection := l.connection.endReading e, inbox := rest }
  else l
termination_by l.inbox.length
decreasing_by
  have := Frame.length_parse_snd _h
  simp only [headerSize] at this
  omega

/-- Everyone goes on as far as possible. -/
def settle (l : Link) : Link := { l with connection := l.connection.settle }.pump

/-- Starts the read loop. -/
def listen (l : Link) (callback : Option Callback) : Except ConnectionError Link :=
  match l.connection.startError? with
  | some e => .error e
  | none =>
    .ok { l with callback, connection := l.connection.startReading callback.isSome }.settle

/-- Makes a request. -/
def send (l : Link) (m : Message) : Ticket × Link :=
  let (t, c) := l.connection.request m
  (t, { l with connection := c }.settle)

/-- Waits for the response to a request. If it is not there by now, it will not come in time. -/
def await (l : Link) (t : Ticket) : Except ConnectionError Message × Link :=
  let attended := l.connection.attend t
  let c := if (attended.result? t).isSome then attended else attended.timeOut t
  (((c.result? t).getD (.error .closed)).map Arrival.message, { l with connection := c })

/-- Writes bytes that ask for no response. -/
def write (l : Link) (bytes : Bytes) : Except ConnectionError Nat × Link :=
  let (result, c) := l.connection.push bytes
  (result, { l with connection := c }.settle)

/-- The bytes that the peer has not read. -/
def unread (l : Link) : Bytes := l.connection.wire.drop l.peerRead

/-- The peer reads some bytes. -/
def read (l : Link) (n : Nat) : Bytes × Link :=
  (l.unread.take n, { l with peerRead := l.peerRead + (l.unread.take n).length })

/-- The peer reads all whole frames. -/
def readFrames (l : Link) : List Message × Link :=
  let (frames, _, rest) := Frame.parseAll l.unread
  (frames, { l with peerRead := l.connection.wire.length - rest.length })

/-- The peer sends some bytes. -/
def receive (l : Link) (bytes : Bytes) : Link := { l with inbox := l.inbox ++ bytes }.settle

/-- The peer sends some messages. -/
def receiveAll (l : Link) (messages : List Message) : Link :=
  l.receive (messages.flatMap Message.encode)

/-- The peer ends its sending side. -/
def hangUp (l : Link) : Link := { l with isEnded := true }.settle

/-- Closes the connection. -/
def close (l : Link) : Link := { l with connection := l.connection.close }.settle

/-- How the read loop ended. -/
def readerResult? (l : Link) : Option (Except ConnectionError Unit) :=
  match l.connection.reader with
  | .ended result => some result
  | _ => none

end Link

end ClusterLink
