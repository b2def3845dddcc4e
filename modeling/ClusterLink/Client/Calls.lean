import ClusterLink.Client.Allocation
import ClusterLink.Client.Dial
/-!
# What a caller asks of a client

A caller who is alone with a client makes one call after the other. Between two calls connections
may be closed by others, and while a request is under way too.
-/

namespace ClusterLink

/-- What comes of a message on a connection, and the connections that others close meanwhile. -/
abbrev Exchange := Message → ConnectionId → Except ConnectionError Message × List ConnectionId

/-- A call, with what the dials in its course come to; or a connection that is closed by others. -/
inductive ClientCall where
  | allocate (dials : List Bool)
  | free (connection : ConnectionId)
  | send (dials : List Bool) (exchange : Exchange) (m : Message)
  | ping (dials : List Bool) (exchange : Exchange) (id : MessageId)
  | close
  | drop (connection : ConnectionId)

namespace Client

/-- Sends a message on a borrowed connection and waits for the response (`send`). -/
def send (dials : List Bool) (exchange : Exchange) (m : Message) (c : Client) :
    Except ClientError Message × Client :=
  c.use dials (exchange m)

/-- Sends a ping on a borrowed connection and waits for the pong (`ping`). -/
def ping (dials : List Bool) (exchange : Exchange) (id : MessageId) (c : Client) :
    Except ClientError Unit × Client :=
  let (result, d) := c.send dials exchange (.bare id .ping)
  (result.bind checkPong, d)

/-- The client after a call. -/
def perform (c : Client) : ClientCall → Client
  | .allocate dials => (c.allocate dials).2
  | .free id => c.free id
  | .send dials exchange m => (c.send dials exchange m).2
  | .ping dials exchange id => (c.ping dials exchange id).2
  | .close => c.close
  | .drop id => c.lose [id]

end Client

end ClusterLink
