import ClusterLink.Client.Dial
import ClusterLink.Connection.Reading
import ClusterLink.Server.Handshake
/-!
# From the handshake to the read loop

Once the handshake is over, either side makes a connection of its socket. The reader of the
connection goes on with the stream where the handshake has left it: each side has read one frame.
-/

namespace ClusterLink

/-- A new socket up to the connection on which its node is served. -/
def Gate.connect (g : Gate) (options : ConnectionOptions) (s : Socket) :
    Except Refusal (JoinRequest × ReadLoop) :=
  match g.letIn s with
  | (.error refusal, _) => .error refusal
  | (.ok join, t) => .ok (join, { connection := .new options, source := t.source })

/-- A dialed socket up to the connection that is handed to the client's user. -/
def establish (greeting : Message) (options : ConnectionOptions) (s : Socket) :
    Except ClientError ReadLoop :=
  match dial greeting s with
  | (.error cause, _) => .error cause
  | (.ok (), t) => .ok { connection := .new options, source := t.source }

end ClusterLink
