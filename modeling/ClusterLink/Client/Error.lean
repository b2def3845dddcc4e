import ClusterLink.Connection.Error
import ClusterLink.Payload.Basic
import ClusterLink.Tls.Files
/-!
# Why a client does not answer
-/

namespace ClusterLink

/-- Why a client could not dial, lend or use a connection (`ClientError`). -/
inductive ClientError where
  | noAvailableConnections
  | closed
  /-- The server ended the connection instead of answering the join request. -/
  | rejected
  | unexpectedReply (kind : Kind)
  | tls (cause : TlsError)
  | payload (cause : PayloadError)
  | frame (cause : FrameError)
  | connection (cause : ConnectionError)
  | io (cause : IoError)
  deriving DecidableEq, Repr

def ClientError.message : ClientError → String
  | noAvailableConnections => "no available connections"
  | closed => "client is closed"
  | rejected => "server rejected the join request"
  | unexpectedReply kind => "expected a welcome for the join request, got " ++ kind.text
  | tls cause => cause.message
  | payload cause => cause.message
  | frame cause => cause.message
  | connection cause => cause.message
  | io cause => "Client IO Error: " ++ cause.text

end ClusterLink
