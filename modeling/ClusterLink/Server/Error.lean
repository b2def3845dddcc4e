import ClusterLink.Connection.Error
import ClusterLink.Join.Signature
import ClusterLink.Payload.Basic
import ClusterLink.Tls.Files
/-!
# Why a server gives up a socket
-/

namespace ClusterLink

/-- Why a server could not start, or ended the conversation on a socket (`ServerError`). -/
inductive ServerError where
  | tls (cause : TlsError)
  | join (cause : JoinError)
  | payload (cause : PayloadError)
  | frame (cause : FrameError)
  | connection (cause : ConnectionError)
  | io (cause : IoError)
  deriving DecidableEq, Repr

def ServerError.message : ServerError → String
  | tls cause => cause.message
  | join cause => "authentication failed: " ++ cause.message
  | payload cause => "undecodable join request: " ++ cause.message
  | frame cause => cause.message
  | connection cause => cause.message
  | io cause => "Server IO Error: " ++ cause.text

end ClusterLink
