import ClusterLink.Frame.Error
import ClusterLink.Text.Duration
/-!
# Why a connection does not answer
-/

namespace ClusterLink

/-- Why a request, a write or a read loop failed (`ConnectionError`). -/
inductive ConnectionError where
  | closed
  | timeout (id : MessageId) (waited : Duration)
  /-- A request with the same id still waits for its response. -/
  | duplicateId (id : MessageId)
  | alreadyListening
  | frame (cause : FrameError)
  | io (cause : IoError)
  deriving DecidableEq, Repr

def ConnectionError.message : ConnectionError → String
  | closed => "connection is closed"
  | timeout id waited => "no response to " ++ id.text ++ " within " ++ waited.text
  | duplicateId id => "request " ++ id.text ++ " is already in flight on this connection"
  | alreadyListening => "read loop already started"
  | frame cause => cause.message
  | io cause => "Connection IO Error: " ++ cause.text

end ClusterLink
