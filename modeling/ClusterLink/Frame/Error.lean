import ClusterLink.IoError
import ClusterLink.Message.Header
/-!
# Why no frame came through

`FrameError.isDisconnect` tells the errors that end a conversation quietly from those that are
reported as failures.
-/

namespace ClusterLink

/-- The largest body a peer may announce (`MAX_BODY_SIZE`). -/
def maxBodySize : UInt32 := 67108864

/-- Why a frame could not be read or written (`TransportError`). -/
inductive FrameError where
  | header (cause : HeaderError)
  | oversized (declared : UInt32)
  | shortBody (declared : UInt32) (got : Nat)
  /-- The stream ended between two frames. -/
  | ended
  | io (cause : IoError)
  deriving DecidableEq, Repr

namespace FrameError

def message : FrameError → String
  | header cause => "malformed header: " ++ cause.message
  | oversized declared =>
    "frame announces " ++ toString declared.toNat ++ " body bytes, limit is " ++
      toString maxBodySize.toNat
  | shortBody declared got =>
    "stream ended after " ++ toString got ++ " of " ++ toString declared.toNat ++ " body bytes"
  | ended => "connection closed by peer"
  | io cause => "Transport IO Error: " ++ cause.text

/-- Whether the error only says that the peer is gone (`is_disconnect`). -/
def isDisconnect : FrameError → Bool
  | ended => true
  | io cause => cause.kind.isDisconnect
  | _ => false

end FrameError

end ClusterLink
