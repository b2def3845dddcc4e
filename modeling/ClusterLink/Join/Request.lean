import ClusterLink.Payload.Decoder
/-!
# Join requests

A node that wants to join sends its id, its tags, its role and the time, together with a digest of
these under the secret that all nodes share.
-/

namespace ClusterLink

/-- What a node sends to join (`JoinRequest`). -/
structure JoinRequest where
  /-- The digest of the other fields, in hexadecimal. -/
  digest : String
  nodeId : String
  tags : List String
  /-- When the request was signed, in milliseconds since 1970. -/
  timestamp : UInt64
  isReplica : Bool
  deriving DecidableEq, Repr

namespace JoinRequest

def encode (r : JoinRequest) : Bytes :=
  Encoder.text r.digest ++ (Encoder.text r.nodeId ++ (Encoder.textList r.tags ++
    (encodeUInt64 r.timestamp ++ Encoder.bool r.isReplica)))

def decoder : Decoder JoinRequest := do
  let digest ← Decoder.text
  let nodeId ← Decoder.text
  let tags ← Decoder.textList
  let timestamp ← Decoder.uint64
  let isReplica ← Decoder.bool
  return { digest, nodeId, tags, timestamp, isReplica }

end JoinRequest

end ClusterLink
