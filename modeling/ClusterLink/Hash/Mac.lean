import ClusterLink.Hash.Sha256
/-!
# Message authentication codes

A code of 32 bytes depends on a key and a message. What the library proves about signatures holds
for any such function; what runs is HMAC with SHA-256.
-/

namespace ClusterLink

/-- A keyed function to 32 bytes (`mac`). -/
structure Mac where
  tag : (key message : Bytes) → Bytes
  length_tag : ∀ key message, (tag key message).length = 32

namespace Mac

/-- The key as one block: a long key is hashed first, a short one is filled up with zeros. -/
def blockKey (key : Bytes) : Bytes :=
  let k := if key.length ≤ 64 then key else Sha256.hash key
  k ++ List.replicate (64 - k.length) 0

/-- HMAC with SHA-256. -/
def hmacSha256 : Mac where
  tag key message :=
    let k := blockKey key
    let inner := Sha256.hash (k.map (· ^^^ 0x36) ++ message)
    Sha256.hash (k.map (· ^^^ 0x5c) ++ inner)
  length_tag _ _ := by simp

end Mac

end ClusterLink
