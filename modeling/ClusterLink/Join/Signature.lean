import ClusterLink.Hash.Mac
import ClusterLink.Join.Request
import ClusterLink.Text.Duration
import ClusterLink.Text.Hex
/-!
# Signing and checking join requests

The digest of a request is the authentication code of its signing input under the secret of the
cluster, in hexadecimal. The signing input is the timestamp, the node id, the role and the tags,
separated by bars, with commas between the tags. A request is checked in three steps: its form,
which needs no secret, its digest, and its age.

Results:
* `JoinRequest.check_eq_ok_iff`: the three checks pass exactly on the requests that
  `JoinRequest.Accepts` describes.
-/

namespace ClusterLink

/-- Why a join request is refused (`AuthError`). -/
inductive JoinError where
  | emptyNodeId
  | nodeIdTooLong
  | reservedCharacter (text : String)
  | missingTimestamp
  | malformedDigest
  | badDigest
  | stale (skew : Duration)
  | unexpectedMessage (got : String)
  | rejected
  deriving DecidableEq, Repr

/-- The most bytes a node id may have (`MAX_NODE_ID_LEN`). -/
def maxNodeIdBytes : Nat := 255

/-- The bytes of a digest's text (`DIGEST_HEX_LEN`). -/
def digestTextBytes : Nat := 64

namespace JoinError

def message : JoinError → String
  | emptyNodeId => "node id is empty"
  | nodeIdTooLong => "node id is longer than " ++ toString maxNodeIdBytes ++ " bytes"
  | reservedCharacter text => "'" ++ text ++ "' contains a reserved separator"
  | missingTimestamp => "join request carries no timestamp"
  | malformedDigest => "digest is not a " ++ toString digestTextBytes ++ " character hex string"
  | badDigest => "digest does not match"
  | stale skew => "join request is " ++ skew.text ++ " away from local time"
  | unexpectedMessage got => "join request was expected, got " ++ got
  | rejected => "join rejected by validator"

end JoinError

/-- What stands between two fields of a signing input (`FIELD_SEPARATOR`). -/
def fieldSeparator : Char := '|'

/-- What stands between two tags of a signing input (`TAG_SEPARATOR`). -/
def tagSeparator : Char := ','

/-- The text whose authentication code a digest is (`signing_input`). -/
def signingInput (timestamp : UInt64) (nodeId : String) (isReplica : Bool) (tags : List String) :
    String :=
  toString timestamp.toNat ++ "|" ++ nodeId ++ "|" ++ (if isReplica then "true" else "false") ++
    "|" ++ String.intercalate "," tags

/-- The authentication code of the fields of a join request. -/
def joinCode (mac : Mac) (secret : Bytes) (timestamp : UInt64) (nodeId : String) (isReplica : Bool)
    (tags : List String) : Bytes :=
  mac.tag secret (bytesOfText (signingInput timestamp nodeId isReplica tags))

/-- The digest of the fields of a join request (`digest`). -/
def joinDigest (mac : Mac) (secret : Bytes) (timestamp : UInt64) (nodeId : String)
    (isReplica : Bool) (tags : List String) : String :=
  Hex.encode (joinCode mac secret timestamp nodeId isReplica tags)

namespace JoinRequest

/-- The request with the digest that the secret gives it (`signed_at`). Nothing is checked. -/
def sign (mac : Mac) (secret : Bytes) (nodeId : String) (tags : List String) (isReplica : Bool)
    (timestamp : UInt64) : JoinRequest :=
  { digest := joinDigest mac secret timestamp nodeId isReplica tags
    nodeId, tags, timestamp, isReplica }

/-- Whether a tag would run into its neighbours in a signing input. -/
def isReservedTag (tag : String) : Bool :=
  tag.toList.contains fieldSeparator || tag.toList.contains tagSeparator

/-- The checks that need no secret (`validate`); the first that fails is reported. -/
def validate (r : JoinRequest) : Except JoinError Unit :=
  if r.nodeId = "" then .error .emptyNodeId
  else if maxNodeIdBytes < r.nodeId.utf8ByteSize then .error .nodeIdTooLong
  else if r.nodeId.toList.contains fieldSeparator then .error (.reservedCharacter r.nodeId)
  else match r.tags.find? isReservedTag with
    | some tag => .error (.reservedCharacter tag)
    | none =>
      if r.timestamp = 0 then .error .missingTimestamp
      else if r.digest.utf8ByteSize ≠ digestTextBytes then .error .malformedDigest
      else .ok ()

/-- Compares the digest with the one that the secret gives (`verify`). -/
def verify (mac : Mac) (secret : Bytes) (r : JoinRequest) : Except JoinError Unit :=
  match Hex.decode? r.digest with
  | none => .error .malformedDigest
  | some claimed =>
    if claimed = joinCode mac secret r.timestamp r.nodeId r.isReplica r.tags then .ok ()
    else .error .badDigest

/-- The distance between two times in milliseconds. -/
def skew (now timestamp : UInt64) : Duration :=
  .ofMillis (max now.toNat timestamp.toNat - min now.toNat timestamp.toNat)

/-- Refuses a request that was signed further than `maxSkew` from now (`check_freshness`). -/
def checkFreshness (now : UInt64) (maxSkew : Duration) (r : JoinRequest) : Except JoinError Unit :=
  let away := skew now r.timestamp
  if maxSkew < away then .error (.stale away) else .ok ()

/-- Form, digest and, where a skew is set, age. -/
def check (mac : Mac) (secret : Bytes) (now : UInt64) (maxSkew : Option Duration)
    (r : JoinRequest) : Except JoinError Unit := do
  r.validate
  r.verify mac secret
  match maxSkew with
  | some most => r.checkFreshness now most
  | none => .ok ()

/-! ## What the checks come to -/

/-- A form that can be signed without ambiguity. -/
structure WellFormed (r : JoinRequest) : Prop where
  nodeId_ne : r.nodeId ≠ ""
  nodeId_size : r.nodeId.utf8ByteSize ≤ maxNodeIdBytes
  nodeId_free : fieldSeparator ∉ r.nodeId.toList
  tags_free : ∀ tag ∈ r.tags, fieldSeparator ∉ tag.toList ∧ tagSeparator ∉ tag.toList
  timestamp_ne : r.timestamp ≠ 0
  digest_size : r.digest.utf8ByteSize = digestTextBytes

/-- A well-formed request with the right digest that is not too far from now. -/
structure Accepts (mac : Mac) (secret : Bytes) (now : UInt64) (maxSkew : Option Duration)
    (r : JoinRequest) : Prop where
  form : r.WellFormed
  digest : Hex.decode? r.digest = some (joinCode mac secret r.timestamp r.nodeId r.isReplica r.tags)
  age : ∀ most, maxSkew = some most → skew now r.timestamp ≤ most

theorem isReservedTag_eq_false (tag : String) :
    isReservedTag tag = false ↔ fieldSeparator ∉ tag.toList ∧ tagSeparator ∉ tag.toList := by
  simp [isReservedTag]

theorem validate_eq_ok_iff (r : JoinRequest) : r.validate = .ok () ↔ r.WellFormed := by
  constructor
  · intro h
    unfold validate at h
    split at h
    · cases h
    next h1 =>
    split at h
    · cases h
    next h2 =>
    split at h
    · cases h
    next h3 =>
    split at h
    · cases h
    next h4 =>
    split at h
    · cases h
    next h5 =>
    split at h
    · cases h
    next h6 =>
    refine ⟨h1, by omega, by simpa using h3, fun tag ht => ?_, h5, by simpa using h6⟩
    have := List.find?_eq_none.1 h4 tag ht
    exact (isReservedTag_eq_false tag).1 (by simpa using this)
  · rintro ⟨h1, h2, h3, h4, h5, h6⟩
    have hfind : r.tags.find? isReservedTag = none := by
      rw [List.find?_eq_none]
      intro tag ht
      simpa using (isReservedTag_eq_false tag).2 (h4 tag ht)
    unfold validate
    rw [if_neg h1, if_neg (by omega), if_neg (by simpa using h3)]
    simp only [hfind]
    rw [if_neg h5, if_neg (by simpa using h6)]

theorem verify_eq_ok_iff (mac : Mac) (secret : Bytes) (r : JoinRequest) :
    r.verify mac secret = .ok () ↔
      Hex.decode? r.digest = some (joinCode mac secret r.timestamp r.nodeId r.isReplica r.tags) := by
  unfold verify
  split
  · next h => simp [h]
  · next claimed h =>
    rw [h]
    by_cases hc : claimed = joinCode mac secret r.timestamp r.nodeId r.isReplica r.tags
    · simp [hc]
    · simp [hc]

theorem checkFreshness_eq_ok_iff (now : UInt64) (most : Duration) (r : JoinRequest) :
    r.checkFreshness now most = .ok () ↔ skew now r.timestamp ≤ most := by
  have hle : skew now r.timestamp ≤ most ↔ ¬ most < skew now r.timestamp := Nat.not_lt.symm
  unfold checkFreshness
  rw [hle]
  by_cases h : most < skew now r.timestamp <;> simp [h]

theorem check_eq_ok_iff (mac : Mac) (secret : Bytes) (now : UInt64) (maxSkew : Option Duration)
    (r : JoinRequest) :
    r.check mac secret now maxSkew = .ok () ↔ r.Accepts mac secret now maxSkew := by
  have hbind : r.check mac secret now maxSkew = .ok () ↔
      r.validate = .ok () ∧ r.verify mac secret = .ok () ∧
        (match maxSkew with
          | some most => r.checkFreshness now most
          | none => .ok ()) = .ok () := by
    unfold check
    cases r.validate with
    | error e => simp [bind, Except.bind]
    | ok u =>
      cases r.verify mac secret with
      | error e => simp [bind, Except.bind]
      | ok v => simp [bind, Except.bind]
  rw [hbind, validate_eq_ok_iff, verify_eq_ok_iff]
  constructor
  · rintro ⟨h1, h2, h3⟩
    refine ⟨h1, h2, ?_⟩
    rintro most rfl
    exact (checkFreshness_eq_ok_iff now most r).1 h3
  · rintro ⟨h1, h2, h3⟩
    refine ⟨h1, h2, ?_⟩
    cases maxSkew with
    | none => rfl
    | some most => exact (checkFreshness_eq_ok_iff now most r).2 (h3 most rfl)

end JoinRequest

end ClusterLink
