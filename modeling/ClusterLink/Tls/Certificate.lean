import ClusterLink.Bytes
/-!
# Certificates and private keys

Both are nested fields of the distinguished encoding: a tag, a length and a content. Of a
certificate only the form is checked and the public key is taken, as trust in it is decided when a
peer presents it. Of a private key on an elliptic curve the public half is taken, to be compared
with the certificate's.
-/

namespace ClusterLink

namespace Der

/-- One field. -/
structure Field where
  tag : UInt8
  content : Bytes
  deriving DecidableEq, Repr

def integer : UInt8 := 0x02
def bitString : UInt8 := 0x03
def octetString : UInt8 := 0x04
def objectId : UInt8 := 0x06
def sequence : UInt8 := 0x30

/-- The tag of an optional field with a number. -/
def context (n : UInt8) : UInt8 := 0xA0 ||| n

/-- The length of a content, in the only form that is allowed for it. -/
def readLength : Bytes → Option (Nat × Bytes)
  | 0x81 :: a :: rest => if 0x80 ≤ a then some (a.toNat, rest) else none
  | 0x82 :: a :: b :: rest =>
    let n := a.toNat * 256 + b.toNat
    if 256 ≤ n then some (n, rest) else none
  | a :: rest => if a < 0x80 then some (a.toNat, rest) else none
  | [] => none

/-- The first field and what stands behind it. -/
def read : Bytes → Option (Field × Bytes)
  | [] => none
  | tag :: rest => do
    let (n, rest) ← readLength rest
    if (rest.take n).length = n then return (⟨tag, rest.take n⟩, rest.drop n) else none

/-- The content of a first field with a tag, and what stands behind it. -/
def expect (tag : UInt8) (bytes : Bytes) : Option (Bytes × Bytes) := do
  let (field, rest) ← read bytes
  if field.tag = tag then return (field.content, rest) else none

/-- The content of a field with a tag that is all there is. -/
def only (tag : UInt8) (bytes : Bytes) : Option Bytes :=
  match expect tag bytes with
  | some (content, []) => some content
  | _ => none

/-- What stands behind an optional first field with a tag. -/
def skip (tag : UInt8) (bytes : Bytes) : Bytes :=
  match expect tag bytes with
  | some (_, rest) => rest
  | none => bytes

end Der

/-- An algorithm and the key bits for it. -/
structure PublicKey where
  algorithm : Bytes
  key : Bytes
  deriving DecidableEq, Repr

open Der

/-- The public key of a certificate in good form. -/
def certificateKey? (bytes : Bytes) : Option PublicKey := do
  let (toSign, rest) ← expect sequence (← only sequence bytes)
  let (_, rest) ← expect sequence rest
  let _ ← only bitString rest
  let (_, fields) ← expect integer (skip (context 0) toSign)
  let (_, fields) ← expect sequence fields
  let (_, fields) ← expect sequence fields
  let (_, fields) ← expect sequence fields
  let (_, fields) ← expect sequence fields
  let (info, _) ← expect sequence fields
  let (algorithm, rest) ← expect sequence info
  let key ← only bitString rest
  return { algorithm, key }

/-- The content of the object id of keys on elliptic curves. -/
def ellipticCurveId : Bytes := [0x2a, 0x86, 0x48, 0xce, 0x3d, 0x02, 0x01]

/-- The public bits that a private key on an elliptic curve carries, and its curve if it names
one. -/
def ellipticCurveKey? (bytes : Bytes) : Option (Option Bytes × Bytes) := do
  let (version, fields) ← expect integer (← only sequence bytes)
  if version ≠ [1] then none
  let (_, fields) ← expect octetString fields
  let curve := (expect (context 0) fields).map (·.1)
  let (bits, _) ← expect (context 1) (skip (context 0) fields)
  return (curve, ← only bitString bits)

/-- The public half of a private key with its algorithm in front. -/
def wrappedKey? (bytes : Bytes) : Option PublicKey := do
  let (version, fields) ← expect integer (← only sequence bytes)
  if version ≠ [0] ∧ version ≠ [1] then none
  let (algorithm, fields) ← expect sequence fields
  let (id, _) ← expect objectId algorithm
  if id ≠ ellipticCurveId then none
  let (inner, _) ← expect octetString fields
  let (_, key) ← ellipticCurveKey? inner
  return { algorithm, key }

/-- The public half of a private key on its own, which has to name its curve. -/
def bareKey? (bytes : Bytes) : Option PublicKey := do
  let (curve, key) ← ellipticCurveKey? bytes
  let id : Bytes := objectId :: UInt8.ofNat ellipticCurveId.length :: ellipticCurveId
  return { algorithm := id ++ (← curve), key }

end ClusterLink
