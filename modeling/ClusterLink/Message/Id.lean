import ClusterLink.Text.Hex
/-!
# Message ids

An id is 16 bytes. A response carries the id of its request, which is how the two find each
other. A fresh id is made of random bytes in the layout of a version 4 UUID, and every id is
written as a UUID.
-/

namespace ClusterLink

/-- The 16 bytes that tell one request from another (`MessageId`). -/
structure MessageId where
  bytes : Bytes
  length_bytes : bytes.length = 16
  deriving DecidableEq

namespace MessageId

theorem ext {a b : MessageId} (h : a.bytes = b.bytes) : a = b := by
  cases a; cases b; cases h; rfl

/-- The id with some bytes, if there are 16 of them (`from_bytes`). -/
def ofBytes? (bytes : Bytes) : Option MessageId :=
  if h : bytes.length = 16 then some ⟨bytes, h⟩ else none

/-- The id that spells a number in its low bytes. -/
def ofNat (n : Nat) : MessageId := ⟨BigEndian.encode 16 n, by simp⟩

instance : Inhabited MessageId := ⟨ofNat 0⟩

instance : Repr MessageId := ⟨fun id _ => Hex.encode id.bytes⟩

/-- A fresh id from 16 random bytes (`generate`): the version and variant bits are set, the rest is
kept. -/
def ofRandom (random : MessageId) : MessageId where
  bytes := (random.bytes.modify 6 (fun b => (b &&& 0x0F) ||| 0x40)).modify 8
    (fun b => (b &&& 0x3F) ||| 0x80)
  length_bytes := by simp [random.length_bytes]

/-- The UUID version: the high half of byte 6. -/
def version (id : MessageId) : Nat := (id.bytes.getD 6 0).toNat / 16

/-- The UUID variant: the two high bits of byte 8. -/
def variant (id : MessageId) : Nat := (id.bytes.getD 8 0).toNat / 64

/-- The id as UUID text, five groups of lower-case digits. -/
def text (id : MessageId) : String :=
  let cs := Hex.digits id.bytes
  let group (start size : Nat) : String := String.ofList ((cs.drop start).take size)
  String.intercalate "-" [group 0 8, group 8 4, group 12 4, group 16 4, group 20 12]

end MessageId

end ClusterLink
