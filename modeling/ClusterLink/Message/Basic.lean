import ClusterLink.Message.Header
/-!
# Messages

A message is an id, a kind and a body of fewer than 2 ^ 32 bytes. On the wire it is its header
followed by its body.
-/

namespace ClusterLink

/-- The first size that the four bytes of a header cannot name. -/
def bodyLimit : Nat := 4294967296

/-- One unit of conversation (`Message`). -/
structure Message where
  id : MessageId
  kind : Kind
  body : Bytes
  fits : body.length < bodyLimit
  deriving DecidableEq, Repr

namespace Message

/-- The message with a body, or the reason why the body fits in no frame (`with_id`). -/
def make (id : MessageId) (kind : Kind) (body : Bytes) : Except HeaderError Message :=
  if h : body.length < bodyLimit then .ok ⟨id, kind, body, h⟩
  else .error (.bodyTooLarge body.length)

/-- A message without a body. -/
def bare (id : MessageId) (kind : Kind) : Message := ⟨id, kind, [], by decide⟩

/-- The answer to a request (`reply`): it echoes the request's id. -/
def reply (request : Message) (kind : Kind) (body : Bytes) : Except HeaderError Message :=
  make request.id kind body

/-- The answer to a ping. -/
def pong (request : Message) : Message := bare request.id .pong

def header (m : Message) : Header := ⟨m.id, m.kind, UInt32.ofNat m.body.length⟩

/-- A frame as it goes over the wire (`to_bytes`). -/
def encode (m : Message) : Bytes := m.header.encode ++ m.body

/-- The message as the other end reads it. -/
def normalized (m : Message) : Message := { m with kind := .ofCode m.kind.code }

theorem toNat_bodySize_header (m : Message) : m.header.bodySize.toNat = m.body.length := by
  rw [header, UInt32.toNat_ofNat_of_lt' (by simpa [bodyLimit] using m.fits)]

@[simp] theorem length_encode (m : Message) : m.encode.length = headerSize + m.body.length := by
  simp [encode]

end Message

end ClusterLink
