import ClusterLink.Message.Id
import ClusterLink.Message.Kind
/-!
# Headers

A frame starts with 24 bytes: the id in 16, the code of the kind in 4 and the size of the body in
4, integers big-endian.

Results:
* `decode_eq_ok_iff`: exactly the 24-byte strings are headers, and a header reads from the bytes it
  is written as.
* `decode_encode`: what was written reads back up to the code's operation.
-/

namespace ClusterLink

/-- The bytes of a header (`HEADER_SIZE`). -/
def headerSize : Nat := 24

/-- Why bytes are no header, or a body no message (`HeaderError`). -/
inductive HeaderError where
  | length (got : Nat)
  | bodyTooLarge (size : Nat)
  deriving DecidableEq, Repr

def HeaderError.message : HeaderError → String
  | length got => "header must be exactly 24 bytes, got " ++ toString got
  | bodyTooLarge size => "body of " ++ toString size ++ " bytes does not fit in a frame"

/-- What a frame says about itself before its body (`Header`). -/
structure Header where
  id : MessageId
  kind : Kind
  bodySize : UInt32
  deriving DecidableEq, Repr

namespace Header

/-- A header in the bytes that stand before a body (`to_bytes`). -/
def encode (h : Header) : Bytes :=
  h.id.bytes ++ (encodeUInt32 h.kind.code ++ encodeUInt32 h.bodySize)

/-- The header that bytes stand for (`from_bytes`). -/
def decode (bytes : Bytes) : Except HeaderError Header :=
  if h : bytes.length = headerSize then
    .ok {
      id := ⟨bytes.take 16, by simp [h, headerSize]⟩
      kind := .ofCode (decodeUInt32 ((bytes.drop 16).take 4))
      bodySize := decodeUInt32 (bytes.drop 20) }
  else .error (.length bytes.length)

@[simp] theorem length_encode (h : Header) : h.encode.length = headerSize := by
  simp [encode, h.id.length_bytes, headerSize]

/-- The header as the other end reads it. -/
def normalized (h : Header) : Header := { h with kind := .ofCode h.kind.code }

theorem decode_encode (h : Header) : decode h.encode = .ok h.normalized := by
  have hid := h.id.length_bytes
  have hlen : h.encode.length = headerSize := length_encode h
  rw [decode, dif_pos hlen]
  congr 1
  simp only [encode, normalized, Header.mk.injEq]
  refine ⟨MessageId.ext ?_, ?_, ?_⟩
  · simp [List.take_left' hid]
  · rw [List.drop_left' hid, List.take_left' (by simp)]
    simp
  · rw [← List.drop_drop (i := 4) (j := 16), List.drop_left' hid, List.drop_left' (by simp)]
    simp

theorem encode_of_decode {bytes : Bytes} {h : Header} (hd : decode bytes = .ok h) :
    h.encode = bytes := by
  rw [decode] at hd
  split at hd
  · next hlen =>
    cases hd
    simp only [headerSize] at hlen
    simp only [encode, Kind.code_ofCode]
    rw [encodeUInt32_decodeUInt32 (by simp [hlen]), encodeUInt32_decodeUInt32 (by simp [hlen])]
    rw [show bytes.drop 20 = (bytes.drop 16).drop 4 by simp, List.take_append_drop,
      List.take_append_drop]
  · cases hd

theorem decode_eq_error_iff {bytes : Bytes} {e : HeaderError} :
    decode bytes = .error e ↔ bytes.length ≠ headerSize ∧ e = .length bytes.length := by
  rw [decode]
  split
  · next h => simp [h]
  · next h => simp [h, eq_comm]

/-- A header with a kind that keeps its code reads from exactly the bytes it is written as. -/
theorem decode_eq_ok_iff {bytes : Bytes} {h : Header} :
    decode bytes = .ok h ↔ bytes = h.encode ∧ Kind.ofCode h.kind.code = h.kind := by
  constructor
  · intro hd
    have he := encode_of_decode hd
    refine ⟨he.symm, ?_⟩
    rw [← he, decode_encode] at hd
    have := congrArg Header.kind (Except.ok.inj hd)
    exact this
  · rintro ⟨rfl, hk⟩
    rw [decode_encode, normalized, hk]

end Header

end ClusterLink
