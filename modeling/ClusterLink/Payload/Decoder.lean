import ClusterLink.Bytes
import ClusterLink.Text.Utf8
/-!
# The encoding of values in bodies

Integers are big-endian and of fixed width, a truth value is one byte, a text is the 64-bit count of
its UTF-8 bytes and then the bytes, a list is the 64-bit count of its items and then the items, and
a choice is its 32-bit index. A decoder takes a value off the front of a byte string.

A count is turned into memory before the contents are looked at. A count for which no memory can be
asked at all aborts the decoding (`DecodeError.capacityOverflow`); every other fault is an answer.

Results:
* `Decoder.take_append`: taking the bytes in front leaves what follows.
* `Decoder.eq_append_of_take`: what was taken and what is left make up the input.
-/

namespace ClusterLink

/-- Why bytes do not start with the encoding of a value. -/
inductive DecodeError where
  /-- So many bytes are missing for the next read. -/
  | unexpectedEnd (missing : Nat)
  | invalidUtf8 (fault : Utf8.Fault)
  | invalidBool (byte : UInt8)
  | unknownFailureCode (index : UInt32)
  /-- No memory can hold as many bytes as announced: the decoding is aborted. -/
  | capacityOverflow
  deriving DecidableEq, Repr

namespace DecodeError

private def lengthText : Option Nat → String
  | none => "None"
  | some n => "Some(" ++ toString n ++ ")"

def text : DecodeError → String
  | unexpectedEnd missing => "UnexpectedEnd \x7b additional: " ++ toString missing ++ " \x7d"
  | invalidUtf8 fault =>
    "Utf8 \x7b inner: Utf8Error \x7b valid_up_to: " ++ toString fault.validUpTo ++
      ", error_len: " ++ lengthText fault.length ++ " \x7d \x7d"
  | invalidBool byte => "InvalidBooleanValue(" ++ toString byte.toNat ++ ")"
  | unknownFailureCode index =>
    "UnexpectedVariant \x7b type_name: \"ErrorCode\", allowed: Range \x7b min: 0, max: 2 \x7d, found: " ++
      toString index.toNat ++ " \x7d"
  | capacityOverflow => "capacity overflow"

end DecodeError

/-- Takes a value off the front of a byte string. -/
abbrev Decoder (α : Type) := StateT Bytes (Except DecodeError) α

/-- The first number of bytes that no memory can hold. -/
def memoryLimit : Nat := 9223372036854775808

/-- The memory that a list needs for each of its texts, before their contents. -/
def textCell : Nat := 24

namespace Decoder

/-- The next `n` bytes. -/
def take (n : Nat) : Decoder Bytes := fun bytes =>
  let front := bytes.take n
  if front.length = n then .ok (front, bytes.drop n)
  else .error (.unexpectedEnd (n - front.length))

def uint32 : Decoder UInt32 := decodeUInt32 <$> take 4

def uint64 : Decoder UInt64 := decodeUInt64 <$> take 8

def bool : Decoder Bool := do
  match ← take 1 with
  | [0] => return false
  | [1] => return true
  | bytes => throw (.invalidBool (bytes.headD 0))

/-- The count in front of a text or list whose items take `cell` bytes of memory each. -/
def count (cell : Nat) : Decoder Nat := do
  let n ← uint64
  if memoryLimit ≤ n.toNat * cell then throw .capacityOverflow
  return n.toNat

def text : Decoder String := do
  let bytes ← take (← count 1)
  match textOfBytes? bytes with
  | some s => return s
  | none => throw (.invalidUtf8 ((Utf8.fault? bytes).getD ⟨0, none⟩))

/-- So many texts in a row. -/
def texts : Nat → Decoder (List String)
  | 0 => return []
  | n + 1 => do
    let first ← text
    let rest ← texts n
    return first :: rest

def textList : Decoder (List String) := do texts (← count textCell)

theorem take_append {front : Bytes} (rest : Bytes) {n : Nat} (h : front.length = n) :
    take n (front ++ rest) = .ok (front, rest) := by
  subst h
  simp [take]

theorem eq_append_of_take {n : Nat} {bytes front rest : Bytes}
    (h : take n bytes = .ok (front, rest)) : bytes = front ++ rest ∧ front.length = n := by
  simp only [take] at h
  split at h
  · next hlen => cases h; exact ⟨(List.take_append_drop n bytes).symm, hlen⟩
  · cases h

end Decoder

/-! ## Writing -/

namespace Encoder

def bool (b : Bool) : Bytes := [if b then 1 else 0]

/-- The count in front of a text or list. -/
def count (n : Nat) : Bytes := encodeUInt64 (UInt64.ofNat n)

def text (s : String) : Bytes :=
  let bytes := bytesOfText s
  count bytes.length ++ bytes

def textList (items : List String) : Bytes := count items.length ++ items.flatMap text

end Encoder

end ClusterLink
