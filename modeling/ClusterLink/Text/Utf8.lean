import ClusterLink.Bytes
/-!
# Where bytes stop being UTF-8

A byte string that is not UTF-8 has a first fault: the offset up to which it is well formed, and
how many bytes from there on form the ill-formed sequence. The sequence has no length if the bytes
end inside a character. The scan reads one byte at a time and refuses the first byte that no
character can have in its place.
-/

namespace ClusterLink.Utf8

/-- The first fault of a byte string that is not UTF-8. -/
structure Fault where
  /-- How many bytes before it are UTF-8. -/
  validUpTo : Nat
  /-- Bytes of the ill-formed sequence; none if the input ends inside a character. -/
  length : Option Nat
  deriving DecidableEq, Repr

/-- What may follow the first byte of a character longer than one byte: the number of bytes to
come, and the least and the greatest value of the next one. -/
structure Tail where
  owed : Nat
  low : UInt8
  high : UInt8
  deriving DecidableEq, Repr

/-- The tail that a first byte asks for; none if no character of several bytes starts with it. -/
def Tail.after? (b : UInt8) : Option Tail :=
  if b < 0xC2 then none
  else if b < 0xE0 then some ⟨1, 0x80, 0xBF⟩
  else if b = 0xE0 then some ⟨2, 0xA0, 0xBF⟩
  else if b = 0xED then some ⟨2, 0x80, 0x9F⟩
  else if b < 0xF0 then some ⟨2, 0x80, 0xBF⟩
  else if b = 0xF0 then some ⟨3, 0x90, 0xBF⟩
  else if b < 0xF4 then some ⟨3, 0x80, 0xBF⟩
  else if b = 0xF4 then some ⟨3, 0x80, 0x8F⟩
  else none

/-- The state of the scan: between characters, or inside the one that starts at `start` after
`seen` of its bytes. -/
inductive Place where
  | between
  | inside (start seen : Nat) (tail : Tail)
  deriving DecidableEq, Repr

/-- The first fault of the bytes from offset `pos` on. -/
def scan (pos : Nat) : Place → Bytes → Option Fault
  | .between, [] => none
  | .inside start _ _, [] => some ⟨start, none⟩
  | .between, b :: rest =>
    if b < 0x80 then scan (pos + 1) .between rest
    else match Tail.after? b with
      | some tail => scan (pos + 1) (.inside pos 1 tail) rest
      | none => some ⟨pos, some 1⟩
  | .inside start seen tail, b :: rest =>
    if tail.low ≤ b ∧ b ≤ tail.high then
      if tail.owed ≤ 1 then scan (pos + 1) .between rest
      else scan (pos + 1) (.inside start (seen + 1) ⟨tail.owed - 1, 0x80, 0xBF⟩) rest
    else some ⟨start, some seen⟩

/-- The first fault of a byte string; none if it is UTF-8. -/
def fault? (bytes : Bytes) : Option Fault := scan 0 .between bytes

end ClusterLink.Utf8
