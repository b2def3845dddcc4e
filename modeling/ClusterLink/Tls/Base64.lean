import ClusterLink.Bytes
/-!
# Base64

Four characters stand for three bytes; the last four may end in one or two padding signs and then
stand for two bytes or one. Blanks may stand anywhere.
-/

namespace ClusterLink.Base64

/-- Why characters are not Base64. -/
inductive Fault where
  | invalidCharacter (c : UInt8)
  /-- A character stands after padding. -/
  | prematurePadding
  /-- The last group is not complete, or has too much padding. -/
  | invalidTrailingPadding
  deriving DecidableEq, Repr

def Fault.text : Fault → String
  | invalidCharacter c => "InvalidCharacter(" ++ toString c.toNat ++ ")"
  | prematurePadding => "PrematurePadding"
  | invalidTrailingPadding => "InvalidTrailingPadding"

/-- What a character is for. -/
inductive Symbol where
  | value (n : Nat)
  | padding
  | blank
  | invalid

def Symbol.of (c : UInt8) : Symbol :=
  let n := c.toNat
  if 65 ≤ n ∧ n ≤ 90 then .value (n - 65)
  else if 97 ≤ n ∧ n ≤ 122 then .value (n - 71)
  else if 48 ≤ n ∧ n ≤ 57 then .value (n + 4)
  else if n = 43 then .value 62
  else if n = 47 then .value 63
  else if n = 61 then .padding
  else if n = 32 ∨ (9 ≤ n ∧ n ≤ 13) then .blank
  else .invalid

/-- The values of the characters and the padding signs behind them. -/
def read : (padding : Nat) → Bytes → Except Fault (List Nat × Nat)
  | padding, [] => .ok ([], padding)
  | padding, c :: rest =>
    match Symbol.of c with
    | .blank => read padding rest
    | .invalid => .error (.invalidCharacter c)
    | .padding => read (padding + 1) rest
    | .value n =>
      if padding ≠ 0 then .error .prematurePadding
      else (read 0 rest).map fun r => (n :: r.1, r.2)

/-- The bytes of whole and partial groups of values. -/
def join : List Nat → Bytes
  | a :: b :: c :: d :: rest =>
    let n := ((a * 64 + b) * 64 + c) * 64 + d
    .ofNat (n / 65536) :: .ofNat (n / 256) :: .ofNat n :: join rest
  | [a, b, c] =>
    let n := (a * 64 + b) * 64 + c
    [.ofNat (n / 1024), .ofNat (n / 4)]
  | [a, b] => [.ofNat ((a * 64 + b) / 16)]
  | _ => []

def decode (cs : Bytes) : Except Fault Bytes := do
  let (values, padding) ← read 0 cs
  if (values.length + padding) % 4 ≠ 0 ∨ 2 < padding then throw .invalidTrailingPadding
  return join values

end ClusterLink.Base64
