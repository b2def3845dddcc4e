/-!
# Internet addresses and their text

An IPv4 address is four decimal numbers between dots, without leading zeros. An IPv6 address is
eight groups of up to four hexadecimal digits between colons; one run of zero groups may be written
as two colons, and the last two groups may be written as an IPv4 address. A socket address adds a
port, with an IPv6 address in brackets.

Writing shortens the longest run of at least two zero groups, the first of several, and spells an
address that stands for an IPv4 one with that address at its end.
-/

namespace ClusterLink

/-- The address of a host. -/
inductive IpAddress where
  | v4 (a b c d : UInt8)
  | v6 (groups : List UInt16)
  deriving DecidableEq, Repr

/-- The address of a port on a host. An IPv6 address may name the network it is valid in. -/
structure SocketAddress where
  ip : IpAddress
  port : UInt16
  scope : UInt32 := 0
  deriving DecidableEq, Repr

namespace IpAddress

/-- Takes a value off the front of a text. -/
abbrev Reader (α : Type) := List Char → Option (α × List Char)

/-- One given character. -/
def expect (c : Char) (cs : List Char) : Option (List Char) :=
  match cs with
  | d :: rest => if d = c then some rest else none
  | [] => none

/-- The value of a digit to a base of at most 16. -/
def digit? (base : Nat) (c : Char) : Option Nat :=
  let n := c.toNat
  let value :=
    if 48 ≤ n ∧ n ≤ 57 then n - 48
    else if 97 ≤ n ∧ n ≤ 102 then n - 87
    else if 65 ≤ n ∧ n ≤ 70 then n - 55
    else base
  if value < base then some value else none

/-- All digits at the front: a number of at most `most` of them, below `bound`. -/
def number (base most bound : Nat) (zeroPrefix : Bool) : Reader Nat := fun cs =>
  let digits := cs.takeWhile (fun c => (digit? base c).isSome)
  let value := digits.foldl (fun n c => n * base + (digit? base c).getD 0) 0
  if digits = [] ∨ most < digits.length then none
  else if !zeroPrefix && digits.head? == some '0' && 1 < digits.length then none
  else if value < bound then some (value, cs.drop digits.length)
  else none

/-- Four numbers between dots. -/
def readV4 : Reader IpAddress := fun cs => do
  let octet := number 10 3 256 false
  let (a, cs) ← octet cs
  let (b, cs) ← octet (← expect '.' cs)
  let (c, cs) ← octet (← expect '.' cs)
  let (d, cs) ← octet (← expect '.' cs)
  return (v4 (.ofNat a) (.ofNat b) (.ofNat c) (.ofNat d), cs)

/-- The two groups that an IPv4 address fills. -/
def groupsOfV4 : IpAddress → List UInt16
  | v4 a b c d => [.ofNat (a.toNat * 256 + b.toNat), .ofNat (c.toNat * 256 + d.toNat)]
  | v6 _ => []

/-- Up to `room` groups between colons, whether an IPv4 address ended them, and the rest. -/
def readGroups : (room : Nat) → (first : Bool) → List Char → List UInt16 × Bool × List Char
  | 0, _, cs => ([], false, cs)
  | room + 1, first, cs =>
    let start := if first then some cs else expect ':' cs
    match if room = 0 then none else start.bind readV4 with
    | some (address, rest) => (address.groupsOfV4, true, rest)
    | none =>
      match start.bind (number 16 4 65536 true) with
      | some (group, rest) =>
        let more := readGroups room false rest
        (.ofNat group :: more.1, more.2)
      | none => ([], false, cs)

/-- Eight groups, or fewer with two colons in place of the missing ones. -/
def readV6 : Reader IpAddress := fun cs =>
  let (head, ended, cs) := readGroups 8 true cs
  if head.length = 8 then some (v6 head, cs)
  else if ended then none
  else do
    let cs ← expect ':' (← expect ':' cs)
    let (tail, _, cs) := readGroups (7 - head.length) true cs
    return (v6 (head ++ (List.replicate (8 - head.length - tail.length) 0 ++ tail)), cs)

/-- The address that a whole text spells. -/
def parse? (s : String) : Option IpAddress :=
  match readV4 s.toList with
  | some (address, []) => some address
  | _ =>
    match readV6 s.toList with
    | some (address, []) => some address
    | _ => none

/-- Where the longest run of zero groups starts and how long it is; the first of several. -/
def longestZeros (groups : List UInt16) : Nat × Nat :=
  let step (acc : (Nat × Nat) × (Nat × Nat)) (item : UInt16 × Nat) : (Nat × Nat) × (Nat × Nat) :=
    let (best, current) := acc
    if item.1 = 0 then
      let current := if current.2 = 0 then (item.2, 1) else (current.1, current.2 + 1)
      (if best.2 < current.2 then current else best, current)
    else (best, (0, 0))
  (groups.zipIdx.foldl step ((0, 0), (0, 0))).1

private def groupText (group : UInt16) : String := String.ofList (Nat.toDigits 16 group.toNat)

private def groupsText (groups : List UInt16) : String :=
  String.intercalate ":" (groups.map groupText)

private def dotted (numbers : List Nat) : String :=
  String.intercalate "." (numbers.map toString)

def text : IpAddress → String
  | v4 a b c d => dotted [a.toNat, b.toNat, c.toNat, d.toNat]
  | v6 groups =>
    match groups with
    | [0, 0, 0, 0, 0, 0xFFFF, x, y] =>
      "::ffff:" ++ dotted [x.toNat / 256, x.toNat % 256, y.toNat / 256, y.toNat % 256]
    | _ =>
      let (start, size) := longestZeros groups
      if 1 < size then
        groupsText (groups.take start) ++ "::" ++ groupsText (groups.drop (start + size))
      else groupsText groups

end IpAddress

namespace SocketAddress

open IpAddress in
private def readPort : Reader UInt16 := fun cs => do
  let cs ← expect ':' cs
  let (n, cs) ← number 10 cs.length 65536 true cs
  return (.ofNat n, cs)

open IpAddress in
private def readBracketed : Reader SocketAddress := fun cs => do
  let (ip, cs) ← readV6 (← expect '[' cs)
  let (scope, cs) := match (expect '%' cs).bind fun cs => number 10 cs.length 4294967296 true cs with
    | some (n, rest) => (UInt32.ofNat n, rest)
    | none => (0, cs)
  let (port, cs) ← readPort (← expect ']' cs)
  return ({ ip, port, scope }, cs)

open IpAddress in
private def readDotted : Reader SocketAddress := fun cs => do
  let (ip, cs) ← readV4 cs
  let (port, cs) ← readPort cs
  return ({ ip, port }, cs)

/-- The socket address that a whole text spells. -/
def parse? (s : String) : Option SocketAddress :=
  match readDotted s.toList with
  | some (address, []) => some address
  | _ =>
    match readBracketed s.toList with
    | some (address, []) => some address
    | _ => none

def text (a : SocketAddress) : String :=
  match a.ip with
  | .v4 .. => a.ip.text ++ ":" ++ toString a.port.toNat
  | .v6 _ =>
    let scope := if a.scope = 0 then "" else "%" ++ toString a.scope.toNat
    "[" ++ a.ip.text ++ scope ++ "]:" ++ toString a.port.toNat

end SocketAddress

end ClusterLink
