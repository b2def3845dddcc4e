import ClusterLink.IoError
import ClusterLink.Bytes
/-!
# Two connected streams on the loopback network

What one end writes the other can read. A secured stream travels in records that are taken off the
socket whole: what is left of a record after a read is at hand for the next one, even if the socket
may not be read any more because a deadline has passed.
-/

namespace ClusterLink

/-- The most bytes that one record of a secured stream holds. -/
def recordSize : Nat := 16384

/-- A byte string cut into pieces of a given size, the last one as long as is left. -/
def piecesOf (size : Nat) (bytes : Bytes) : List Bytes :=
  if _h : size = 0 ∨ bytes = [] then []
  else bytes.take size :: piecesOf size (bytes.drop size)
termination_by bytes.length
decreasing_by
  have := List.length_pos_iff.2 (fun h => _h (.inr h))
  simp only [List.length_drop]
  omega

/-- The reading side of one end. -/
structure StreamInbox where
  /-- What was taken off the socket and not read. -/
  atHand : Bytes := []
  /-- What has arrived at the socket. -/
  arrived : List Bytes := []
  /-- Whether nothing more will arrive. -/
  isEnded : Bool := false
  /-- Whether the socket may not be read any more. -/
  deadlinePassed : Bool := false
  deriving DecidableEq, Repr

/-- Two connected ends. -/
structure StreamPair where
  isSecured : Bool := false
  /-- What the client reads. -/
  client : StreamInbox := {}
  /-- What the server reads. -/
  server : StreamInbox := {}
  deriving DecidableEq, Repr

/-- An end of two connected streams. -/
inductive StreamSide where
  | client
  | server
  deriving DecidableEq, Repr

def StreamSide.other : StreamSide → StreamSide
  | client => server
  | server => client

namespace StreamInbox

/-- What a read that needs more than there is comes to. -/
def shortage (s : StreamInbox) : IoErrorKind :=
  if s.isEnded && !s.deadlinePassed then .unexpectedEof else .timedOut

/-- Takes records off the socket until `n` bytes are at hand: the bytes at hand and the records that
are left. -/
def takeRecords (n : Nat) (atHand : Bytes) : List Bytes → Bytes × List Bytes
  | [] => (atHand, [])
  | record :: later =>
    if n ≤ atHand.length then (atHand, record :: later)
    else takeRecords n (atHand ++ record) later

/-- Reads until `n` bytes are there. What was read when it fails is lost. -/
def readExactly (isSecured : Bool) (n : Nat) (s : StreamInbox) :
    Except IoErrorKind Bytes × StreamInbox :=
  let (atHand, arrived) :=
    if s.deadlinePassed then (s.atHand, s.arrived) else takeRecords n s.atHand s.arrived
  if n ≤ atHand.length then
    let rest := atHand.drop n
    let left := if isSecured then { s with atHand := rest, arrived }
      else { s with atHand := [], arrived := if rest = [] then arrived else rest :: arrived }
    (.ok (atHand.take n), left)
  else (.error s.shortage, { s with atHand := [], arrived })

end StreamInbox

namespace StreamPair

def inbox (p : StreamPair) : StreamSide → StreamInbox
  | .client => p.client
  | .server => p.server

def setInbox (p : StreamPair) (side : StreamSide) (s : StreamInbox) : StreamPair :=
  match side with
  | .client => { p with client := s }
  | .server => { p with server := s }

/-- One end writes. -/
def write (p : StreamPair) (side : StreamSide) (bytes : Bytes) : StreamPair :=
  let s := p.inbox side.other
  let pieces := if p.isSecured then piecesOf recordSize bytes else [bytes]
  p.setInbox side.other { s with arrived := s.arrived ++ pieces }

/-- One end reads. -/
def read (p : StreamPair) (side : StreamSide) (n : Nat) :
    Except IoErrorKind Bytes × StreamPair :=
  let (result, s) := (p.inbox side).readExactly p.isSecured n
  (result, p.setInbox side s)

/-- One end is given a deadline that has passed, or none that has. -/
def setDeadline (p : StreamPair) (side : StreamSide) (passed : Bool) : StreamPair :=
  p.setInbox side { p.inbox side with deadlinePassed := passed }

/-- One end ends its writing side. -/
def halfClose (p : StreamPair) (side : StreamSide) : StreamPair :=
  p.setInbox side.other { p.inbox side.other with isEnded := true }

/-- One end shuts both directions down. -/
def shutdown (p : StreamPair) (side : StreamSide) : StreamPair :=
  (p.halfClose side).halfClose side.other

end StreamPair

end ClusterLink
