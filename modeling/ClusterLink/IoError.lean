/-!
# Failures of the byte streams below

A failure has a kind, which decides how it is treated, and a text. Failures the operating system
reports also have its number, which becomes part of the text.
-/

namespace ClusterLink

/-- What went wrong in a stream, an address or a file. -/
inductive IoErrorKind where
  | notFound
  | permissionDenied
  | connectionRefused
  | connectionReset
  | hostUnreachable
  | networkUnreachable
  | connectionAborted
  | notConnected
  | addrInUse
  | addrNotAvailable
  | networkDown
  | brokenPipe
  | alreadyExists
  | wouldBlock
  | invalidInput
  | invalidData
  | timedOut
  | writeZero
  | storageFull
  | interrupted
  | unsupported
  | unexpectedEof
  | outOfMemory
  | other
  deriving DecidableEq, Repr

namespace IoErrorKind

def text : IoErrorKind → String
  | notFound => "NotFound"
  | permissionDenied => "PermissionDenied"
  | connectionRefused => "ConnectionRefused"
  | connectionReset => "ConnectionReset"
  | hostUnreachable => "HostUnreachable"
  | networkUnreachable => "NetworkUnreachable"
  | connectionAborted => "ConnectionAborted"
  | notConnected => "NotConnected"
  | addrInUse => "AddrInUse"
  | addrNotAvailable => "AddrNotAvailable"
  | networkDown => "NetworkDown"
  | brokenPipe => "BrokenPipe"
  | alreadyExists => "AlreadyExists"
  | wouldBlock => "WouldBlock"
  | invalidInput => "InvalidInput"
  | invalidData => "InvalidData"
  | timedOut => "TimedOut"
  | writeZero => "WriteZero"
  | storageFull => "StorageFull"
  | interrupted => "Interrupted"
  | unsupported => "Unsupported"
  | unexpectedEof => "UnexpectedEof"
  | outOfMemory => "OutOfMemory"
  | other => "Other"

def all : List IoErrorKind :=
  [notFound, permissionDenied, connectionRefused, connectionReset, hostUnreachable,
    networkUnreachable, connectionAborted, notConnected, addrInUse, addrNotAvailable, networkDown,
    brokenPipe, alreadyExists, wouldBlock, invalidInput, invalidData, timedOut, writeZero,
    storageFull, interrupted, unsupported, unexpectedEof, outOfMemory, other]

/-- The kind with a name. -/
def ofText? (s : String) : Option IoErrorKind := all.find? (fun k => k.text = s)

/-- Whether the other end of a connection is simply gone. -/
def isDisconnect : IoErrorKind → Bool
  | connectionReset | connectionAborted | notConnected | brokenPipe => true
  | _ => false

end IoErrorKind

/-- A failed operation on a stream, an address or a file. -/
structure IoError where
  kind : IoErrorKind
  message : String
  /-- The operating system's number for it. -/
  code : Option Nat := none
  deriving DecidableEq, Repr

namespace IoError

def text (e : IoError) : String :=
  match e.code with
  | some n => e.message ++ " (os error " ++ toString n ++ ")"
  | none => e.message

/-- Nothing leads to the address. -/
def networkUnreachable : IoError := ⟨.networkUnreachable, "Network is unreachable", some 101⟩

/-- Nobody listens at the address. -/
def connectionRefused : IoError := ⟨.connectionRefused, "Connection refused", some 111⟩

/-- A write call that accepted nothing. -/
def writeZero : IoError := ⟨.writeZero, "failed to write whole buffer", none⟩

/-- Time is up. -/
def deadlinePassed : IoError := ⟨.timedOut, "deadline passed", none⟩

end IoError

end ClusterLink
