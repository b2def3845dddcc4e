import ClusterLink.IoError
/-!
# Hosts

Sockets of one host reach each other over its loopback network, if it has one that is up. On a host
without it addresses can be bound, but nothing can be dialed.
-/

namespace ClusterLink

/-- A host, as far as its sockets are concerned. -/
structure Host where
  /-- Why an address of the host itself cannot be reached. -/
  loopbackError : Option IoError := none
  deriving DecidableEq, Repr

namespace Host

/-- A host whose sockets reach each other. -/
def connected : Host := {}

/-- A host without a loopback network. -/
def isolated : Host := { loopbackError := some .networkUnreachable }

/-- Dials an address of the host. -/
def dial (h : Host) (isListening : Bool) : Except IoError Unit :=
  match h.loopbackError with
  | some e => .error e
  | none => if isListening then .ok () else .error .connectionRefused

end Host

end ClusterLink
