import ClusterLink.Bytes
import ClusterLink.Connection.Options
/-!
# Settings of a client
-/

namespace ClusterLink

/-- The trust anchors of a client and the name it expects the server to prove (`ClientTls`). -/
structure ClientTls where
  caCertificate : String
  serverName : String
  deriving DecidableEq, Repr

/-- Settings of a client and its pool of connections (`ClientConfig`). -/
structure ClientConfig where
  /-- Host and port of the server. -/
  server : String
  secret : Bytes
  nodeId : String
  tags : List String := []
  /-- Join as a slave. -/
  replica : Bool := false
  minConnections : Nat := 1
  maxConnections : Nat := 4
  dialTimeout : Duration := .ofSeconds 5
  requestTimeout : Duration := defaultTimeout
  queueCapacity : Nat := defaultQueueCapacity
  tls : Option ClientTls := none
  deriving DecidableEq, Repr

namespace ClientConfig

/-- Both bounds are at least one, and the lower one is at most the upper one (`normalized`). -/
def normalized (c : ClientConfig) : ClientConfig :=
  let most := max c.maxConnections 1
  { c with maxConnections := most, minConnections := min (max c.minConnections 1) most }

def withTags (c : ClientConfig) (tags : List String) : ClientConfig := { c with tags }

def withReplica (c : ClientConfig) (replica : Bool) : ClientConfig := { c with replica }

def withConnections (c : ClientConfig) (least most : Nat) : ClientConfig :=
  { c with minConnections := least, maxConnections := most }.normalized

def withDialTimeout (c : ClientConfig) (timeout : Duration) : ClientConfig :=
  { c with dialTimeout := timeout }

def withRequestTimeout (c : ClientConfig) (timeout : Duration) : ClientConfig :=
  { c with requestTimeout := timeout }

def withQueueCapacity (c : ClientConfig) (n : Nat) : ClientConfig :=
  { c with queueCapacity := max n 1 }

def withTls (c : ClientConfig) (tls : ClientTls) : ClientConfig := { c with tls := some tls }

/-- The settings of the connections it dials. -/
def connectionOptions (c : ClientConfig) : ConnectionOptions :=
  (({} : ConnectionOptions).withTimeout c.requestTimeout).withQueueCapacity c.queueCapacity

end ClientConfig

end ClusterLink
