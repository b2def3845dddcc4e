import ClusterLink.Bytes
import ClusterLink.Connection.Options
import ClusterLink.Net.Address
/-!
# Settings of a server
-/

namespace ClusterLink

/-- The certificate chain and the private key of a server, as files (`TlsFiles`). -/
structure TlsFiles where
  certificate : String
  privateKey : String
  deriving DecidableEq, Repr

/-- Settings of a server (`ServerConfig`). -/
structure ServerConfig where
  address : SocketAddress
  secret : Bytes
  /-- The time a new socket has for TLS, its join request and the welcome. -/
  handshakeTimeout : Duration := .ofSeconds 5
  /-- How long requests of the server wait for a response. -/
  responseTimeout : Duration := defaultTimeout
  tls : Option TlsFiles := none
  workers : Nat := 15
  queueCapacity : Nat := defaultQueueCapacity
  /-- The largest accepted distance between a join request's time and the local one. -/
  maxClockSkew : Option Duration := none
  deriving DecidableEq, Repr

namespace ServerConfig

def withHandshakeTimeout (c : ServerConfig) (timeout : Duration) : ServerConfig :=
  { c with handshakeTimeout := timeout }

def withResponseTimeout (c : ServerConfig) (timeout : Duration) : ServerConfig :=
  { c with responseTimeout := timeout }

def withTls (c : ServerConfig) (tls : TlsFiles) : ServerConfig := { c with tls := some tls }

/-- At least one worker handles messages. -/
def withWorkers (c : ServerConfig) (n : Nat) : ServerConfig := { c with workers := max n 1 }

def withQueueCapacity (c : ServerConfig) (n : Nat) : ServerConfig :=
  { c with queueCapacity := max n 1 }

def withMaxClockSkew (c : ServerConfig) (skew : Duration) : ServerConfig :=
  { c with maxClockSkew := some skew }

/-- The settings of the connections it accepts (`connection_options`). -/
def connectionOptions (c : ServerConfig) : ConnectionOptions :=
  (({} : ConnectionOptions).withTimeout c.responseTimeout).withQueueCapacity c.queueCapacity

end ServerConfig

end ClusterLink
