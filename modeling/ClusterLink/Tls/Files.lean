import ClusterLink.Client.Config
import ClusterLink.IoError
import ClusterLink.Server.Config
import ClusterLink.Tls.Certificate
import ClusterLink.Tls.Pem
import ClusterLink.Tls.ServerName
/-!
# What TLS needs from files

A server reads its certificate chain and then its private key, and the key has to belong to the
first certificate. A client reads the certificates it trusts, each of which has to be in good form,
and then checks the name it expects.
-/

namespace ClusterLink

/-- Why what was read makes no TLS setup. -/
inductive TlsRejection where
  /-- A certificate is not in good form. -/
  | badCertificate
  /-- The private key does not belong to the certificate. -/
  | keyMismatch
  | general (text : String)
  deriving DecidableEq, Repr

namespace TlsRejection

def message : TlsRejection → String
  | badCertificate => "invalid peer certificate: BadEncoding"
  | keyMismatch => "keys may not be consistent: KeyMismatch"
  | general text => "unexpected error: " ++ text

/-- A private key of no kind that can sign. -/
def unusableKey : TlsRejection :=
  general "failed to parse private key as RSA, ECDSA, or EdDSA"

end TlsRejection

/-- Why TLS cannot be set up (`TlsError`). -/
inductive TlsError where
  | read (path : String) (source : IoError)
  | pem (path : String) (cause : Pem.Fault)
  | noCertificates (path : String)
  | serverName (name : String)
  | rejected (cause : TlsRejection)
  deriving DecidableEq, Repr

def TlsError.message : TlsError → String
  | read path source => "failed to read '" ++ path ++ "': " ++ source.text
  | pem path cause => "invalid PEM in '" ++ path ++ "': " ++ cause.text
  | noCertificates path => "no certificates found in '" ++ path ++ "'"
  | serverName name => "invalid server name '" ++ name ++ "'"
  | rejected cause => "TLS configuration rejected: " ++ cause.message

/-- The files of a host: the content under a path, or why it cannot be read. -/
abbrev Files := String → Except IoError Bytes

namespace Files

/-- The host with some files and no others. -/
def ofList (files : List (String × Bytes)) : Files := fun path =>
  match files.lookup path with
  | some content => .ok content
  | none => .error ⟨.notFound, "No such file or directory", some 2⟩

end Files

/-- What a server proves its name with. -/
structure ServerIdentity where
  chain : List Bytes
  key : Pem.Section
  deriving DecidableEq, Repr

/-- What a client checks a server's proof against. -/
structure ServerTrust where
  anchors : List Bytes
  name : ServerName
  deriving DecidableEq, Repr

private def readFile (files : Files) (path : String) : Except TlsError Bytes :=
  (files path).mapError (.read path)

/-- All certificates of a file (`load_certificates`); there is at least one. -/
def loadCertificates (files : Files) (path : String) : Except TlsError (List Bytes) := do
  let bytes ← readFile files path
  match Pem.certificates bytes with
  | .error cause => throw (.pem path cause)
  | .ok [] => throw (.noCertificates path)
  | .ok certificates => return certificates

/-- The public half of a private key. -/
def publicHalf? (key : Pem.Section) : Option PublicKey :=
  match key.kind with
  | .privateKey => wrappedKey? key.content
  | .ecPrivateKey => bareKey? key.content
  | _ => none

/-- The identity that a server's files give it (`load`). -/
def TlsFiles.load (t : TlsFiles) (files : Files) : Except TlsError ServerIdentity := do
  let chain ← loadCertificates files t.certificate
  let bytes ← readFile files t.privateKey
  let key ← (Pem.privateKey bytes).mapError (.pem t.privateKey)
  match publicHalf? key, chain.head?.bind certificateKey? with
  | none, _ => throw (.rejected .unusableKey)
  | some _, none => throw (.rejected .badCertificate)
  | some held, some proved =>
    if held = proved then return { chain, key }
    else throw (.rejected .keyMismatch)

/-- What a client's files have it trust (`load`). -/
def ClientTls.load (t : ClientTls) (files : Files) : Except TlsError ServerTrust := do
  let anchors ← loadCertificates files t.caCertificate
  if anchors.all (fun c => (certificateKey? c).isSome) then
    match ServerName.parse? t.serverName with
    | some name => return { anchors, name }
    | none => throw (.serverName t.serverName)
  else throw (.rejected .badCertificate)

end ClusterLink
