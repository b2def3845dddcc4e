import ClusterLink.Tls.Base64
/-!
# PEM files

A PEM file holds sections. A section starts with a line of five dashes, BEGIN, a label and five
dashes, and ends with a line with END and the same label; the lines between are Base64. Lines
outside of sections say nothing, and a section with a label of no known kind is skipped without
being decoded. Sections are read one after the other, so that what stands before a fault is still
found.
-/

namespace ClusterLink.Pem

/-- What a section holds. -/
inductive SectionKind where
  | certificate
  | publicKey
  | rsaPrivateKey
  | privateKey
  | ecPrivateKey
  | revocationList
  | certificateRequest
  | helloConfig
  deriving DecidableEq, Repr

namespace SectionKind

def label : SectionKind → String
  | certificate => "CERTIFICATE"
  | publicKey => "PUBLIC KEY"
  | rsaPrivateKey => "RSA PRIVATE KEY"
  | privateKey => "PRIVATE KEY"
  | ecPrivateKey => "EC PRIVATE KEY"
  | revocationList => "X509 CRL"
  | certificateRequest => "CERTIFICATE REQUEST"
  | helloConfig => "ECHCONFIG"

def all : List SectionKind :=
  [certificate, publicKey, rsaPrivateKey, privateKey, ecPrivateKey, revocationList,
    certificateRequest, helloConfig]

def ofLabel? (label : Bytes) : Option SectionKind :=
  all.find? (fun k => bytesOfText k.label = label)

def isPrivateKey : SectionKind → Bool
  | rsaPrivateKey | privateKey | ecPrivateKey => true
  | _ => false

end SectionKind

/-- A decoded section. -/
structure Section where
  kind : SectionKind
  content : Bytes
  deriving DecidableEq, Repr

/-- Why a file has no further section. -/
inductive Fault where
  | missingSectionEnd (label : Bytes)
  | illegalSectionStart (line : Bytes)
  | base64 (fault : Base64.Fault)
  | noItemsFound
  deriving DecidableEq, Repr

namespace Fault

private def bytesText (bytes : Bytes) : String :=
  "[" ++ String.intercalate ", " (bytes.map fun b => toString b.toNat) ++ "]"

def text : Fault → String
  | missingSectionEnd label =>
    "MissingSectionEnd \x7b end_marker: " ++ bytesText label ++ " \x7d"
  | illegalSectionStart line => "IllegalSectionStart \x7b line: " ++ bytesText line ++ " \x7d"
  | base64 fault => "Base64Decode(\"" ++ fault.text ++ "\")"
  | noItemsFound => "NoItemsFound"

end Fault

private def isLineEnd (b : UInt8) : Bool := b = 10 || b = 13

/-- The lines of a file: what stands between line ends. -/
def lines : Bytes → List Bytes
  | [] => []
  | b :: rest =>
    if isLineEnd b then [] :: lines rest
    else match lines rest with
      | [] => [[b]]
      | line :: more => (b :: line) :: more

private def beginMark : Bytes := bytesOfText "-----BEGIN "
private def endMark : Bytes := bytesOfText "-----END "
private def dashes : Bytes := bytesOfText "-----"

/-- The dashes at the end of a line, blanks between them not counted, and what stands before. -/
def splitTrailer (line : Bytes) : Nat × Bytes :=
  let trailer := line.reverse.takeWhile (fun b => b = 45 || b = 32)
  let fromDash := (trailer.reverse.dropWhile (· ≠ 45)).length
  (trailer.count 45, line.take (line.length - fromDash))

/-- The label that a line opens a section with, if it opens one. -/
def sectionStart? (line : Bytes) : Option (Except Fault Bytes) :=
  if beginMark.isPrefixOf line then
    let (count, front) := splitTrailer line
    if count = 5 then some (.ok (front.drop beginMark.length))
    else some (.error (.illegalSectionStart line))
  else none

/-- Whether a line ends the section with a label. -/
def isSectionEnd (label line : Bytes) : Bool := (endMark ++ label ++ dashes).isPrefixOf line

/-- The decodable sections of some lines, in order, up to the first fault. `label` is that of the
section they start in, and `body` what it holds so far. -/
def sections (label : Option Bytes) (body : Bytes) : List Bytes → List Section × Option Fault
  | [] => ([], label.map .missingSectionEnd)
  | line :: rest =>
    match sectionStart? line with
    | some (.error fault) => ([], some fault)
    | some (.ok started) => sections (some started) body rest
    | none =>
      match label with
      | none => sections none body rest
      | some current =>
        if isSectionEnd current line then
          match SectionKind.ofLabel? current with
          | none => sections none [] rest
          | some kind =>
            match Base64.decode body with
            | .error fault => ([], some (.base64 fault))
            | .ok content =>
              let more := sections none [] rest
              (⟨kind, content⟩ :: more.1, more.2)
        else sections label (body ++ line) rest

/-- The sections of a file and the fault that ends them, if one does. -/
def parse (bytes : Bytes) : List Section × Option Fault := sections none [] (lines bytes)

/-- All certificates of a file without faults. -/
def certificates (bytes : Bytes) : Except Fault (List Bytes) :=
  match parse bytes with
  | (_, some fault) => .error fault
  | (items, none) => .ok ((items.filter (·.kind = .certificate)).map (·.content))

/-- The first private key of a file; a fault behind it does not matter. -/
def privateKey (bytes : Bytes) : Except Fault Section :=
  match parse bytes with
  | (items, fault) =>
    match items.find? (·.kind.isPrivateKey) with
    | some key => .ok key
    | none => .error (fault.getD .noItemsFound)

end ClusterLink.Pem
