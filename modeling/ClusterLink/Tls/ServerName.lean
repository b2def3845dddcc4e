import ClusterLink.Net.Address
/-!
# Names of servers

A client expects its server to prove a name: a domain name or an address. A domain name is a row of
labels between dots, with one more dot allowed at the end. A label has 1 to 63 letters, digits,
hyphens and underscores and neither starts nor ends with a hyphen. The last label is not a number,
so that no name looks like an address.
-/

namespace ClusterLink

/-- What a server is known as. -/
inductive ServerName where
  | domain (name : String)
  | address (ip : IpAddress)
  deriving DecidableEq, Repr

namespace ServerName

/-- The most characters of a domain name and of one label. -/
def maxNameLength : Nat := 253
def maxLabelLength : Nat := 63

private def isLabelChar (c : Char) : Bool := c.isAlphanum || c = '-' || c = '_'

/-- Whether characters may stand between two dots. -/
def isLabel (cs : List Char) : Bool :=
  cs ≠ [] && cs.length ≤ maxLabelLength && cs.all isLabelChar &&
    cs.head? != some '-' && cs.getLast? != some '-'

/-- The parts of a name between its dots. -/
def labels (cs : List Char) : List (List Char) :=
  match cs with
  | [] => [[]]
  | c :: rest =>
    if c = '.' then [] :: labels rest
    else match labels rest with
      | [] => [[c]]
      | label :: more => (c :: label) :: more

/-- Whether a text is a domain name. -/
def isDomain (s : String) : Bool :=
  let parts := labels s.toList
  let parts := if parts.getLast? = some [] then parts.dropLast else parts
  s.toList.length ≤ maxNameLength && parts ≠ [] && parts.all isLabel &&
    (parts.getLast?.any fun label => !label.all Char.isDigit)

def parse? (s : String) : Option ServerName :=
  if isDomain s then some (domain s)
  else (IpAddress.parse? s).map address

def text : ServerName → String
  | domain name => name
  | address ip => ip.text

end ServerName

end ClusterLink
