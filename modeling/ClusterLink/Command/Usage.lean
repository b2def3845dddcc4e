import ClusterLink.Command.Grammar
import ClusterLink.Text.Quoted
import ClusterLink.Tls.Files
/-!
# What a command says about itself

The help of a command lists its argument and its options. The help of an option stands beside it, or
below it when the names leave too little of a line of a hundred columns to the text.
-/

namespace ClusterLink

/-- A line that a command prints. -/
inductive OutputLine where
  | out (text : String)
  | err (text : String)
  deriving DecidableEq, Repr

/-- What a command has printed when it ends, and its exit code. -/
structure CommandResult where
  lines : List OutputLine := []
  code : UInt8 := 0
  deriving DecidableEq, Repr

namespace CommandResult

def output (r : CommandResult) : List String :=
  r.lines.filterMap fun
    | .out text => some text
    | .err _ => none

def errors (r : CommandResult) : List String :=
  r.lines.filterMap fun
    | .out _ => none
    | .err text => some text

end CommandResult

namespace Command

def packageName : String := "cryomesh"
def packageVersion : String := "0.1.0"
def about : String := "Cluster communication layer for the Cryo distributed SQL engine"

def spaces (n : Nat) : String := String.ofList (List.replicate n ' ')

/-- How to call a command: with all it has, or with some options. -/
def usageLine (c : Command) (used : List CommandOption) : String :=
  let required := c.options.filter (·.isRequired)
  let words := match used with
    | [] => "[OPTIONS]" :: required.map CommandOption.shown
    | _ => (required ++ used).eraseDups.map CommandOption.shown
  "Usage: " ++ " ".intercalate (c.program :: words ++ [c.shownArgument])

/-- The help of an option and its standard value. -/
def optionHelp (o : CommandOption) : String :=
  match o.standard with
  | some value => o.help ++ " [default: " ++ value ++ "]"
  | none => o.help

/-- The columns of a line. -/
def lineWidth : Nat := 100

/-- Whether the help of options stands below them: their names take more than two fifths of a line,
and some text does not fit into the rest. -/
def helpBelow (width : Nat) (helps : List String) : Bool :=
  lineWidth * 2 < (width + 12) * 5 && helps.any fun h => lineWidth - (width + 12) < h.length

/-- The lines about all options. -/
def optionLines (c : Command) : List String :=
  let width := (c.options.map fun o => o.shown.length).foldl max 0
  let below := helpBelow width (c.options.map optionHelp)
  c.options.flatMap fun o =>
    let front := match o.letter with
      | some l => "  -" ++ String.singleton l ++ ", "
      | none => spaces 6
    if below then [front ++ o.shown, spaces 10 ++ optionHelp o]
    else [front ++ o.shown ++ spaces (width - o.shown.length + 2) ++ optionHelp o]

def helpLines (c : Command) : List String :=
  [about, "", c.usageLine [], "", "Arguments:", "  " ++ c.shownArgument ++ "  " ++ c.argumentHelp,
    "", "Options:"] ++ c.optionLines

/-- What is wrong with the words, and what may help. -/
def errorText (c : Command) : UsageError → List String
  | .unexpected word isOption _ =>
    ("unexpected argument '" ++ word ++ "' found") ::
      if isOption then ["", "  tip: to pass '" ++ word ++ "' as a value, use '-- " ++ word ++ "'"]
      else []
  | .unexpectedValue value o =>
    ["unexpected value '" ++ value ++ "' for '" ++ o.shown ++ "' found; no more were expected"]
  | .noValue wanted => ["a value is required for '" ++ wanted ++ "' but none was supplied"]
  | .repeated o => ["the argument '" ++ o.shown ++ "' cannot be used multiple times"]
  | .refused value wanted cause =>
    ["invalid value '" ++ value ++ "' for '" ++ wanted ++ "': " ++ cause]
  | .missing argument options _ =>
    "the following required arguments were not provided:" ::
      (options.map CommandOption.shown ++ if argument then [c.shownArgument] else []).map ("  " ++ ·)

/-- How to call the command without the mistake. -/
def errorUsage (c : Command) : UsageError → List String
  | .noValue _ | .refused .. => []
  | .unexpected _ _ used | .missing _ _ used => ["", c.usageLine used]
  | .unexpectedValue .. | .repeated _ => ["", c.usageLine []]

/-- What a command prints instead of running. -/
def stopResult (c : Command) : CommandStop → CommandResult
  | .help => { lines := c.helpLines.map .out }
  | .version => { lines := [.out (packageName ++ " " ++ packageVersion)] }
  | .misuse e =>
    let text := match c.errorText e with
      | [] => []
      | first :: rest => ("error: " ++ first) :: rest
    { lines := (text ++ c.errorUsage e ++ ["", "For more information, try '--help'."]).map .err
      code := 2 }

/-- The options that every command has. -/
def commonOptions : List CommandOption :=
  [{ name := "help", letter := some 'h', help := "Print help" },
    { name := "version", letter := some 'V', help := "Print version" }]

end Command

/-- The cause of a rejection in full. -/
def TlsRejection.detail : TlsRejection → String
  | badCertificate => "InvalidCertificate(BadEncoding)"
  | keyMismatch => "InconsistentKeys(KeyMismatch)"
  | general text => "General(" ++ quoted text ++ ")"

/-- A TLS error in full, as a command that cannot start shows it. -/
def TlsError.detail : TlsError → String
  | read path source =>
    let cause := match source.code with
      | some n => "Os \x7b code: " ++ toString n ++ ", kind: " ++ source.kind.text ++
          ", message: " ++ quoted source.message ++ " \x7d"
      | none => quoted source.message
    "Tls(Read \x7b path: " ++ quoted path ++ ", source: " ++ cause ++ " \x7d)"
  | pem path cause => "Tls(Pem \x7b path: " ++ quoted path ++ ", cause: " ++ cause.text ++ " \x7d)"
  | noCertificates path => "Tls(NoCertificates(" ++ quoted path ++ "))"
  | serverName name => "Tls(ServerName(" ++ quoted name ++ "))"
  | rejected cause => "Tls(Rustls(" ++ cause.detail ++ "))"

/-- The end of a command that gives up. -/
def CommandResult.failure (detail : String) : CommandResult where
  lines := [.err ("Error: " ++ detail)]
  code := 1

end ClusterLink
