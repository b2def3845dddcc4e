import ClusterLink.Net.Address
/-!
# Command lines

A command takes one argument and some options. An option is written as two dashes and its name or as
one dash and its letter; its value stands behind an equals sign or is the next word. A word that
starts with a dash is never a value on its own, except behind a word of two dashes, which makes
arguments of all that follows.

`Command.read` gives what a command was told or why it does not run.
-/

namespace ClusterLink

/-- What a text has to be to serve as a value. -/
inductive ValueForm where
  | text
  /-- The path of a file, which is not empty. -/
  | path
  /-- A decimal number of 64 bits. -/
  | number
  | socketAddress
  deriving DecidableEq, Repr

/-- An option of a command. A switch is an option without a value. -/
structure CommandOption where
  name : String
  letter : Option Char := none
  form : Option ValueForm := none
  isRequired : Bool := false
  /-- An option that has to be given with it. -/
  needs : Option String := none
  /-- The value that it has if it is not given. -/
  standard : Option String := none
  help : String
  deriving DecidableEq, Repr

/-- A command with its argument and its options. -/
structure Command where
  program : String
  argument : String
  argumentForm : ValueForm
  argumentHelp : String
  options : List CommandOption
  deriving DecidableEq, Repr

/-- What a command was told, the options in the order they were given. -/
structure Given where
  argument : Option String := none
  options : List (CommandOption × String) := []
  deriving DecidableEq, Repr

/-- Why a command was told nothing it can work with. -/
inductive UsageError where
  | unexpected (word : String) (isOption : Bool) (used : List CommandOption)
  | unexpectedValue (value : String) (option : CommandOption)
  | noValue (wanted : String)
  | repeated (option : CommandOption)
  | refused (value wanted cause : String)
  | missing (argument : Bool) (options : List CommandOption) (used : List CommandOption)
  deriving DecidableEq, Repr

/-- Why a command does not run. -/
inductive CommandStop where
  | help
  | version
  | misuse (error : UsageError)
  deriving DecidableEq, Repr

/-! ## Values -/

/-- A decimal number of 64 bits, after a plus sign if it likes. -/
def readNumber (text : String) : Except String Nat :=
  let digits := match text.toList with
    | '+' :: rest => rest
    | cs => cs
  if text.isEmpty then .error "cannot parse integer from empty string"
  else if digits.isEmpty || !digits.all Char.isDigit then .error "invalid digit found in string"
  else
    let n := digits.foldl (fun n c => n * 10 + (c.toNat - '0'.toNat)) 0
    if n < 18446744073709551616 then .ok n else .error "number too large to fit in target type"

/-- Whether a text serves as the value that is called `wanted`. -/
def ValueForm.check (form : ValueForm) (wanted value : String) : Except UsageError Unit :=
  match form with
  | .text => .ok ()
  | .path => if value.isEmpty then .error (.noValue wanted) else .ok ()
  | .number => (readNumber value).mapError (.refused value wanted) |>.map fun _ => ()
  | .socketAddress =>
    if (SocketAddress.parse? value).isSome then .ok ()
    else .error (.refused value wanted "invalid socket address syntax")

/-! ## Reading -/

/-- The name of a value: the option's in capitals. -/
def valueName (name : String) : String :=
  String.ofList (name.toUpper.toList.map fun c => if c = '-' then '_' else c)

/-- An option with what stands for its value. -/
def CommandOption.shown (o : CommandOption) : String :=
  "--" ++ o.name ++ if o.form.isSome then " <" ++ valueName o.name ++ ">" else ""

namespace Command

def shownArgument (c : Command) : String := "<" ++ valueName c.argument ++ ">"

def named? (c : Command) (name : String) : Option CommandOption := c.options.find? (·.name = name)

def lettered? (c : Command) (letter : Char) : Option CommandOption :=
  c.options.find? (·.letter = some letter)

/-- Whether a word can only be an option. -/
def isOptionWord (word : String) : Bool := word.startsWith "-" && word != "-"

/-- The option that a word of two dashes names, and the value in the word. -/
def splitLong (word : String) : String × Option String :=
  let body := word.toList.drop 2
  let name := String.ofList (body.takeWhile (· ≠ '='))
  match body.dropWhile (· ≠ '=') with
  | _ :: value => (name, some (String.ofList value))
  | [] => (name, none)

/-- A word that looks like an option of the command and is none. -/
def strange? (c : Command) (g : Given) (word : String) : Option UsageError :=
  if word.startsWith "--" then
    let name := (splitLong word).1
    if (c.named? name).isSome || name.isEmpty then none
    else some (.unexpected ("--" ++ name) true (g.options.map (·.1)))
  else match word.toList with
    | '-' :: letter :: _ =>
      if (c.lettered? letter).isSome then none
      else some (.unexpected ("-" ++ String.singleton letter) true [])
    | _ => none

/-- Takes the command's argument. -/
def takeArgument (c : Command) (g : Given) (word : String) : Except CommandStop Given :=
  match g.argument with
  | some _ => .error (.misuse (.unexpected word false []))
  | none =>
    match c.argumentForm.check c.shownArgument word with
    | .error e => .error (.misuse e)
    | .ok () => .ok { g with argument := some word }

/-- Takes an option; one for help or the version stops the command. -/
def takeOption (g : Given) (o : CommandOption) (value : String) : Except CommandStop Given :=
  if o.name = "help" then .error .help
  else if o.name = "version" then .error .version
  else if g.options.any (·.1 = o) then .error (.misuse (.repeated o))
  else
    match o.form with
    | none => .ok { g with options := g.options ++ [(o, value)] }
    | some form =>
      match form.check o.shown value with
      | .error e => .error (.misuse e)
      | .ok () => .ok { g with options := g.options ++ [(o, value)] }

/-- The next word as an option's value. -/
def nextValue (c : Command) (g : Given) (o : CommandOption) :
    List String → Except CommandStop (String × List String)
  | [] => .error (.misuse (.noValue o.shown))
  | word :: rest =>
    if isOptionWord word then
      .error (.misuse ((c.strange? g word).getD (.noValue o.shown)))
    else .ok (word, rest)

/-- Takes an option that has its name in full. -/
def takeLong (c : Command) (g : Given) (word : String) (rest : List String) :
    Except CommandStop (Given × List String) :=
  let (name, value) := splitLong word
  match c.named? name with
  | none => .error (.misuse (.unexpected ("--" ++ name) true (g.options.map (·.1))))
  | some o =>
    match o.form, value with
    | none, none => do return (← takeOption g o "", rest)
    | none, some v => .error (.misuse (.unexpectedValue v o))
    | some _, some v => do return (← takeOption g o v, rest)
    | some _, none => do
      let (v, rest) ← c.nextValue g o rest
      return (← takeOption g o v, rest)

/-- Takes options that are given by their letters, of which the last may have a value. -/
def takeLetters (c : Command) (g : Given) (rest : List String) :
    List Char → Except CommandStop (Given × List String)
  | [] => .ok (g, rest)
  | letter :: more =>
    match c.lettered? letter with
    | none => .error (.misuse (.unexpected ("-" ++ String.singleton letter) true []))
    | some o =>
      match o.form, more with
      | none, _ =>
        match takeOption g o "" with
        | .error e => .error e
        | .ok g => c.takeLetters g rest more
      | some _, [] => do
        let (v, rest) ← c.nextValue g o rest
        return (← takeOption g o v, rest)
      | some _, '=' :: v => do return (← takeOption g o (String.ofList v), rest)
      | some _, v => do return (← takeOption g o (String.ofList v), rest)

/-- Takes all words. There are at most `fuel` of them. -/
def take (c : Command) : (fuel : Nat) → Given → List String → Except CommandStop Given
  | 0, g, _ => .ok g
  | _ + 1, g, [] => .ok g
  | fuel + 1, g, word :: rest =>
    if word = "--" then rest.foldlM c.takeArgument g
    else if word.startsWith "--" then do
      let (g, rest) ← c.takeLong g word rest
      c.take fuel g rest
    else if isOptionWord word then do
      let (g, rest) ← c.takeLetters g rest (word.toList.drop 1)
      c.take fuel g rest
    else do
      c.take fuel (← c.takeArgument g word) rest

/-- The options that have to be given, some of them because of others. -/
def required (c : Command) (g : Given) : List CommandOption :=
  c.options.filter (·.isRequired) ++ g.options.filterMap fun (o, _) => o.needs.bind c.named?

/-- What the words behind the command's name tell it. -/
def read (c : Command) (words : List String) : Except CommandStop Given :=
  match c.take words.length {} words with
  | .error e => .error e
  | .ok g =>
    let used := g.options.map (·.1)
    let missing := (c.required g).filter fun o => !used.contains o
    if missing.isEmpty && g.argument.isSome then .ok g
    else .error (.misuse (.missing g.argument.isNone missing (c.required g ++ used).eraseDups))

end Command

namespace Given

/-- The value of an option, if it was given or has a standard value. -/
def value? (g : Given) (c : Command) (name : String) : Option String :=
  match g.options.find? (·.1.name = name) with
  | some (_, v) => some v
  | none => (c.named? name).bind (·.standard)

def text (g : Given) (c : Command) (name : String) : String := (g.value? c name).getD ""

def number (g : Given) (c : Command) (name : String) : Nat :=
  ((readNumber (g.text c name)).toOption).getD 0

def has (g : Given) (name : String) : Bool := g.options.any (·.1.name = name)

/-- The paths of all files that the command was told of. -/
def paths (g : Given) : List String :=
  (g.options.filter (·.1.form = some .path)).map (·.2)

end Given

end ClusterLink
