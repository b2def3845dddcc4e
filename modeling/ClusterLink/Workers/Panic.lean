/-!
# Code that is given up on its way

Application code runs where its failures can be caught: on a worker or on a thread of its own. Code
that is given up leaves a value behind, which is often a text, and is reported in a line of the log.
-/

namespace ClusterLink

/-- What code that was given up leaves behind. -/
inductive Panic where
  | text (message : String)
  | other
  deriving DecidableEq, Repr

/-- The text that is reported of it (`panic_message`). -/
def Panic.message : Panic → String
  | text message => message
  | other => "non-string panic payload"

/-- How much a line of the log matters. -/
inductive LogLevel where
  | error
  | warn
  | debug
  deriving DecidableEq, Repr

def LogLevel.text : LogLevel → String
  | error => "ERROR"
  | warn => "WARN"
  | debug => "DEBUG"

/-- A line of the log. -/
structure LogLine where
  level : LogLevel
  text : String
  deriving DecidableEq, Repr

/-- How code on a thread of its own ended. -/
inductive ThreadEnd where
  | finished
  | failed (error : String)
  | panicked (cause : Panic)
  deriving DecidableEq, Repr

namespace ThreadEnd

/-- What became of a thread, without its name. -/
def text : ThreadEnd → String
  | finished => "finished"
  | failed error => "failed: " ++ error
  | panicked cause => "panicked: " ++ cause.message

def level : ThreadEnd → LogLevel
  | finished => .debug
  | failed _ => .warn
  | panicked _ => .error

/-- The line that reports the end of a thread (`spawn_supervised`); whatever the end, the rest of
the program goes on. -/
def report (name : String) (e : ThreadEnd) : LogLine := ⟨e.level, name ++ " " ++ e.text⟩

end ThreadEnd

end ClusterLink
