import ClusterLink.Command.Ping
import ClusterLink.Command.Serve
import Std.Time.DateTime.Timestamp
/-!
# The command line

`ping` and `serve` are the two commands, named by the first word. The program has no sockets of its
own, so it runs on a host that nobody reaches and that reaches nobody.
-/

namespace ClusterLink

namespace CommandLine

/-- Prints what a command has to say. -/
def print (lines : List OutputLine) : IO Unit :=
  lines.forM fun line => match line with
    | .out text => IO.println text
    | .err text => IO.eprintln text

/-- Prints the last lines and hands out the exit code. -/
def finish (result : CommandResult) : IO UInt32 := do
  print result.lines
  return result.code.toUInt32

/-- The content of a file, or why it cannot be read. -/
def readFile (path : String) : IO (Except IoError Bytes) := do
  try
    return .ok (← IO.FS.readBinFile path).toList
  catch e =>
    return .error <| match e with
      | .noFileOrDirectory .. => ⟨.notFound, "No such file or directory", some 2⟩
      | .permissionDenied .. => ⟨.permissionDenied, "Permission denied", some 13⟩
      | other => ⟨.other, toString other, none⟩

/-- The files under some paths. -/
def readFiles (paths : List String) : IO Files := do
  let contents ← paths.mapM fun path => return (path, ← readFile path)
  return fun path => (contents.lookup path).getD (.error ⟨.notFound, "No such file or directory", some 2⟩)

/-- The files that a command is told of. -/
def filesFor (command : Command) (words : List String) : IO Files :=
  readFiles (((command.read words).toOption.map Given.paths).getD [])

/-- Milliseconds since 1970. -/
def localTime : IO UInt64 := do
  return .ofNat (← Std.Time.Timestamp.now).toMillisecondsSinceUnixEpoch.toInt.toNat

/-- Pings until the count is reached, and hands out how many pings failed. -/
def pingAll (s : PingSettings) (client : RunningClient) : IO Nat := do
  let mut client := client
  let mut failures := 0
  for seq in [0:s.count] do
    if 0 < seq then IO.sleep (.ofNat s.interval.millis)
    let start ← IO.monoNanosNow
    let (result, next) := client.ping
    client := next
    let stop ← IO.monoNanosNow
    if result.toOption.isNone then failures := failures + 1
    print [s.line seq (result.map fun () => ⟨stop - start⟩)]
  return failures

def ping (words : List String) : IO UInt32 := do
  match pingCommand.read words with
  | .error stop => finish (pingCommand.stopResult stop)
  | .ok given =>
    let settings := PingSettings.ofGiven given
    match settings.client .isolated (← filesFor pingCommand words) (← localTime) with
    | .error e => finish (.failure e.detail)
    | .ok client => finish (settings.summary (← pingAll settings client))

/-- A server that nobody reaches waits until somebody stops it. -/
partial def waitForever : IO UInt32 := do
  IO.sleep 1000
  waitForever

def serve (words : List String) : IO UInt32 := do
  match serveFailure? (← filesFor serveCommand words) words with
  | some failure => finish failure
  | none => waitForever

def run (words : List String) : IO UInt32 :=
  match words with
  | "ping" :: rest => ping rest
  | "serve" :: rest => serve rest
  | _ => finish { lines := [.err "Usage: ping [OPTIONS] | serve [OPTIONS]"], code := 2 }

end CommandLine

end ClusterLink

def main (words : List String) : IO UInt32 := ClusterLink.CommandLine.run words
