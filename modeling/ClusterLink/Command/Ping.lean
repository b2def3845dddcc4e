import ClusterLink.Command.Usage
import ClusterLink.Loopback.Client
/-!
# The command that pings a server

It joins the cluster, sends some pings one after another, and says of each how long the pong took or
why there was none. It fails if there was no pong at all.
-/

namespace ClusterLink

def pingCommand : Command where
  program := "cryomesh-ping"
  argument := "server"
  argumentForm := .text
  argumentHelp := "Server address as host:port"
  options :=
    [{ name := "secret", form := some .text, isRequired := true, help := "Shared cluster secret" },
      { name := "node-id", form := some .text, standard := some "cryomesh-ping",
        help := "Node id to join as" },
      { name := "replica", help := "Join as a slave" },
      { name := "count", letter := some 'c', form := some .number, standard := some "4",
        help := "Number of pings to send" },
      { name := "interval", form := some .number, standard := some "1000",
        help := "Milliseconds to wait between pings" },
      { name := "ca", form := some .path, needs := some "server-name",
        help := "CA certificate used to verify the server; enables TLS" },
      { name := "server-name", form := some .text,
        help := "Name the server certificate is issued for" }] ++ Command.commonOptions

/-- What a run of pings needs to know. -/
structure PingSettings where
  config : ClientConfig
  count : Nat
  interval : Duration
  deriving DecidableEq, Repr

namespace PingSettings

def ofGiven (g : Given) : PingSettings :=
  let c := pingCommand
  let config : ClientConfig :=
    { server := g.argument.getD "", secret := bytesOfText (g.text c "secret"),
      nodeId := g.text c "node-id" }
  let config := (config.withReplica (g.has "replica")).withConnections 1 1
  { config := match g.value? c "ca", g.value? c "server-name" with
      | some ca, some name => config.withTls ⟨ca, name⟩
      | _, _ => config
    count := g.number c "count"
    interval := .ofMillis (g.number c "interval") }

/-- What is printed of a ping: it took some time, or failed. -/
def line (s : PingSettings) (seq : Nat) : Except ClientError Duration → OutputLine
  | .ok time =>
    .out ("pong from " ++ s.config.server ++ ": seq=" ++ toString seq ++ " time=" ++ time.text)
  | .error e => .err ("ping seq=" ++ toString seq ++ " failed: " ++ e.message)

/-- The end of the run. -/
def summary (s : PingSettings) (failures : Nat) : CommandResult :=
  let sent := OutputLine.out (toString s.count ++ " sent, " ++ toString failures ++ " failed")
  if failures = s.count ∧ 0 < s.count then
    let failed := CommandResult.failure (quoted "no pong received")
    { failed with lines := sent :: failed.lines }
  else { lines := [sent] }

/-- The client that sends the pings, unless its TLS files are no good. Nobody listens on the host. -/
def client (s : PingSettings) (host : Host) (files : Files) (now : UInt64) :
    Except TlsError RunningClient :=
  let client : RunningClient :=
    { host, mac := .hmacSha256, now, client := .new s.config, target := .nobody }
  match s.config.tls with
  | none => .ok client.connect
  | some tls => (tls.load files).map fun _ => client.connect

/-- Some pings one after the other. -/
def pings : (count : Nat) → RunningClient → List (Except ClientError Unit)
  | 0, _ => []
  | count + 1, client =>
    let (result, next) := client.ping
    result :: pings count next

/-- All that is printed, if each pong takes the given time. -/
def run (s : PingSettings) (took : Duration) (client : RunningClient) : CommandResult :=
  let results := (pings s.count client).map fun r => r.map fun () => took
  let ends := s.summary (results.filter fun r => r.toOption.isNone).length
  { ends with lines := (results.zipIdx.map fun (r, seq) => s.line seq r) ++ ends.lines }

end PingSettings

/-- All that the command prints on a host. -/
def pingResult (host : Host) (files : Files) (now : UInt64) (words : List String) : CommandResult :=
  match pingCommand.read words with
  | .error stop => pingCommand.stopResult stop
  | .ok given =>
    let s := PingSettings.ofGiven given
    match s.client host files now with
    | .error e => .failure e.detail
    | .ok client => s.run ⟨0⟩ client

end ClusterLink
