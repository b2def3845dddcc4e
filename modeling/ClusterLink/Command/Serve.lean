import ClusterLink.Command.Usage
/-!
# The command that runs a server
-/

namespace ClusterLink

def serveCommand : Command where
  program := "cryomesh-server"
  argument := "address"
  argumentForm := .socketAddress
  argumentHelp := "Listen for new connections at address"
  options :=
    [{ name := "secret", form := some .text, isRequired := true, help := "Shared cluster secret" },
      { name := "cert", form := some .path, needs := some "key",
        help := "PEM certificate chain; enables TLS together with --key" },
      { name := "key", form := some .path, needs := some "cert", help := "PEM private key" },
      { name := "workers", form := some .number, standard := some "15",
        help := "Handler worker threads" },
      { name := "handshake-timeout", form := some .number, standard := some "5",
        help := "Seconds a new socket has to authenticate" },
      { name := "max-clock-skew", form := some .number,
        help := "Reject join requests whose clock differs by more than this many seconds" }] ++
      Command.commonOptions

/-- The settings of the server that the command was told to run. -/
def ServerConfig.ofGiven? (g : Given) : Option ServerConfig := do
  let c := serveCommand
  let address ← SocketAddress.parse? (← g.argument)
  let config : ServerConfig := { address, secret := bytesOfText (g.text c "secret") }
  let config := (config.withWorkers (g.number c "workers")).withHandshakeTimeout
    (.ofSeconds (g.number c "handshake-timeout"))
  let config := match g.value? c "cert", g.value? c "key" with
    | some cert, some key => config.withTls ⟨cert, key⟩
    | _, _ => config
  return if g.has "max-clock-skew" then
    config.withMaxClockSkew (.ofSeconds (g.number c "max-clock-skew")) else config

/-- What the command prints instead of running a server, if it does not run one. -/
def serveFailure? (files : Files) (words : List String) : Option CommandResult :=
  match serveCommand.read words with
  | .error stop => some (serveCommand.stopResult stop)
  | .ok given =>
    match (ServerConfig.ofGiven? given).bind (·.tls) with
    | none => none
    | some tls =>
      match tls.load files with
      | .error e => some (.failure e.detail)
      | .ok _ => none

end ClusterLink
