import ClusterLink.Client.Allocation
import ClusterLink.Client.Dial
import ClusterLink.Loopback.Server
import ClusterLink.Net.Host
/-!
# A client on the loopback network

A client with the server it dials at hand. The server is a running one, a script, or nobody. After
each operation all bytes between the two have arrived and were dealt with.
-/

namespace ClusterLink

/-- What a scripted peer does next. -/
structure ScriptedAct where
  bytes : Bytes := []
  /-- Whether it ends the connection then. -/
  closes : Bool := false

/-- A peer that answers the greeting and each later frame by rote. A greeting may stay without an
answer. -/
structure PeerScript where
  greet : Message → Option ScriptedAct
  serve : Message → ScriptedAct

/-- What a client finds at the address that it dials. -/
inductive DialTarget where
  | nobody
  | server (server : RunningServer)
  /-- One script for each connection; the last goes on. -/
  | scripted (scripts : List PeerScript)

/-- The peer of a dialed connection. -/
inductive LinkPeer where
  | server (connection : ConnectionId)
  | scripted (script : PeerScript)

/-- The client's end of a connection. -/
structure DialedLink where
  link : Link
  peer : LinkPeer

/-- A client, all connections it ever dialed, and their other ends. -/
structure RunningClient where
  host : Host
  mac : Mac
  now : UInt64
  client : Client
  callback : Option Callback := none
  target : DialTarget
  /-- Why nothing can be said over a socket that was connected. -/
  handshakeFault : Option ClientError := none
  links : List DialedLink := []
  /-- Why dials failed. -/
  dialErrors : List ClientError := []

namespace RunningClient

/-! ## Dialing -/

/-- The connection of a socket on which the welcome has come; the rest of what has come lies in
front of its reader. -/
def dialedLink (s : RunningClient) (rest : Bytes) (isEnded : Bool) : Link :=
  let callback := inbound s.callback
  let link : Link := { Link.new s.client.config.connectionOptions with inbox := rest, isEnded }
  (link.listen (some callback)).toOption.getD link

/-- Waits for the answer to a greeting, of which all bytes have come. -/
def finishDial (s : RunningClient) (greeting : Message) (act : Option ScriptedAct)
    (peer : LinkPeer) : Except ClientError DialedLink :=
  let bytes := (act.map (·.bytes)).getD []
  let isEnded := (act.map (·.closes)).getD false
  let upcoming : List Frame.ReadEvent := if isEnded then [] else [.failure .deadlinePassed]
  match awaitWelcome greeting { source := { current := bytes, upcoming } } with
  | (.error e, _) => .error e
  | (.ok (), rest) => .ok { link := s.dialedLink rest.source.current isEnded, peer }

/-- Sends a greeting to whatever listens. -/
def greet (s : RunningClient) (greeting : Message) :
    Except ClientError DialedLink × DialTarget :=
  match s.target with
  | .nobody => (.error (.io .connectionRefused), .nobody)
  | .scripted scripts =>
    match scripts with
    | [] => (.error (.io .connectionRefused), .scripted [])
    | script :: later =>
      (s.finishDial greeting (script.greet greeting) (.scripted script),
        .scripted (if later.isEmpty then scripts else later))
  | .server server =>
    match server.accept greeting.encode false with
    | (.error _, next) => (.error .rejected, .server next)
    | (.ok (c, welcome), next) =>
      let (_, read) := next.answers c
      (s.finishDial greeting (some { bytes := welcome.encode }) (.server c), .server read)

/-- Whether anybody listens at the address. -/
def isListening (s : RunningClient) : Bool :=
  match s.target with
  | .nobody => false
  | _ => true

/-- Dials once. -/
def dial (s : RunningClient) : Except ClientError DialedLink × RunningClient :=
  match s.host.dial s.isListening, s.handshakeFault with
  | .error e, _ => (.error (.io e), s)
  | .ok (), some fault => (.error fault, s)
  | .ok (), none =>
    let id := MessageId.ofNat (s.links.length + s.dialErrors.length + 1)
    match s.client.config.greeting s.mac s.now id with
    | .error e => (.error (.frame (.header e)), s)
    | .ok greeting =>
      let (result, target) := s.greet greeting
      (result, { s with target })

/-- Dials once and keeps what came of it. -/
def dialAndKeep (s : RunningClient) : Bool × RunningClient :=
  match s.dial with
  | (.error e, next) => (false, { next with dialErrors := next.dialErrors ++ [e] })
  | (.ok link, next) => (true, { next with links := next.links ++ [link] })

/-- A step of the pool that a dial leads to. -/
def stepDial (s : RunningClient) (event : Bool → ClientEvent) : RunningClient :=
  let (success, next) := s.dialAndKeep
  { next with client := (next.client.step (event success)).getD next.client }

/-- The first dials, at most `fuel` of them. -/
def warm : (fuel : Nat) → RunningClient → RunningClient
  | 0, s => s
  | fuel + 1, s =>
    match s.client.connecting with
    | some d => if d.left = 0 then s else warm fuel (s.stepDial .warm)
    | none => s

/-- The dials of an allocation, at most `fuel` of them. -/
def dialFor (i : Nat) : (fuel : Nat) → RunningClient → RunningClient
  | 0, s => s
  | fuel + 1, s => if s.client.isDialing i then dialFor i fuel (s.stepDial (.dial i)) else s

/-! ## Both ends -/

/-- The connection with a number. -/
def link? (s : RunningClient) (c : ConnectionId) : Option DialedLink := s.links[c.number]?

def setLink (s : RunningClient) (c : ConnectionId) (l : DialedLink) : RunningClient :=
  { s with links := s.links.set c.number l }

/-- What a scripted peer makes of some frames: it goes on until it ends the connection. -/
def playScript (script : PeerScript) (l : Link) : List Message → Link
  | [] => l
  | m :: rest =>
    let act := script.serve m
    let told := l.receive act.bytes
    if act.closes then told.hangUp else playScript script told rest

/-- What one end has written travels to the other, and what that writes travels back. -/
def exchange (s : RunningClient) (c : ConnectionId) : RunningClient :=
  match s.link? c with
  | none => s
  | some l =>
    match l.peer, s.target with
    | .scripted script, _ =>
      let (frames, link) := l.link.readFrames
      s.setLink c { l with link := playScript script link frames }
    | .server id, .server server =>
      let bytes := l.link.unread
      let (_, sent) := l.link.read bytes.length
      let told := server.receive id bytes l.link.connection.isClosed
      let (answers, read) := told.answers id
      let hungUp := (read.links[id.number]?).any (·.link.connection.isClosed)
      let link := sent.receiveAll answers
      { s.setLink c { l with link := if hungUp then link.hangUp else link } with
        target := .server read }
    | _, _ => s

/-- Everything that was written arrives and is dealt with. What a callback answers takes a second
round, and an answer to that a third. -/
def settle (s : RunningClient) : RunningClient :=
  let ids := (List.range s.links.length).map ConnectionId.mk
  let moved := (ids ++ ids ++ ids).foldl exchange s
  let gone := ids.filter fun c => (moved.link? c).any (·.link.connection.isClosed)
  { moved with client := moved.client.closeAll gone }

/-- The connections that the pool closed are closed. -/
def closeDropped (s : RunningClient) : RunningClient :=
  (s.client.closed.foldl (fun s c =>
    match s.link? c with
    | some l => s.setLink c { l with link := l.link.close }
    | none => s) s).settle

/-! ## What the client is asked to do -/

/-- Dials the first connections. -/
def connect (s : RunningClient) : RunningClient :=
  let warmed := s.warm s.client.config.minConnections
  { warmed with client := (warmed.client.step .ready).getD warmed.client }.settle

/-- Borrows a connection. -/
def allocate (s : RunningClient) : Except ClientError ConnectionId × RunningClient :=
  let i := s.client.allocations.length
  let planned := { s with client := (s.client.step .plan).getD s.client }
  let dialed := planned.dialFor i s.client.config.maxConnections
  let ended := { dialed with client := (dialed.client.step (.commit i)).getD dialed.client }
  ((ended.client.result? i).getD (.error .noAvailableConnections), ended.closeDropped)

/-- Pays a loan back. -/
def free (s : RunningClient) (c : ConnectionId) : RunningClient :=
  { s with client := s.client.free c }.closeDropped

/-- Sends a request on a connection and waits for the response. -/
def sendOn (s : RunningClient) (c : ConnectionId) (m : Message) :
    Except ConnectionError Message × RunningClient :=
  match s.link? c with
  | none => (.error .closed, s)
  | some l =>
    let (t, sent) := l.link.send m
    let moved := (s.setLink c { l with link := sent }).settle
    match moved.link? c with
    | none => (.error .closed, moved)
    | some answered =>
      let (result, link) := answered.link.await t
      (result, (moved.setLink c { answered with link }).settle)

/-- Borrows a connection for one request. -/
def send (s : RunningClient) (m : Message) : Except ClientError Message × RunningClient :=
  match s.allocate with
  | (.error e, next) => (.error e, next)
  | (.ok c, next) =>
    let (result, sent) := next.sendOn c m
    (result.mapError .connection, sent.free c)

/-- Borrows a connection for a ping. -/
def ping (s : RunningClient) : Except ClientError Unit × RunningClient :=
  let (result, next) := s.send (.bare (.ofNat (18446744073709551616 + s.client.allocations.length)) .ping)
  (result.bind checkPong, next)

/-- Closes the client. -/
def close (s : RunningClient) : RunningClient := { s with client := s.client.close }.closeDropped

/-- Someone closes a connection. -/
def closeConnection (s : RunningClient) (c : ConnectionId) : RunningClient :=
  match s.link? c with
  | some l => (s.setLink c { l with link := l.link.close }).settle
  | none => s

/-- The server closes its connections, and goes down if it likes. -/
def serverDrops (s : RunningClient) (goesDown : Bool) : RunningClient :=
  let hungUp := s.links.map fun l : DialedLink => { l with link := l.link.hangUp }
  let target : DialTarget := match s.target with
    | .server server =>
      let dropped := server.closeAll server.served
      if goesDown then .nobody else .server dropped
    | other => if goesDown then .nobody else other
  { s with links := hungUp, target }.settle

/-- The server does something to its connections. -/
def atServer {α : Type} (s : RunningClient) (act : RunningServer → α × RunningServer) :
    Option (α × RunningClient) :=
  match s.target with
  | .server server =>
    let (a, next) := act server
    some (a, { s with target := .server next }.settle)
  | _ => none

/-- The server sends a request on its connection to the client and waits for the response. -/
def serverRequest (s : RunningClient) (c : ConnectionId) (m : Message) :
    Except ConnectionError Message × RunningClient :=
  match (s.link? c).map DialedLink.peer, s.target with
  | some (.server id), .server server =>
    let t := ((server.links[id.number]?).map (·.link.connection.requests.length)).getD 0
    let asking : RunningClient :=
      { s with target := .server (server.update id fun l => (l.send m).2) }
    let asked := asking.settle
    match asked.target with
    | .server answered =>
      let result := ((answered.links[id.number]?).map fun l => (l.link.await t).1)
      (result.getD (.error .closed),
        { asked with target := .server (answered.update id fun l => (l.await t).2) })
    | _ => (.error .closed, asked)
  | _, _ => (.error .closed, s)

end RunningClient

end ClusterLink
