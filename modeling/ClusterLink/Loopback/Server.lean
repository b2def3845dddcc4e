import ClusterLink.Loopback.Link
import ClusterLink.Server.Broadcast
import ClusterLink.Server.Config
import ClusterLink.Server.Handshake
import ClusterLink.Server.Service
/-!
# A server on the loopback network

A running server with the connections of its clients at hand. After each operation the server has
dealt with all that has arrived: frames were dispatched, jobs were run, and sockets that came to
their end were taken out of the registry.
-/

namespace ClusterLink

/-- What the hooks of a server are told. -/
inductive ServerNotice where
  | listening
  | joined (connection : ConnectionId) (request : JoinRequest)
  | left (connection : ConnectionId) (nodeId : String)
  /-- The handler is given a message. -/
  | message (connection : ConnectionId) (message : Message)
  | shutDown
  deriving DecidableEq, Repr

/-- The server's end of a connection. -/
structure ServedLink where
  nodeId : String
  link : Link
  /-- How many of the frames that nobody waited for were reported. -/
  reported : Nat := 0
  /-- How the thread of the socket ended. -/
  threadEnd : Option ThreadEnd := none

/-- A server and all connections it ever accepted, by their numbers. -/
structure RunningServer where
  config : ServerConfig
  gate : Gate
  handler : Option Handler := none
  registry : Registry := {}
  isShutDown : Bool := false
  links : List ServedLink := []
  notices : List ServerNotice := [.listening]
  /-- What stopped jobs of the handler. -/
  jobPanics : List Panic := []

/-- What a server's reader and workers make of a frame, with a pool that runs each job at once. -/
def answerAtOnce (handler : Option Handler) : Callback := fun m =>
  if m.kind = .ping then { replies := [m.pong] }
  else match handler with
    | none => {}
    | some f => { replies := ((f m).conclude m).toOption.join.toList }

namespace RunningServer

/-- The connections by their ids. -/
def table (s : RunningServer) : Connections := fun id =>
  ((s.links[id.number]?).map (·.link.connection)).getD (.new {})

/-- Tells the hooks something. -/
def notify (s : RunningServer) (notices : List ServerNotice) : RunningServer :=
  { s with notices := s.notices ++ notices }

/-- Reports the frames that were given to the handler. -/
def report (s : RunningServer) (i : Nat) (l : ServedLink) : RunningServer :=
  let unasked := l.link.connection.history.unasked.map Arrival.message
  let jobs := (unasked.drop l.reported).filter (·.kind ≠ .ping)
  let reported := { s with links := s.links.set i { l with reported := unasked.length } }
  match s.handler with
  | none => reported
  | some f =>
    let panics := jobs.filterMap fun m =>
      match (f m).conclude m with
      | .error cause => some cause
      | .ok _ => none
    let told := reported.notify (jobs.map (.message ⟨i⟩))
    { told with jobPanics := s.jobPanics ++ panics }

/-- How the thread of a socket ends after its read loop. -/
def threadEndOf (result : Except ConnectionError Unit) : ThreadEnd :=
  match result with
  | .ok () => .finished
  | .error cause => .failed (ServerError.connection cause).message

/-- Takes a connection out whose read loop is over. -/
def conclude (s : RunningServer) (i : Nat) : RunningServer :=
  match s.links[i]? with
  | none => s
  | some l =>
    match l.threadEnd, l.link.readerResult? with
    | none, some result =>
      let ended := { l with threadEnd := some (threadEndOf result) }
      let out := { s with
        links := s.links.set i ended
        registry := (s.registry.removeConnection l.nodeId ⟨i⟩).2 }
      out.notify [.left ⟨i⟩ l.nodeId]
    | _, _ => s

/-- Something happens on a connection, and the server deals with it. -/
def update (s : RunningServer) (c : ConnectionId) (f : Link → Link) : RunningServer :=
  match s.links[c.number]? with
  | none => s
  | some l => (s.report c.number { l with link := f l.link }).conclude c.number

/-- Puts connections back that were changed elsewhere. -/
def withTable (s : RunningServer) (t : Connections) : RunningServer :=
  (List.range s.links.length).foldl (fun s i =>
    s.update ⟨i⟩ fun l => Link.settle { l with connection := t ⟨i⟩ }) s

/-- A socket is accepted and sends some bytes. A socket that has not ended then keeps the server
waiting until its time is up. The answer is how the server greets it, or how its thread ends. -/
def accept (s : RunningServer) (bytes : Bytes) (isEnded : Bool) :
    Except Refusal (ConnectionId × Message) × RunningServer :=
  let upcoming : List Frame.ReadEvent := if isEnded then [] else [.failure .deadlinePassed]
  match s.gate.letIn { source := { current := bytes, upcoming } } with
  | (.error refusal, _) => (.error refusal, s)
  | (.ok join, socket) =>
    let c : ConnectionId := ⟨s.links.length⟩
    let callback := answerAtOnce s.handler
    let link : Link := { Link.new s.config.connectionOptions with
      inbox := socket.source.current, isEnded, callback := some callback }
    let joined : RunningServer := { s.notify [.joined c join] with
      registry := s.registry.join join c
      links := s.links ++ [{ nodeId := join.nodeId, link }] }
    let served := joined.update c fun l =>
      let looked := if s.isShutDown then { l with connection := l.connection.close } else l
      (looked.listen (some callback)).toOption.getD looked
    match Frame.parse socket.sink.written with
    | (.ok welcome, _) => (.ok (c, welcome), served)
    | (.error cause, _) => (.error (.failed (.frame cause)), served)

/-- How the thread of a connection ended. -/
def threadEnd? (s : RunningServer) (c : ConnectionId) : Option ThreadEnd :=
  (s.links[c.number]?).bind (·.threadEnd)

/-- What the client of a connection reads of what it has not read yet. -/
def answers (s : RunningServer) (c : ConnectionId) : List Message × RunningServer :=
  match s.links[c.number]? with
  | none => ([], s)
  | some l =>
    let (frames, link) := l.link.readFrames
    (frames, { s with links := s.links.set c.number { l with link } })

/-- A client sends some bytes, and ends its sending side if it likes. -/
def receive (s : RunningServer) (c : ConnectionId) (bytes : Bytes) (isEnded : Bool) :
    RunningServer :=
  s.update c fun l => if isEnded then (l.receive bytes).hangUp else l.receive bytes

/-- Adds a connection that is closed already. -/
def attachDead (s : RunningServer) (nodeId : String) (role : Role) (tags : List String) :
    ConnectionId × Node × RunningServer :=
  let c : ConnectionId := ⟨s.links.length⟩
  let (node, registry) := s.registry.register nodeId role tags c
  let link := (Link.new s.config.connectionOptions).close
  (c, node, { s with registry, links := s.links ++ [{ nodeId, link }] })

/-- Writes a message to all slaves. -/
def broadcast (s : RunningServer) (m : Message) : BroadcastReport × RunningServer :=
  let (report, table) := s.registry.broadcast s.table m
  (report, s.withTable table)

/-- Asks all slaves; some of their clients read the request and send some messages. -/
def requestSlaves (s : RunningServer) (m : Message)
    (replies : List (ConnectionId × List Message)) :
    List (Delivery × Except ConnectionError Message) × List (ConnectionId × List Message) ×
      RunningServer :=
  let targets := s.registry.deliveries
  let start := (s, ([] : List (Delivery × Ticket)))
  let (asked, tickets) := targets.foldl (fun (s, tickets) d =>
    let t := ((s.links[d.connection.number]?).map (·.link.connection.requests.length)).getD 0
    (s.update d.connection fun l => (l.send m).2, tickets ++ [(d, t)])) start
  let (seen, received) := replies.foldl (fun (s, received) (c, _) =>
    let (frames, next) := s.answers c
    (next, received ++ [(c, frames)])) (asked, ([] : List (ConnectionId × List Message)))
  let answered := replies.foldl (fun s (c, messages) =>
    s.receive c (messages.flatMap Message.encode) false) seen
  let (outcomes, after) := tickets.foldl (fun (outcomes, s) (d, t) =>
    let result := match s.links[d.connection.number]? with
      | some l => (l.link.await t).1
      | none => .error .closed
    (outcomes ++ [(d, result)], s.update d.connection fun l => (l.await t).2))
    (([] : List (Delivery × Except ConnectionError Message)), answered)
  (outcomes, received, after)

/-- Takes a node out of the registry. -/
def removeNode (s : RunningServer) (id : String) : Option Node × RunningServer :=
  let (node, registry) := s.registry.removeNode id
  (node, { s with registry })

/-- Closes some connections. -/
def closeAll (s : RunningServer) (cs : List ConnectionId) : RunningServer :=
  cs.foldl (fun s c => s.update c Link.close) s

/-- Shuts the server down. Only the first call does anything. -/
def shutdown (s : RunningServer) : RunningServer :=
  if s.isShutDown then s
  else
    let flagged : RunningServer := { s with isShutDown := true }
    (flagged.closeAll (s.registry.connections.map (·.2))).notify [.shutDown]

/-- The connections that a thread still serves. -/
def served (s : RunningServer) : List ConnectionId :=
  ((List.range s.links.length).map ConnectionId.mk).filter fun c =>
    (s.links[c.number]?).any fun l => l.threadEnd.isNone && !l.link.connection.isClosed

end RunningServer

end ClusterLink
