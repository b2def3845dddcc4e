import ClusterLink.Connection.Opening
import ClusterLink.Frame.Socket
import ClusterLink.Registry.Basic
import ClusterLink.Server.Error
import ClusterLink.Workers.Panic
/-!
# Letting a node in

The first frame on an accepted socket has to be a join request that the server believes. Frame,
payload, kind, form, digest, age and the validator are checked in this order, and the first check
that fails ends the conversation without a byte written. A node that is let in is welcomed under the
id of its greeting. Only then is a connection opened on the socket, the observer of new connections
told, and the connection registered; what goes wrong there, the node does not learn from its welcome.
-/

namespace ClusterLink

/-- Why a socket is given up before its node is registered. -/
inductive Refusal where
  | failed (error : ServerError)
  /-- The checks themselves were given up. -/
  | panicked (cause : Panic)
  deriving DecidableEq, Repr

/-- How the thread of a refused socket ends. -/
def Refusal.threadEnd : Refusal → ThreadEnd
  | failed error => .failed error.message
  | panicked cause => .panicked cause

/-- Further policy on who may join (`JoinValidator`). -/
abbrev JoinValidator := JoinRequest → Except Panic Bool

/-- What join requests are checked against. -/
structure Gate where
  mac : Mac
  secret : Bytes
  maxSkew : Option Duration := none
  now : UInt64
  validator : Option JoinValidator := none

/-- A body that cannot be decoded. An announced size that no memory can hold is no answer. -/
def PayloadError.refusal : PayloadError → Refusal
  | .deserialize .capacityOverflow => .panicked (.text DecodeError.capacityOverflow.text)
  | cause => .failed (.payload cause)

namespace Gate

/-- The join request that a frame carries, if it passes every check but the validator's. -/
def examine (g : Gate) (m : Message) : Except Refusal JoinRequest :=
  match m.payload with
  | .error cause => .error cause.refusal
  | .ok (.greeting join) =>
    match join.check g.mac g.secret g.now g.maxSkew with
    | .error cause => .error (.failed (.join cause))
    | .ok () => .ok join
  | .ok _ => .error (.failed (.join (.unexpectedMessage m.kind.text)))

/-- Asks the validator, if there is one. -/
def approve (g : Gate) (join : JoinRequest) : Except Refusal Unit :=
  match g.validator with
  | none => .ok ()
  | some validator =>
    match validator join with
    | .error cause => .error (.panicked cause)
    | .ok true => .ok ()
    | .ok false => .error (.failed (.join .rejected))

/-- All checks of a first frame. -/
def check (g : Gate) (m : Message) : Except Refusal JoinRequest := do
  let join ← g.examine m
  g.approve join
  return join

/-- Reads the first frame and checks it (`authenticate`). -/
def authenticate (g : Gate) (s : Frame.Source) :
    Except Refusal (Message × JoinRequest) × Frame.Source :=
  match Frame.read s with
  | (.error cause, t) => (.error (.failed (.frame cause)), t)
  | (.ok greeting, t) => ((g.check greeting).map fun join => (greeting, join), t)

end Gate

/-- The answer to a greeting that was accepted. -/
def Message.welcome (greeting : Message) : Message := bare greeting.id .welcome

/-- Lets a node in: its greeting is checked and answered. -/
def Gate.letIn (g : Gate) (s : Socket) : Except Refusal JoinRequest × Socket :=
  match g.authenticate s.source with
  | (.error refusal, source) => (.error refusal, { s with source })
  | (.ok (greeting, join), source) =>
    match { s with source }.write greeting.welcome with
    | (.error cause, t) => (.error (.failed (.frame cause)), t)
    | (.ok (), t) => (.ok join, t)

/-- Registers the connection of a node that was let in. -/
def Registry.join (r : Registry) (join : JoinRequest) (c : ConnectionId) : Registry :=
  (r.register join.nodeId (.ofReplica join.isReplica) join.tags c).2

/-- A new socket up to the registration of its connection, where the connection opens and nobody is to
be told of it first. -/
def Gate.receive (g : Gate) (r : Registry) (c : ConnectionId) (s : Socket) :
    Except Refusal JoinRequest × Registry × Socket :=
  match g.letIn s with
  | (.error refusal, t) => (.error refusal, r, t)
  | (.ok join, t) => (.ok join, r.join join c, t)

/-! ## From the welcome to the registration -/

/-- What became of a call to the observer of new connections. -/
inductive HookOutcome where
  | returned
  | panicked (cause : Panic)
  /-- It has not come back. -/
  | stays
  deriving DecidableEq, Repr

/-- Is told of new connections and of the requests that they were let in with (`on_connection`). -/
abbrev ConnectionHook := ConnectionId → JoinRequest → HookOutcome

/-- How far the thread of a new socket gets. -/
inductive Admission where
  /-- The node was not let in. -/
  | refused (cause : Refusal)
  /-- The node was welcomed, and its connection given up. -/
  | dropped (cause : Refusal)
  /-- The observer keeps the connection. -/
  | held (join : JoinRequest)
  | registered (join : JoinRequest)
  deriving DecidableEq, Repr

/-- How the thread of a socket fails that a connection cannot be opened on. -/
def OpeningFailure.refusal : OpeningFailure → Refusal
  | failed cause => .failed (.connection (.io cause))
  | panicked cause => .panicked cause

/-- A new socket up to the registration of its connection (`handle_socket`, as far as the read loop).
`thread` says what became of starting the connection's writer. -/
def Gate.enroll (g : Gate) (options : ConnectionOptions) (thread : Except IoError Unit)
    (hook : Option ConnectionHook) (r : Registry) (c : ConnectionId) (s : Socket) :
    Admission × Registry × Socket :=
  match g.letIn s with
  | (.error refusal, t) => (.refused refusal, r, t)
  | (.ok join, t) =>
    match Connection.launch options thread with
    | .error failure => (.dropped failure.refusal, r, t)
    | .ok _ =>
      match (hook.map fun observe => observe c join).getD .returned with
      | .returned => (.registered join, r.join join c, t)
      | .panicked cause => (.dropped (.panicked cause), r, t)
      | .stays => (.held join, r, t)

end ClusterLink
