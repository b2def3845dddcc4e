import ClusterLink.Connection.Calls
import ClusterLink.Payload.Basic
import ClusterLink.Workers.Pool
/-!
# Serving a joined node

The reader answers pings itself. Every other frame becomes a job for the worker pool, where the
handler answers it, keeps silent, fails or is given up; a failure is answered too. What is written
goes through the queue of the connection, and waits while there is no room.

All connections of a server share one pool. A `Service` is one connection and the pool, where jobs of
other connections stand in the queue and keep workers busy. Its events are those of the connection and
of the workers, so a run of `Service.machine` is any interleaving of both.
-/

namespace ClusterLink

/-- What a handler does with a message (`MessageHandler`). -/
inductive HandlerOutcome where
  | reply (message : Message)
  | silent
  | failed (text : String)
  | panicked (cause : Panic)
  deriving DecidableEq, Repr

/-- The application's answer to messages that are no pings. -/
abbrev Handler := Message → HandlerOutcome

/-- What is left of an answer that no frame can hold. -/
def oversizedAnswer : Panic := .text "message body exceeds u32::MAX bytes: TryFromIntError(())"

/-- What a job comes to (`handle_message`): the answer to write, if any, or what stopped the job. A
failure of the handler is an answer. -/
def HandlerOutcome.conclude (request : Message) : HandlerOutcome → Except Panic (Option Message)
  | reply message => .ok (some message)
  | silent => .ok none
  | failed text =>
    match request.replyWith (.failure ⟨.handler, text⟩) with
    | .ok answer => .ok (some answer)
    | .error _ => .error oversizedAnswer
  | panicked cause => .error cause

/-- A job of the pool that all connections of a server share. -/
inductive PoolJob where
  /-- A frame that came in on the connection at hand. -/
  | own (frame : Message)
  /-- A frame that came in on another connection. -/
  | foreign
  deriving DecidableEq, Repr

/-- The frame that a job of the connection at hand is about. -/
def PoolJob.frame? : PoolJob → Option Message
  | own m => some m
  | foreign => none

/-- A connection and the pool that serves it. -/
structure Service where
  connection : Connection
  pool : WorkerPool PoolJob
  deriving Repr

/-- What happens while a node is served. -/
inductive ServiceEvent where
  /-- A step of the connection that does not come from a callback. -/
  | connection (event : ConnectionEvent)
  /-- The reader answers a ping. -/
  | answerPing
  /-- The reader makes a job of a frame. A pool that is shut drops it. -/
  | submit
  /-- The reader has no use for a frame, as there is no handler. -/
  | ignore
  /-- A worker takes the oldest job. -/
  | take (worker : Nat)
  /-- A worker runs the handler, writes what it answers and is done. -/
  | handle (worker : Nat)
  /-- The reader of another connection makes a job. -/
  | submitForeign
  /-- A worker is done with a job of another connection. -/
  | endForeign (worker : Nat) (panic : Option Panic)
  deriving Repr

namespace Service

/-- A connection that is being read, and a pool that is called `handler`. -/
def new (options : ConnectionOptions) (workers : Nat) : Service where
  connection := { Connection.new options with reader := .reading, hasCallback := true }
  pool := .new "handler" workers

/-- Whether an event of the connection stands for the return of a callback. -/
def isCallbackEnd : ConnectionEvent → Bool
  | .reader .comeBack => true
  | .reader (.panic _) => true
  | _ => false

/-- The callback is done. -/
def comeBack (s : Service) : Option Service := do
  return { s with connection := ← s.connection.step (.reader .comeBack) }

/-- Writes a message; there has to be room for it. -/
def write (s : Service) (m : Message) : Option Service := do
  return { s with connection := (← s.connection.write m.encode).2 }

/-- The job that a worker runs. -/
def job? (s : Service) (worker : Nat) : Option PoolJob :=
  match s.pool.workers[worker]? with
  | some (.running job) => some job.job
  | _ => none

/-- A worker is done with its job. -/
def finish (worker : Nat) (panic : Option Panic) (s : Service) : Option Service :=
  (s.pool.finish? worker panic).map fun p => { s with pool := p }

/-- One step of the connection or of the pool (`dispatch`). -/
def step (handler : Option Handler) (s : Service) : ServiceEvent → Option Service
  | .connection e =>
    if isCallbackEnd e then none
    else (s.connection.step e).map fun c => { s with connection := c }
  | .answerPing =>
    match s.connection.reader with
    | .calling a =>
      if a.message.kind = .ping then (s.write a.message.pong).bind comeBack else none
    | _ => none
  | .submit =>
    match s.connection.reader, handler with
    | .calling a, some _ =>
      if a.message.kind = .ping then none
      else match s.pool.submit (.own a.message) with
        | .ok pool => comeBack { s with pool }
        | .error _ => s.comeBack
    | _, _ => none
  | .ignore =>
    match s.connection.reader, handler with
    | .calling a, none => if a.message.kind = .ping then none else s.comeBack
    | _, _ => none
  | .take worker => (s.pool.take? worker).map fun p => { s with pool := p }
  | .handle worker =>
    match s.job? worker, handler with
    | some (.own m), some f =>
      match (f m).conclude m with
      | .ok (some answer) => (s.write answer).bind (finish worker none)
      | .ok none => finish worker none s
      | .error cause => finish worker (some cause) s
    | _, _ => none
  | .submitForeign => (s.pool.submit .foreign).toOption.map fun p => { s with pool := p }
  | .endForeign worker panic =>
    match s.job? worker with
    | some .foreign => finish worker panic s
    | _ => none

/-- All interleavings of reading, handling and writing. -/
def machine (handler : Option Handler) (options : ConnectionOptions) (workers : Nat) :
    Machine Service ServiceEvent where
  start := new options workers
  step := step handler

end Service

end ClusterLink
