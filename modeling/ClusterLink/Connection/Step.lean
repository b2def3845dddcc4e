import ClusterLink.Connection.Basic
import ClusterLink.Machine
/-!
# What happens on a connection, step by step

Each event is something that one party does while no other can look: it holds a lock, or it is a
single operation on the socket or the queue. Between two events of a party anything may happen.

A request that ends for want of a response takes away whatever waits under its id. That is its own
slot, unless the reader has taken that one in the meantime and another request has registered the
same id since.
-/

namespace ClusterLink

/-- What the caller of a request does. -/
inductive RequestEvent where
  /-- Puts a slot under the request's id, unless one is there. -/
  | register
  /-- Gets hold of the queue. -/
  | reach
  /-- Puts the frame into the queue. -/
  | queue
  /-- Takes away what waits under the id, as the frame was not queued. -/
  | withdraw
  /-- Finds a response, or that none can come. -/
  | take
  /-- Finds that the time is up. -/
  | timeOut
  /-- Takes away what waits under the id, as the time is up. -/
  | giveUp
  /-- Looks for a response that came while the time ran out. -/
  | lookAgain
  deriving DecidableEq, Repr

/-- What the caller of a write does. -/
inductive WriteEvent where
  | reach
  | queue
  deriving DecidableEq, Repr

/-- What the one who closes does after marking the connection as closed. -/
inductive ClosingEvent where
  | announce
  | detach
  | shutDown (result : Except IoError Unit)
  deriving Repr

/-- What the writer does. -/
inductive WriterEvent where
  /-- Takes the oldest frame. -/
  | fetch
  /-- Finds that there is no frame and never will be. -/
  | runDry
  /-- Looks whether the connection is closed before writing. -/
  | look
  /-- The socket takes some bytes. -/
  | accept (n : Nat)
  /-- The socket was interrupted and is tried again. -/
  | interrupted
  | fail (cause : IoError)
  | flush
  | failFlush (cause : IoError)
  /-- Looks whether the connection is closed after a failure. -/
  | lookAfterFailure
  | close
  | leave
  deriving DecidableEq, Repr

/-- What the reader does. -/
inductive ReaderEvent where
  | start (withCallback : Bool)
  /-- A frame comes in and takes the slot that waits for its id. -/
  | arrive (message : Message)
  /-- Puts the frame where it belongs. -/
  | dispatch
  /-- The callback is done. -/
  | comeBack
  /-- The callback is given up. -/
  | panic (cause : Panic)
  /-- No frame comes any more. -/
  | stop (cause : FrameError)
  | close
  | leave
  deriving DecidableEq, Repr

/-- A step of one party. -/
inductive ConnectionEvent where
  /-- A request is made. Its ticket is the number of requests made before. -/
  | send (message : Message)
  | request (ticket : Ticket) (event : RequestEvent)
  /-- A frame is to be written. Its number is the number of writes before. -/
  | write (bytes : Bytes)
  | writing (number : Nat) (event : WriteEvent)
  | close
  | closing (event : ClosingEvent)
  | writer (event : WriterEvent)
  | reader (event : ReaderEvent)
  deriving Repr

namespace Connection

/-! ## Slots -/

def setRequest (c : Connection) (t : Ticket) (r : Request) : Connection :=
  { c with requests := c.requests.set t r }

def setStage (c : Connection) (t : Ticket) (r : Request) (stage : RequestStage) : Connection :=
  c.setRequest t { r with stage }

/-- The slot that waits for an id. -/
def waiting? (c : Connection) (id : MessageId) : Option Ticket := c.pending.lookup id

/-- Takes away what waits for an id. -/
def unregister (c : Connection) (id : MessageId) : Connection :=
  { c with pending := c.pending.filter (·.1 ≠ id) }

/-- Nobody will fill the slot of a request any more. -/
def abandon (c : Connection) (t : Ticket) : Connection :=
  { c with requests := c.requests.modify t fun r =>
      if r.slot = .vacant then { r with slot := .abandoned } else r }

/-- Takes away the slot that waits for an id, so that nobody will fill it. -/
def withdraw (c : Connection) (id : MessageId) : Connection :=
  match c.waiting? id with
  | some t => (c.unregister id).abandon t
  | none => c

/-- Puts a frame into the slot of a request, unless the request has come back. -/
def fill (c : Connection) (t : Ticket) (a : Arrival) : Connection :=
  match c.requests[t]? with
  | none => c
  | some r =>
    if r.isOver then
      { c with history := { c.history with orphaned := c.history.orphaned ++ [(t, a)] } }
    else
      { c.setRequest t { r with slot := .filled a } with
        history := { c.history with delivered := c.history.delivered ++ [(t, a)] } }

/-- Remembers that responses to an id are late (`expire`). The oldest id is forgotten if there are
too many. -/
def expire (c : Connection) (id : MessageId) : Connection :=
  { c with
    expired := (if c.expired.length = expiredCapacity then c.expired.drop 1 else c.expired) ++ [id]
    history := { c.history with expirations := c.history.expirations ++ [id] } }

/-! ## Requests -/

/-- Makes a request. -/
def send (c : Connection) (message : Message) : Connection :=
  let stage := if c.isClosed then .ended (.error .closed) else .entered
  { c with requests := c.requests ++ [{ message, stage }] }

/-- Appends a frame to the queue. -/
def enqueue (c : Connection) (frame : Bytes) : Connection :=
  { c with
    queue := c.queue ++ [frame]
    history := { c.history with queued := c.history.queued ++ [frame] } }

/-- The error of a request that nobody answered in time. -/
def timeoutError (c : Connection) (r : Request) : ConnectionError :=
  .timeout r.message.id c.options.timeout

/-- One step of a request (`send`). -/
def stepRequest (c : Connection) (t : Ticket) (r : Request) (e : RequestEvent) :
    Option Connection :=
  match r.stage, e with
  | .entered, .register =>
    if (c.waiting? r.message.id).isSome then
      some (c.setStage t r (.ended (.error (.duplicateId r.message.id))))
    else
      let registered := c.setRequest t
        { r with stage := .registered, since := c.history.arrivals.length }
      some { registered with pending := c.pending ++ [(r.message.id, t)] }
  | .registered, .reach =>
    some (c.setStage t r (if c.closing.hasQueue then .holding else .refused))
  | .holding, .queue =>
    if !c.writer.isServing then some (c.setStage t r .refused)
    else if c.queue.length < c.capacity then
      some ((c.setRequest t { r with stage := .waiting, sent := true }).enqueue r.message.encode)
    else none
  | .refused, .withdraw =>
    some ((c.setStage t r (.ended (.error .closed))).withdraw r.message.id)
  | .waiting, .take =>
    match r.slot with
    | .vacant => none
    | .filled a => some (c.setStage t r (.ended (.ok a)))
    | .abandoned => some (c.setStage t r (.ended (.error .closed)))
  | .waiting, .timeOut =>
    match r.slot with
    | .vacant => some (c.setStage t r .overdue)
    | _ => none
  | .overdue, .giveUp =>
    if (c.waiting? r.message.id).isSome then
      let ended := c.setStage t r (.ended (.error (c.timeoutError r)))
      some ((ended.withdraw r.message.id).expire r.message.id)
    else some (c.setStage t r .missed)
  | .missed, .lookAgain =>
    match r.slot with
    | .filled a => some (c.setStage t r (.ended (.ok a)))
    | _ => some (c.setStage t r (.ended (.error (c.timeoutError r))))
  | _, _ => none

/-! ## Writes -/

def setWrite (c : Connection) (n : Nat) (w : Write) (stage : WriteStage) : Connection :=
  { c with writes := c.writes.set n { w with stage } }

/-- One step of a write (`write`). -/
def stepWrite (c : Connection) (n : Nat) (w : Write) (e : WriteEvent) : Option Connection :=
  match w.stage, e with
  | .entered, .reach =>
    some (c.setWrite n w (if c.closing.hasQueue then .holding else .ended (.error .closed)))
  | .holding, .queue =>
    if !c.writer.isServing then some (c.setWrite n w (.ended (.error .closed)))
    else if c.queue.length < c.capacity then
      some ((c.setWrite n w (.ended (.ok w.bytes.length))).enqueue w.bytes)
    else none
  | _, _ => none

/-- Whether a caller has hold of the queue. -/
def isQueueHeld (c : Connection) : Bool :=
  c.requests.any (·.isHolding) || c.writes.any (·.isHolding)

/-! ## Closing -/

/-- A call to close that finds the connection closed already. -/
def noteClose (c : Connection) (result : Except ConnectionError Unit) : Connection :=
  { c with history := { c.history with closes := c.history.closes ++ [result] } }

/-- Marks the connection as closed; only the first to do so goes on closing it. -/
def beginClose (c : Connection) (closer : Closer) : Connection :=
  if c.isClosed then c.noteClose (.ok ()) else { c with closing := .flagged closer }

/-- One step of whoever closes the connection (`close`). -/
def stepClosing (c : Connection) (e : ClosingEvent) : Option Connection :=
  match c.closing, e with
  | .flagged closer, .announce => some { c with closing := .announced closer }
  | .announced closer, .detach => some { c with closing := .detached closer }
  | .detached closer, .shutDown result =>
    let noted := c.noteClose (result.mapError .io)
    some { noted with
      closing := .settled closer result
      history := { noted.history with shutdowns := noted.history.shutdowns + 1 } }
  | _, _ => none

/-! ## The writer -/

/-- One step of the writer (`write_loop`). -/
def stepWriter (c : Connection) (e : WriterEvent) : Option Connection :=
  match c.writer, e with
  | .idle, .fetch =>
    match c.queue with
    | frame :: later => some { c with writer := .holding frame, queue := later }
    | [] => none
  | .idle, .runDry =>
    if c.queue.isEmpty && !c.closing.hasQueue && !c.isQueueHeld then
      some { c with writer := .leaving (.ok ()) }
    else none
  | .holding frame, .look =>
    some { c with writer := if c.isClosed then .leaving (.ok ()) else .writing frame 0 }
  | .writing frame done, .accept n =>
    if 0 < n ∧ done + n ≤ frame.length then
      some { c with writer := .writing frame (done + n), wire := c.wire ++ (frame.drop done).take n }
    else none
  | .writing frame done, .interrupted => if done < frame.length then some c else none
  | .writing frame done, .fail cause =>
    if done < frame.length ∧ cause.kind ≠ .interrupted then some { c with writer := .failed cause }
    else none
  | .writing frame done, .flush =>
    if done = frame.length then some { c with writer := .idle } else none
  | .writing frame done, .failFlush cause =>
    if done = frame.length then some { c with writer := .failed cause } else none
  | .failed cause, .lookAfterFailure =>
    let result := if c.isClosed then .ok () else .error (.frame (.io cause))
    some { c with writer := .leaving result }
  | .leaving result, .close =>
    let begun := c.beginClose .writer
    some { begun with writer := if c.isClosed then .ended result else .closing result }
  | .closing result, .leave =>
    if c.closing.isOver then some { c with writer := .ended result } else none
  | _, _ => none

/-! ## The reader -/

/-- What the end of the frames comes to. Neither a closed connection nor a peer that is gone makes
it a failure. -/
def verdict (c : Connection) (cause : FrameError) : Except ConnectionError Unit :=
  if c.isClosed || cause.isDisconnect then .ok () else .error (.frame cause)

/-- A frame comes in. -/
def arrive (c : Connection) (message : Message) : Connection :=
  let unregistered := c.unregister message.id
  { unregistered with
    reader := .claimed ⟨c.history.arrivals.length, message⟩ (c.waiting? message.id)
    history := { c.history with arrivals := c.history.arrivals ++ [message] } }

/-- A frame for which nothing waited (`dispatch`): it is late, or nobody asked for it. -/
def dispatchUnclaimed (c : Connection) (a : Arrival) : Connection :=
  if a.message.id ∈ c.expired then
    { c with
      reader := .reading
      expired := c.expired.erase a.message.id
      history := { c.history with late := c.history.late ++ [a] } }
  else
    { c with
      reader := if c.hasCallback then .calling a else .reading
      history := { c.history with unasked := c.history.unasked ++ [a] } }

/-- One step of the reader (`serve`). -/
def stepReader (c : Connection) (e : ReaderEvent) : Option Connection :=
  match c.reader, e with
  | .notStarted, .start withCallback =>
    some { c with reader := .reading, hasCallback := withCallback }
  | .reading, .arrive message => some (c.arrive message)
  | .claimed a (some t), .dispatch =>
    let filled := c.fill t a
    some { filled with reader := .reading }
  | .claimed a none, .dispatch => some (c.dispatchUnclaimed a)
  | .calling _, .comeBack => some { c with reader := .reading }
  | .calling _, .panic cause => some { c with reader := .panicked cause }
  | .reading, .stop cause => some { c with reader := .leaving (c.verdict cause) }
  | .leaving result, .close =>
    let begun := c.beginClose .reader
    some { begun with reader := if c.isClosed then .ended result else .closing result }
  | .closing result, .leave =>
    if c.closing.isOver then some { c with reader := .ended result } else none
  | _, _ => none

/-! ## All of them -/

def step (c : Connection) : ConnectionEvent → Option Connection
  | .send message => some (c.send message)
  | .request t e => (c.requests[t]?).bind fun r => c.stepRequest t r e
  | .write bytes => some { c with writes := c.writes ++ [⟨bytes, .entered⟩] }
  | .writing n e => (c.writes[n]?).bind fun w => c.stepWrite n w e
  | .close => some (c.beginClose .caller)
  | .closing e => c.stepClosing e
  | .writer e => c.stepWriter e
  | .reader e => c.stepReader e

/-- All interleavings of what can happen on a connection. -/
def machine (options : ConnectionOptions) : Machine Connection ConnectionEvent where
  start := new options
  step := step

/-- The connection after some events, if each is possible where it happens. -/
def run (c : Connection) (events : List ConnectionEvent) : Option Connection :=
  (machine c.options).run c events

end Connection

end ClusterLink
