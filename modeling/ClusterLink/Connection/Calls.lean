import ClusterLink.Connection.Step
/-!
# Whole calls on a connection

A caller that nobody interrupts goes on as long as it can: until it has its result, or has to wait
for someone else. The same holds of the writer, of the one who closes and of the reader once it reads
no more. What is defined here are such stretches of steps, each of them a run of
`Connection.machine`.
-/

namespace ClusterLink

/-- What the caller of a request does next, if it need not wait. -/
def Request.next? (r : Request) : Option RequestEvent :=
  match r.stage, r.slot with
  | .entered, _ => some .register
  | .registered, _ => some .reach
  | .holding, _ => some .queue
  | .refused, _ => some .withdraw
  | .waiting, .vacant => none
  | .waiting, _ => some .take
  | .overdue, _ => some .giveUp
  | .missed, _ => some .lookAgain
  | .ended _, _ => none

/-- What the caller of a write does next. -/
def Write.next? (w : Write) : Option WriteEvent :=
  match w.stage with
  | .entered => some .reach
  | .holding => some .queue
  | .ended _ => none

/-- What the one who closes does next. The socket is shut down without trouble. -/
def Closing.next? : Closing → Option ClosingEvent
  | flagged _ => some .announce
  | announced _ => some .detach
  | detached _ => some (.shutDown (.ok ()))
  | _ => none

/-- What ends a pause of someone who waits. -/
inductive Wake where
  /-- Somebody has woken the one who waits, or nobody has. -/
  | woken
  /-- The deadline has passed. -/
  | timedOut
  deriving DecidableEq, Repr

/-- The first time that a clock cannot tell, in nanoseconds; it counts its seconds in 63 bits. -/
def clockLimit : Nat := 9223372036854775808 * 1000000000

namespace Connection

/-- What the writer does next on a socket that takes everything. -/
def nextOfWriter? (c : Connection) : Option WriterEvent :=
  match c.writer with
  | .idle =>
    if c.queue ≠ [] then some .fetch
    else if !c.closing.hasQueue && !c.isQueueHeld then some .runDry
    else none
  | .holding _ => some .look
  | .writing frame done => some (if done < frame.length then .accept (frame.length - done) else .flush)
  | .failed _ => some .lookAfterFailure
  | .leaving _ => some .close
  | .closing _ => if c.closing.isOver then some .leave else none
  | .ended _ => none

/-- What the reader does next once it reads no more. -/
def nextOfReader? (c : Connection) : Option ReaderEvent :=
  match c.reader with
  | .leaving _ => some .close
  | .closing _ => if c.closing.isOver then some .leave else none
  | _ => none

/-- A step of those who serve the connection, if they need not wait. -/
def next? (c : Connection) : Option ConnectionEvent :=
  (c.closing.next?.map .closing).or ((c.nextOfWriter?.map .writer).or (c.nextOfReader?.map .reader))

/-- At most `fuel` steps of those who serve the connection. -/
def serveSteps : (fuel : Nat) → Connection → Connection
  | 0, c => c
  | fuel + 1, c =>
    match c.next?.bind c.step with
    | some d => serveSteps fuel d
    | none => c

/-- Those who serve the connection go on until all of them wait. A frame takes the writer four
steps, and an end takes everyone together fewer than sixteen. -/
def settle (c : Connection) : Connection := serveSteps (4 * c.queue.length + 20) c

/-- At most `fuel` steps of the caller of a request. -/
def requestSteps : (fuel : Nat) → Connection → Ticket → Connection
  | 0, c, _ => c
  | fuel + 1, c, t =>
    match (c.requests[t]?).bind fun r => r.next?.bind (c.stepRequest t r) with
    | some d => requestSteps fuel d t
    | none => c

/-- The caller of a request goes on until it has its result or has to wait. There are never more
than three steps to that. -/
def attend (c : Connection) (t : Ticket) : Connection := requestSteps 4 c t

/-- Makes a request, up to its result or to the waiting for a response (`send`). -/
def request (c : Connection) (message : Message) : Ticket × Connection :=
  let t := c.requests.length
  (t, (c.send message).attend t)

/-- The time of a request that waits is up. -/
def timeOut (c : Connection) (t : Ticket) : Connection :=
  match c.step (.request t .timeOut) with
  | some d => d.attend t
  | none => c

/-- Queues a frame that asks for no response, if there is room for it or nothing to wait for. -/
def write (c : Connection) (bytes : Bytes) : Option (Except ConnectionError Nat × Connection) := do
  let n := c.writes.length
  let entered ← c.step (.write bytes)
  let reached ← entered.step (.writing n .reach)
  let early := (reached.writes[n]?).bind Write.result?
  match early with
  | some result => return (result, reached)
  | none =>
    let queued ← reached.step (.writing n .queue)
    let result ← (queued.writes[n]?).bind Write.result?
    return (result, queued)

/-- Queues a frame as soon as there is room (`write`). -/
def push (c : Connection) (bytes : Bytes) : Except ConnectionError Nat × Connection :=
  (c.write bytes).getD ((c.settle.write bytes).getD (.error .closed, c))

/-- Closes the connection, and everyone comes to an end (`close`). -/
def close (c : Connection) : Connection := ((c.step .close).getD c).settle

/-- Looks at a connection until those who wait for its end were told or the deadline has passed, and
tells whether they were. Each pause between two looks is given by what ends it and by what has become
of the connection by then; there is no answer as long as one more pause is to end. -/
def awaitDone : Connection → List (Wake × Connection) → Option Bool
  | c, [] => if c.isDone then some true else none
  | c, (wake, d) :: later =>
    if c.isDone then some true
    else match wake with
      | .woken => awaitDone d later
      | .timedOut => some d.isDone

/-- Waits for the end of a connection, but not longer than some time (`wait_closed`). A deadline that
the clock cannot tell is given up on. -/
def waitClosed (c : Connection) (now timeout : Duration) (pauses : List (Wake × Connection)) :
    Except Panic (Option Bool) :=
  if now.nanos + timeout.nanos < clockLimit then .ok (c.awaitDone pauses)
  else .error (.text "overflow when adding duration to instant")

/-- Why a read loop cannot be started. -/
def startError? (c : Connection) : Option ConnectionError :=
  match c.reader with
  | .notStarted => none
  | _ => some .alreadyListening

end Connection

end ClusterLink
