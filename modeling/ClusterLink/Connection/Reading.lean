import ClusterLink.Connection.ReadLoop
/-!
# A reader at its source

The reader of a connection takes its frames off one source, while callers, the writer and whoever
closes the connection do as they please. A run of `ReadLoop.machine` is any interleaving of them.
`Connection.serve` is one such run: the one in which nobody makes a step of their own accord while
the reader can make one.
-/

namespace ClusterLink

/-- What an event takes off the socket: a frame, or the reason why there is none. -/
def ConnectionEvent.taken? : ConnectionEvent → Option (Except FrameError Message)
  | .reader (.arrive m) => some (.ok m)
  | .reader (.stop cause) => some (.error cause)
  | _ => none

/-- What the reader does with what it took off the socket. -/
def ReaderEvent.ofTaken : Except FrameError Message → ReaderEvent
  | .ok m => .arrive m
  | .error cause => .stop cause

/-- A connection and what its reader reads. -/
structure ReadLoop where
  connection : Connection
  source : Frame.Source
  deriving Repr

/-- A step of a connection and of what its reader reads. -/
inductive ReadLoopEvent where
  /-- The reader takes a frame off its source, or finds out why there is none. -/
  | read
  /-- A step of anybody that takes nothing off the source. -/
  | connection (event : ConnectionEvent)
  deriving Repr

namespace ReadLoop

def step (l : ReadLoop) : ReadLoopEvent → Option ReadLoop
  | .read =>
    let (taken, source) := Frame.read l.source
    (l.connection.step (.reader (.ofTaken taken))).map fun connection => { connection, source }
  | .connection e =>
    if e.taken?.isSome then none
    else (l.connection.step e).map fun connection => { l with connection }

/-- All interleavings of a reader at its source and everybody else. -/
def machine (start : ReadLoop) : Machine ReadLoop ReadLoopEvent where
  start := start
  step := step

/-- What is left after some events, if each is possible where it happens. -/
def run (l : ReadLoop) (events : List ReadLoopEvent) : Option ReadLoop :=
  (machine l).run l events

end ReadLoop

end ClusterLink
