import ClusterLink.Connection.Calls
import ClusterLink.Frame.Reader
/-!
# The read loop

The reader takes frames off a source one by one, each of which goes to the request that waits for it,
is dropped as late, or is handed to the callback. When there is no further frame, whatever the
reason, the connection is closed. A callback that is given up ends the loop without that.
-/

namespace ClusterLink

/-- What a callback does with a frame. -/
structure Reaction where
  /-- What it writes back. -/
  replies : List Message := []
  /-- Whether it closes the connection then. -/
  closes : Bool := false
  /-- What it leaves behind if it is given up in the end. -/
  panic : Option Panic := none
  deriving DecidableEq, Repr

/-- Receives the frames that nobody waits for (`Callback`). -/
abbrev Callback := Message → Reaction

namespace Connection

/-- Writes frames one after the other, each as soon as there is room. -/
def pushAll (c : Connection) (messages : List Message) : Connection :=
  messages.foldl (fun c m => (c.push m.encode).2) c

/-- The callback has its way with the connection. -/
def react (c : Connection) (r : Reaction) : Connection :=
  let replied := c.pushAll r.replies
  let after := if r.closes then replied.close else replied
  let last : ReaderEvent := match r.panic with
    | some cause => .panic cause
    | none => .comeBack
  (after.step (.reader last)).getD after

/-- A frame comes in and is put where it belongs (`dispatch`). -/
def receive (callback : Option Callback) (c : Connection) (m : Message) : Connection :=
  match c.run [.reader (.arrive m), .reader .dispatch] with
  | none => c
  | some d =>
    match d.reader, callback with
    | .calling a, some f => (d.react (f a.message)).settle
    | _, _ => d

/-- No further frame comes: the connection is closed. -/
def endReading (c : Connection) (cause : FrameError) : Connection :=
  ((c.step (.reader (.stop cause))).getD c).settle

/-- Starts reading (`spawn_reader`). -/
def startReading (c : Connection) (withCallback : Bool) : Connection :=
  (c.step (.reader (.start withCallback))).getD c

/-- Reads and dispatches frames until there is no further one or the callback is given up. -/
def serveFrom (callback : Option Callback) (c : Connection) (s : Frame.Source) :
    Connection × Frame.Source :=
  match _h : Frame.read s with
  | (.error e, t) => (c.endReading e, t)
  | (.ok m, t) =>
    let d := c.receive callback m
    if d.reader.isOver then (d, t) else serveFrom callback d t
termination_by s.weight
decreasing_by exact Frame.weight_read_ok _h

/-- Runs the read loop to its end (`serve`). -/
def serve (callback : Option Callback) (c : Connection) (s : Frame.Source) :
    Connection × Frame.Source :=
  (c.startReading callback.isSome).serveFrom callback s

end Connection

end ClusterLink
