import ClusterLink.Frame.Reader
import ClusterLink.Frame.Writer
/-!
# Sockets

A socket has a direction that frames are read from and one that they are written to.
-/

namespace ClusterLink

/-- Both directions of a connected socket. -/
structure Socket where
  source : Frame.Source
  sink : Frame.Sink := {}
  deriving DecidableEq, Repr

namespace Socket

/-- Writes a message and flushes. -/
def write (s : Socket) (m : Message) : Except FrameError Unit × Socket :=
  let (result, sink) := s.sink.writeMessage m
  (result, { s with sink })

/-- Reads one frame. -/
def read (s : Socket) : Except FrameError Message × Socket :=
  let (result, source) := Frame.read s.source
  (result, { s with source })

end Socket

end ClusterLink
