import ClusterLink.Connection.Basic
import ClusterLink.Payload.Decoder
/-!
# Opening connections

A socket becomes a connection once memory is set aside for its queue and its writer runs on a thread
of its own. Either can go wrong, and by then the two ends of the socket may have agreed already.
-/

namespace ClusterLink

/-- The memory that the queue needs for each frame that may wait in it, before the frame's bytes. -/
def queueCell : Nat := 32

/-- Why a socket did not become a connection. -/
inductive OpeningFailure where
  /-- The writer's thread could not be started. -/
  | failed (cause : IoError)
  | panicked (cause : Panic)
  deriving DecidableEq, Repr

/-- Opens a connection on a socket whose ends have agreed (`from_parts`). A queue that no memory can
hold aborts the caller; `thread` says what became of starting the writer. -/
def Connection.launch (options : ConnectionOptions) (thread : Except IoError Unit) :
    Except OpeningFailure Connection :=
  if memoryLimit ≤ (new options).capacity * queueCell then
    .error (.panicked (.text DecodeError.capacityOverflow.text))
  else match thread with
    | .error cause => .error (.failed cause)
    | .ok () => .ok (.new options)

end ClusterLink
