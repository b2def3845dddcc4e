import ClusterLink.Text.Duration
/-!
# Settings of a connection
-/

namespace ClusterLink

/-- How long a request waits for its response, unless set otherwise (`DEFAULT_TIMEOUT`). -/
def defaultTimeout : Duration := .ofSeconds 5

/-- How many frames may wait for the writer, unless set otherwise (`DEFAULT_QUEUE_CAPACITY`). -/
def defaultQueueCapacity : Nat := 256

/-- Settings of one connection (`ConnectionOptions`). -/
structure ConnectionOptions where
  timeout : Duration := defaultTimeout
  queueCapacity : Nat := defaultQueueCapacity
  deriving DecidableEq, Repr

namespace ConnectionOptions

def withTimeout (o : ConnectionOptions) (timeout : Duration) : ConnectionOptions :=
  { o with timeout }

/-- The queue holds at least one frame. -/
def withQueueCapacity (o : ConnectionOptions) (n : Nat) : ConnectionOptions :=
  { o with queueCapacity := max n 1 }

end ConnectionOptions

end ClusterLink
