import ClusterLink.Machine
import ClusterLink.Workers.Panic
/-!
# Worker pools

A pool is a fixed number of workers and a queue of jobs. An idle worker takes the oldest job; a job
that is given up is logged and its worker goes on. Once the pool is shut, the workers run what is
queued and leave.

Jobs are told apart by the order in which they were submitted, so that "ran once" can be said of a
job even if two jobs are alike.
-/

namespace ClusterLink

/-- The pool takes no more jobs (`PoolClosed`). -/
structure PoolClosed where
  name : String
  deriving DecidableEq, Repr

def PoolClosed.message (e : PoolClosed) : String := "worker pool '" ++ e.name ++ "' is shut down"

/-- A job and its place in the order of submission. -/
structure Submitted (Job : Type) where
  number : Nat
  job : Job
  deriving DecidableEq, Repr

/-- What a worker is doing (`Worker`). -/
inductive Worker (Job : Type) where
  | idle
  | running (job : Submitted Job)
  | gone
  deriving DecidableEq, Repr

/-- Whether the worker has left. -/
def Worker.isGone {Job : Type} : Worker Job → Bool
  | gone => true
  | _ => false

/-- A job that was run, by which worker, and what stopped it if it was given up. -/
structure Completed (Job : Type) where
  submitted : Submitted Job
  worker : Nat
  panic : Option Panic
  deriving DecidableEq, Repr

/-- Workers and the jobs between them (`ThreadPool`). -/
structure WorkerPool (Job : Type) where
  name : String
  workers : List (Worker Job)
  accepting : Bool := true
  /-- The jobs no worker has taken yet, the oldest first. -/
  queue : List (Submitted Job) := []
  /-- How many jobs were ever submitted. -/
  submissions : Nat := 0
  /-- The jobs that were run, in the order in which they ended. -/
  completed : List (Completed Job) := []
  log : List LogLine := []
  deriving DecidableEq, Repr

namespace WorkerPool

variable {Job : Type}

/-- A pool of idle workers (`new`); there is at least one. -/
def new (name : String) (size : Nat) : WorkerPool Job :=
  { name, workers := List.replicate (max size 1) .idle }

def size (p : WorkerPool Job) : Nat := p.workers.length

/-- Whether any worker is there to take a job. -/
def isServed (p : WorkerPool Job) : Bool := p.workers.any (!·.isGone)

/-- Puts a job into the queue (`execute`). -/
def submit (p : WorkerPool Job) (job : Job) : Except PoolClosed (WorkerPool Job) :=
  if p.accepting && p.isServed then
    .ok { p with queue := p.queue ++ [⟨p.submissions, job⟩], submissions := p.submissions + 1 }
  else .error ⟨p.name⟩

/-- The line that reports a job that was given up. -/
def panicLine (name : String) (worker : Nat) (cause : Panic) : LogLine :=
  ⟨.error, "job on " ++ name ++ "-" ++ toString worker ++ " panicked: " ++ cause.message⟩

/-- The steps of a pool's users and workers. -/
inductive Event (Job : Type) where
  | submit (job : Job)
  /-- A worker takes the oldest job. -/
  | take (worker : Nat)
  /-- The job of a worker ends, by itself or given up. -/
  | finish (worker : Nat) (panic : Option Panic)
  /-- No more jobs are accepted. -/
  | shut
  /-- A worker finds the pool shut and the queue empty. -/
  | leave (worker : Nat)
  deriving DecidableEq, Repr

/-- Takes the oldest job. -/
def take? (p : WorkerPool Job) (worker : Nat) : Option (WorkerPool Job) :=
  match p.workers[worker]?, p.queue with
  | some .idle, next :: later =>
    some { p with workers := p.workers.set worker (.running next), queue := later }
  | _, _ => none

/-- Ends the job of a worker, which is idle then. -/
def finish? (p : WorkerPool Job) (worker : Nat) (panic : Option Panic) : Option (WorkerPool Job) :=
  match p.workers[worker]? with
  | some (.running submitted) =>
    some { p with
      workers := p.workers.set worker .idle
      completed := p.completed ++ [⟨submitted, worker, panic⟩]
      log := p.log ++ (panic.map (panicLine p.name worker)).toList }
  | _ => none

/-- Sends an idle worker home. -/
def leave? (p : WorkerPool Job) (worker : Nat) : Option (WorkerPool Job) :=
  match p.workers[worker]?, p.queue with
  | some .idle, [] =>
    if p.accepting then none else some { p with workers := p.workers.set worker .gone }
  | _, _ => none

def step (p : WorkerPool Job) : Event Job → Option (WorkerPool Job)
  | .submit job => (p.submit job).toOption
  | .take worker => p.take? worker
  | .finish worker panic => p.finish? worker panic
  | .shut => if p.accepting then some { p with accepting := false } else none
  | .leave worker => p.leave? worker

/-- All interleavings of a pool's users and workers. -/
def machine (name : String) (size : Nat) : Machine (WorkerPool Job) (Event Job) where
  start := new name size
  step := step

/-- Whether the pool was shut and all workers have left. -/
def isOver (p : WorkerPool Job) : Bool := !p.accepting && !p.isServed

/-! ## One schedule

The first worker runs all queued jobs. What is observed without regard to order and worker does not
depend on this choice. -/

/-- The first worker runs all queued jobs, each of which ends as `outcome` says. -/
def drainEvents (outcome : Job → Option Panic) (p : WorkerPool Job) : List (Event Job) :=
  p.queue.flatMap fun s => [.take 0, .finish 0 (outcome s.job)]

/-- The pool is shut, its queue is run and its workers leave. -/
def retireEvents (outcome : Job → Option Panic) (p : WorkerPool Job) : List (Event Job) :=
  .shut :: p.drainEvents outcome ++ (List.range p.size).map .leave

/-- The pool after some events. -/
def run (p : WorkerPool Job) (events : List (Event Job)) : Option (WorkerPool Job) :=
  (machine p.name p.size).run p events

/-- Shuts the pool and waits for its workers. -/
def retire? (outcome : Job → Option Panic) (p : WorkerPool Job) : Option (WorkerPool Job) :=
  p.run (p.retireEvents outcome)

end WorkerPool

end ClusterLink
