import ClusterLink.Client.Pool
import ClusterLink.Machine
/-!
# Lending and dialing at the same time

A `Client` is a pool together with all connections ever dialed for it and the allocations that are
under way. Any number of callers may allocate, free and close, connections may be closed at any
time, and a dial may come to anything; a run of `Client.machine` is any interleaving of these.

Connecting dials the first connections while nobody else has the client yet.
-/

namespace ClusterLink

/-- How far the dialing of some connections has come: how many are still to be dialed, and those
that were. A dial that fails leaves nothing to be dialed. -/
structure Dialing where
  left : Nat
  fresh : List ConnectionId := []
  deriving DecidableEq, Repr

/-- How far an allocation has come. -/
inductive AllocationStage where
  | dialing (planned : Nat) (dialing : Dialing)
  | ended (result : Except ClientError ConnectionId)
  deriving Repr

/-- A pool, its connections and its users (`MessageClient`). -/
structure Client where
  config : ClientConfig
  pool : ConnectionPool := {}
  /-- The first dials, until the client is handed out. -/
  connecting : Option Dialing
  allocations : List AllocationStage := []
  /-- How many connections were ever dialed. They are numbered in that order. -/
  dialed : Nat := 0
  /-- The connections that are closed. -/
  closed : List ConnectionId := []
  /-- The loans that were given and not paid back. -/
  loans : List ConnectionId := []
  deriving Repr

/-- A step of a user of the pool, or of a connection. -/
inductive ClientEvent where
  /-- One of the first dials ends. -/
  | warm (success : Bool)
  /-- The first dials are over. -/
  | ready
  | plan
  /-- A dial of an allocation ends. -/
  | dial (allocation : Nat) (success : Bool)
  | commit (allocation : Nat)
  | free (connection : ConnectionId)
  | close
  /-- A connection is closed by someone else. -/
  | drop (connection : ConnectionId)
  deriving DecidableEq, Repr

namespace Dialing

/-- A dial ends; a success gives the connection with the next number. -/
def next (d : Dialing) (dialed : Nat) (success : Bool) : Dialing :=
  if success then ⟨d.left - 1, d.fresh ++ [⟨dialed⟩]⟩ else { d with left := 0 }

end Dialing

namespace Client

/-- A client that has not dialed yet. -/
def new (config : ClientConfig) : Client where
  config := config.normalized
  connecting := some { left := config.normalized.minConnections }

def isClosed (c : Client) (id : ConnectionId) : Bool := c.closed.contains id

/-- Closes some connections. -/
def closeAll (c : Client) (ids : List ConnectionId) : Client :=
  { c with closed := c.closed ++ ids.filter fun id => !c.closed.contains id }

def setAllocation (c : Client) (i : Nat) (stage : AllocationStage) : Client :=
  { c with allocations := c.allocations.set i stage }

/-- Ends an allocation. -/
def commit (c : Client) (i planned : Nat) (fresh : List ConnectionId) : Client :=
  let (result, pool) := c.pool.commit planned fresh
  let ended := { c.setAllocation i (.ended result) with pool }
  match result with
  | .ok id => { ended with loans := c.loans ++ [id] }
  | .error .closed => ended.closeAll fresh
  | .error _ => ended

def step (c : Client) (e : ClientEvent) : Option Client :=
  match c.connecting, e with
  | some d, .warm success =>
    if d.left = 0 then none
    else some { c with
      connecting := some (d.next c.dialed success)
      dialed := c.dialed + success.toNat }
  | some d, .ready =>
    if d.left = 0 then some { c with connecting := none, pool := c.pool.add d.fresh } else none
  | _, .drop id => if id.number < c.dialed then some (c.closeAll [id]) else none
  | none, .plan =>
    match c.pool.plan c.isClosed c.config.minConnections c.config.maxConnections with
    | .error e => some { c with allocations := c.allocations ++ [.ended (.error e)] }
    | .ok (n, pool) =>
      some { c with pool, allocations := c.allocations ++ [.dialing n { left := n }] }
  | none, .dial i success =>
    match c.allocations[i]? with
    | some (.dialing n d) =>
      if d.left = 0 then none
      else
        let dialing := c.setAllocation i (.dialing n (d.next c.dialed success))
        some { dialing with dialed := c.dialed + success.toNat }
    | _ => none
  | none, .commit i =>
    match c.allocations[i]? with
    | some (.dialing n d) => if d.left = 0 then some (c.commit i n d.fresh) else none
    | _ => none
  | none, .free id =>
    let (extras, pool) := c.pool.free c.isClosed c.config.minConnections id
    some ({ c with pool, loans := c.loans.erase id }.closeAll extras)
  | none, .close =>
    let (all, pool) := c.pool.close
    some ({ c with pool }.closeAll all)
  | _, _ => none

/-- All interleavings of a client's users. -/
def machine (config : ClientConfig) : Machine Client ClientEvent where
  start := new config
  step := step

/-! ## Whole calls -/

/-- Whether the dials of an allocation are still under way. -/
def isDialing (c : Client) (i : Nat) : Bool :=
  match c.allocations[i]? with
  | some (.dialing _ d) => d.left != 0
  | _ => false

/-- What an allocation came to. -/
def result? (c : Client) (i : Nat) : Option (Except ClientError ConnectionId) :=
  match c.allocations[i]? with
  | some (.ended result) => some result
  | _ => none

/-- What the dials of an allocation come to, in turn. After the last outcome a dial fails. -/
def dialAll (c : Client) (i : Nat) : List Bool → Client
  | [] => if c.isDialing i then (c.step (.dial i false)).getD c else c
  | outcome :: later =>
    if c.isDialing i then dialAll ((c.step (.dial i outcome)).getD c) i later else c

/-- Borrows a connection, with nobody else in between (`allocate`). -/
def allocate (outcomes : List Bool) (c : Client) : Except ClientError ConnectionId × Client :=
  let i := c.allocations.length
  let planned := (c.step .plan).getD c
  let dialed := planned.dialAll i outcomes
  let ended := (dialed.step (.commit i)).getD dialed
  ((ended.result? i).getD (.error .noAvailableConnections), ended)

/-- Pays a loan back (`free`). -/
def free (id : ConnectionId) (c : Client) : Client := (c.step (.free id)).getD c

/-- Closes the pool and its connections (`close`). -/
def close (c : Client) : Client := (c.step .close).getD c

/-- Some connections are closed by others. -/
def lose (lost : List ConnectionId) (c : Client) : Client :=
  lost.foldl (fun d id => (d.step (.drop id)).getD d) c

/-- Borrows a connection, uses it and pays it back. The use tells what it came to, and which
connections were closed by others in its course. -/
def use {α : Type} (outcomes : List Bool)
    (exchange : ConnectionId → Except ConnectionError α × List ConnectionId) (c : Client) :
    Except ClientError α × Client :=
  match c.allocate outcomes with
  | (.error e, d) => (.error e, d)
  | (.ok id, d) =>
    let (result, lost) := exchange id
    (result.mapError .connection, (d.lose lost).free id)

/-- What the first dials come to, in turn (`connect`); then the client is handed out. -/
def connect (config : ClientConfig) (outcomes : List Bool) : Client :=
  let warmed := (outcomes ++ [false]).foldl (fun c o => (c.step (.warm o)).getD c) (new config)
  (warmed.step .ready).getD warmed

end Client

end ClusterLink
