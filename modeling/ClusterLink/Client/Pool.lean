import ClusterLink.Client.Config
import ClusterLink.Client.Error
import ClusterLink.Registry.Node
/-!
# The pool of a client

A client keeps connections to one server and lends them out in turn, an idle one if there is any. It
dials more when too few are left or all are on loan, never more than its upper bound together with
the dials under way, and closes idle extras, the newest first, as soon as a loan comes back.

The functions here are what is done while the pool is locked. Between `plan` and `commit` the dials
of an allocation are under way and the pool is free for others.

Results:
* `ConnectionPool.length_dropIdle`: evicting gives up one entry for each connection it closes.
-/

namespace ClusterLink

/-- A connection of a pool and how often it is on loan (`Entry`). -/
structure PoolEntry where
  connection : ConnectionId
  loans : Nat := 0
  deriving DecidableEq, Repr

def PoolEntry.isIdle (e : PoolEntry) : Bool := e.loans == 0

/-- Connections and who is next (`Pool`). -/
structure ConnectionPool where
  /-- The connections, the oldest first. -/
  entries : List PoolEntry := []
  /-- The place after the one that was lent last. -/
  cursor : Nat := 0
  isClosed : Bool := false
  /-- How many dials are under way. -/
  dialing : Nat := 0
  deriving DecidableEq, Repr

namespace ConnectionPool

def size (p : ConnectionPool) : Nat := p.entries.length

/-- Drops the connections that are closed (`prune`). -/
def prune (closed : ConnectionId → Bool) (p : ConnectionPool) : ConnectionPool :=
  { p with entries := p.entries.filter fun e => !closed e.connection }

/-- Whether some connection is not on loan (`has_idle`). -/
def hasIdle (p : ConnectionPool) : Bool := p.entries.any (·.isIdle)

/-- How many connections to dial: as many as are missing, or one if all are on loan and there may be
more. -/
def wanted (least most : Nat) (p : ConnectionPool) : Nat :=
  let size := p.size + p.dialing
  if least - size = 0 ∧ p.hasIdle = false ∧ size < most then 1 else least - size

/-- Starts an allocation: closed connections are dropped, and the dials to come are noted. -/
def plan (closed : ConnectionId → Bool) (least most : Nat) (p : ConnectionPool) :
    Except ClientError (Nat × ConnectionPool) :=
  if p.isClosed then .error .closed
  else
    let pruned := p.prune closed
    let n := pruned.wanted least most
    .ok (n, { pruned with dialing := pruned.dialing + n })

/-- The places in the order in which they are looked at: from the cursor on, and round. -/
def turn (p : ConnectionPool) : List Nat :=
  (List.range p.size).map fun offset => (p.cursor % p.size + offset) % p.size

/-- Whether the entry in a place is idle. -/
def isIdleAt (p : ConnectionPool) (i : Nat) : Bool := (p.entries[i]?).any (·.isIdle)

/-- The place to lend from: the next idle one, or the next one if none is idle. -/
def nextIndex (p : ConnectionPool) : Nat := (p.turn.find? p.isIdleAt).getD (p.cursor % p.size)

/-- Lends a connection (`lend`). -/
def lend (p : ConnectionPool) : Option (ConnectionId × ConnectionPool) :=
  let i := p.nextIndex
  match p.entries[i]? with
  | none => none
  | some e =>
    some (e.connection,
      { p with cursor := i + 1, entries := p.entries.set i { e with loans := e.loans + 1 } })

/-- Adds connections that were just dialed. -/
def add (p : ConnectionPool) (fresh : List ConnectionId) : ConnectionPool :=
  { p with entries := p.entries ++ fresh.map fun c => { connection := c } }

/-- Ends an allocation that had planned `n` dials, with the connections that came of them. A pool
that was closed meanwhile keeps none of them. -/
def commit (n : Nat) (fresh : List ConnectionId) (p : ConnectionPool) :
    Except ClientError ConnectionId × ConnectionPool :=
  let settled := { p with dialing := p.dialing - n }
  if p.isClosed then (.error .closed, settled)
  else
    let grown := settled.add fresh
    match grown.lend with
    | some (c, lent) => (.ok c, lent)
    | none => (.error .noAvailableConnections, grown)

/-- Takes up to `extras` idle entries out of a list: the connections taken and the entries left. -/
def dropIdle : (extras : Nat) → List PoolEntry → List ConnectionId × List PoolEntry
  | 0, entries => ([], entries)
  | _, [] => ([], [])
  | extras + 1, e :: rest =>
    if e.isIdle then
      let (taken, left) := dropIdle extras rest
      (e.connection :: taken, left)
    else
      let (taken, left) := dropIdle (extras + 1) rest
      (taken, e :: left)

/-- Takes idle entries out, the newest first, until `least` entries are left or none is idle
(`evict`). -/
def evict (least : Nat) (p : ConnectionPool) : List ConnectionId × ConnectionPool :=
  let (taken, left) := dropIdle (p.size - least) p.entries.reverse
  (taken, { p with entries := left.reverse })

/-- Takes a loan back; one that was not given out changes nothing. -/
def payBack (c : ConnectionId) (entries : List PoolEntry) : List PoolEntry :=
  match entries with
  | [] => []
  | e :: rest =>
    if e.connection = c then { e with loans := e.loans - 1 } :: rest else e :: payBack c rest

/-- Ends a loan. Tells which idle extras are to be closed. -/
def free (closed : ConnectionId → Bool) (least : Nat) (c : ConnectionId) (p : ConnectionPool) :
    List ConnectionId × ConnectionPool :=
  ({ p with entries := payBack c p.entries }.prune closed).evict least

/-- Closes the pool. Tells which connections are to be closed. -/
def close (p : ConnectionPool) : List ConnectionId × ConnectionPool :=
  if p.isClosed then ([], p)
  else (p.entries.map (·.connection), { p with isClosed := true, entries := [] })

theorem length_dropIdle (extras : Nat) (entries : List PoolEntry) :
    (dropIdle extras entries).1.length + (dropIdle extras entries).2.length = entries.length := by
  fun_induction dropIdle extras entries with
  | case1 => simp
  | case2 => simp
  | case3 extras e rest hidle taken left hrec ih =>
    rw [hrec] at ih
    simp only [List.length_cons] at ih ⊢
    omega
  | case4 extras e rest hidle taken left hrec ih =>
    rw [hrec] at ih
    simp only [List.length_cons] at ih ⊢
    omega

end ConnectionPool

end ClusterLink
