import ClusterLink.Client.Allocation
import ClusterLink.Proofs.Client.Lending
/-!
# The steps of a client

`Client.Step` says everything that one step can do to a client: which allocation it moves on, what
becomes of the pool's entries and of the dials that were noted, and which connections it closes. An
invariant of clients has to look at no more than that.

Results:
* `Client.step_cases`: every step of a client is one of these.
* `Client.config_reachable`: the settings of a client are the ones it was given, with sound bounds.
-/
namespace ClusterLink

/-- Settings that keep one connection at least and four at most. -/
def ClientConfig.sample : ClientConfig where
  server := "localhost:7400"
  secret := []
  nodeId := "node-1"

variable {closed : ConnectionId → Bool} {p : ConnectionPool} {least most : Nat}

theorem ConnectionPool.plan_of_open (h : p.isClosed = false) :
    p.plan closed least most = .ok ((p.prune closed).wanted least most,
      { p.prune closed with dialing := p.dialing + (p.prune closed).wanted least most }) :=
  if_neg (by simp [h])

theorem ConnectionPool.plan_eq_ok {q : ConnectionPool} {n : Nat}
    (h : p.plan closed least most = .ok (n, q)) :
    p.isClosed = false ∧ n = (p.prune closed).wanted least most ∧
      q = { p.prune closed with dialing := p.dialing + n } := by
  unfold plan at h
  split at h
  · cases h
  · next hp =>
    cases h
    exact ⟨eq_false_of_ne_true hp, rfl, rfl⟩

theorem ConnectionPool.close_of_closed (h : p.isClosed = true) : p.close = ([], p) := if_pos h

theorem ConnectionPool.close_of_open (h : p.isClosed = false) :
    p.close = (p.connections, { p with isClosed := true, entries := [] }) :=
  if_neg (by simp [h])

namespace Dialing

theorem fresh_next (w : Dialing) (dialed : Nat) (success : Bool) :
    (w.next dialed success).fresh = w.fresh ++ if success then [⟨dialed⟩] else [] := by
  cases success <;> simp [next]

/-- A dial that ends uses up one of those that were left. -/
theorem length_next (w : Dialing) (dialed : Nat) (success : Bool) (hleft : w.left ≠ 0) :
    (w.next dialed success).left + (w.next dialed success).fresh.length ≤
      w.left + w.fresh.length := by
  cases success with
  | false => simp only [next, Bool.false_eq_true, if_false]; omega
  | true => simp only [next, if_true, List.length_append, List.length_singleton]; omega

end Dialing

namespace Client

variable {c d : Client} {e : ClientEvent}

/-- What one step does to a client. -/
inductive Step (c : Client) : ClientEvent → Client → Prop
  | warm {w : Dialing} {success : Bool} (hc : c.connecting = some w) (hleft : w.left ≠ 0) :
    Step c (.warm success) { c with
      connecting := some (w.next c.dialed success)
      dialed := c.dialed + success.toNat }
  | ready {w : Dialing} (hc : c.connecting = some w) (hleft : w.left = 0) :
    Step c .ready { c with connecting := none, pool := c.pool.add w.fresh }
  | drop {id : ConnectionId} (hid : id.number < c.dialed) : Step c (.drop id) (c.closeAll [id])
  /-- The pool is closed, and the allocation ends at once. -/
  | refuse (hc : c.connecting = none) (hp : c.pool.isClosed = true) :
    Step c .plan { c with allocations := c.allocations ++ [.ended (.error .closed)] }
  | plan {n : Nat} (hc : c.connecting = none) (hp : c.pool.isClosed = false)
      (hn : n = (c.pool.prune c.isClosed).wanted c.config.minConnections c.config.maxConnections) :
    Step c .plan { c with
      pool := { c.pool.prune c.isClosed with dialing := c.pool.dialing + n }
      allocations := c.allocations ++ [.dialing n { left := n }] }
  | dial {first later : List AllocationStage} {n : Nat} {w : Dialing} {success : Bool}
      (hc : c.connecting = none) (ha : c.allocations = first ++ .dialing n w :: later)
      (hleft : w.left ≠ 0) :
    Step c (.dial first.length success) { c with
      allocations := first ++ .dialing n (w.next c.dialed success) :: later
      dialed := c.dialed + success.toNat }
  /-- The pool was closed meanwhile, and the new connections are closed too. -/
  | reject {first later : List AllocationStage} {n : Nat} {w : Dialing}
      (hc : c.connecting = none) (ha : c.allocations = first ++ .dialing n w :: later)
      (hleft : w.left = 0) (hp : c.pool.isClosed = true) :
    Step c (.commit first.length) ({ c with
      allocations := first ++ AllocationStage.ended (.error .closed) :: later
      pool := { c.pool with dialing := c.pool.dialing - n } }.closeAll w.fresh)
  /-- The pool has nothing and got nothing. -/
  | lack {first later : List AllocationStage} {n : Nat} {w : Dialing}
      (hc : c.connecting = none) (ha : c.allocations = first ++ .dialing n w :: later)
      (hleft : w.left = 0) (hp : c.pool.isClosed = false) (hentries : c.pool.entries = [])
      (hfresh : w.fresh = []) :
    Step c (.commit first.length) { c with
      allocations := first ++ AllocationStage.ended (.error .noAvailableConnections) :: later
      pool := { c.pool with dialing := c.pool.dialing - n } }
  | lend {first later : List AllocationStage} {n : Nat} {w : Dialing}
      {before after : List PoolEntry} {x : PoolEntry} (hc : c.connecting = none)
      (ha : c.allocations = first ++ .dialing n w :: later) (hleft : w.left = 0)
      (hp : c.pool.isClosed = false)
      (hentries : (c.pool.add w.fresh).entries = before ++ x :: after)
      (hidle : (c.pool.add w.fresh).hasIdle = true → x.isIdle = true) :
    Step c (.commit first.length) { c with
      allocations := first ++ AllocationStage.ended (.ok x.connection) :: later
      pool := { c.pool with
        dialing := c.pool.dialing - n
        cursor := before.length + 1
        entries := before ++ { x with loans := x.loans + 1 } :: after }
      loans := c.loans ++ [x.connection] }
  | free {id : ConnectionId} (hc : c.connecting = none) :
    Step c (.free id) ({ c with
      pool := (c.pool.free c.isClosed c.config.minConnections id).2
      loans := c.loans.erase id }.closeAll (c.pool.free c.isClosed c.config.minConnections id).1)
  | close (hc : c.connecting = none) (hp : c.pool.isClosed = false) :
    Step c .close
      ({ c with pool := { c.pool with isClosed := true, entries := [] } }.closeAll c.pool.connections)
  | closeAgain (hc : c.connecting = none) (hp : c.pool.isClosed = true) : Step c .close c

theorem closeAll_nil (c : Client) : c.closeAll [] = c := by simp [closeAll]

@[simp] theorem pool_closeAll (ids : List ConnectionId) : (c.closeAll ids).pool = c.pool := rfl

@[simp] theorem connecting_closeAll (ids : List ConnectionId) :
    (c.closeAll ids).connecting = c.connecting := rfl

@[simp] theorem allocations_closeAll (ids : List ConnectionId) :
    (c.closeAll ids).allocations = c.allocations := rfl

@[simp] theorem loans_closeAll (ids : List ConnectionId) : (c.closeAll ids).loans = c.loans := rfl

/-- An allocation in the list of all, and the list with another stage in its place. -/
theorem split_allocations {i : Nat} {a : AllocationStage} (h : c.allocations[i]? = some a) :
    ∃ first later, c.allocations = first ++ a :: later ∧ first.length = i ∧
      ∀ stage, c.setAllocation i stage = { c with allocations := first ++ stage :: later } := by
  obtain ⟨hi, rfl⟩ := List.getElem?_eq_some_iff.1 h
  refine ⟨c.allocations.take i, c.allocations.drop (i + 1), ?_, ?_, fun stage => ?_⟩
  · rw [← List.drop_eq_getElem_cons hi, List.take_append_drop]
  · rw [List.length_take, Nat.min_eq_left (Nat.le_of_lt hi)]
  · rw [setAllocation, List.set_eq_take_append_cons_drop, if_pos hi]

theorem commit_step {first later : List AllocationStage} {n : Nat} {w : Dialing}
    (hc : c.connecting = none) (ha : c.allocations = first ++ .dialing n w :: later)
    (hleft : w.left = 0) (hset : ∀ stage, c.setAllocation first.length stage =
      { c with allocations := first ++ stage :: later }) :
    c.Step (.commit first.length) (c.commit first.length n w.fresh) := by
  rcases ConnectionPool.commit_cases n w.fresh c.pool with ⟨hp, h⟩ | ⟨hp, hentries, hfresh, h⟩ |
    ⟨hp, before, x, after, hentries, hidle, h⟩
  · simp only [commit, h, hset]
    exact .reject hc ha hleft hp
  · simp only [commit, h, hset]
    exact .lack hc ha hleft hp hentries hfresh
  · simp only [commit, h, hset]
    exact .lend hc ha hleft hp hentries hidle

/-- While the first connections are dialed, nobody else can do anything. -/
theorem step_cases_of_connecting {w : Dialing} (hc : c.connecting = some w)
    (h : c.step e = some d) : c.Step e d := by
  cases e with
  | warm success =>
    simp only [step, hc] at h
    split at h
    · cases h
    · next hleft =>
      cases h
      exact .warm hc hleft
  | ready =>
    simp only [step, hc] at h
    split at h
    · next hleft =>
      cases h
      exact .ready hc hleft
    · cases h
  | drop id =>
    simp only [step] at h
    split at h
    · next hid =>
      cases h
      exact .drop hid
    · cases h
  | _ => simp [step, hc] at h

/-- **What a step does.** -/
theorem step_cases (h : c.step e = some d) : c.Step e d := by
  cases hc : c.connecting with
  | some w => exact step_cases_of_connecting hc h
  | none =>
    cases e with
    | warm success => simp [step, hc] at h
    | ready => simp [step, hc] at h
    | drop id =>
      simp only [step] at h
      split at h
      · next hid =>
        cases h
        exact .drop hid
      · cases h
    | plan =>
      simp only [step, hc] at h
      rw [← hc] at h
      by_cases hp : c.pool.isClosed = true
      · rw [show c.pool.plan c.isClosed c.config.minConnections c.config.maxConnections =
          .error .closed from if_pos hp] at h
        cases h
        exact .refuse hc hp
      · rw [ConnectionPool.plan_of_open (eq_false_of_ne_true hp)] at h
        cases h
        exact .plan hc (eq_false_of_ne_true hp) rfl
    | dial i success =>
      simp only [step, hc] at h
      split at h
      · next n w ha =>
        obtain ⟨first, later, hsplit, rfl, hset⟩ := split_allocations ha
        split at h
        · cases h
        · next hleft =>
          simp only [hset, Option.some.injEq] at h
          subst h
          exact .dial hc hsplit hleft
      · cases h
    | commit i =>
      simp only [step, hc] at h
      split at h
      · next n w ha =>
        obtain ⟨first, later, hsplit, rfl, hset⟩ := split_allocations ha
        split at h
        · next hleft =>
          cases h
          exact commit_step hc hsplit hleft hset
        · cases h
      · cases h
    | free id =>
      simp only [step, hc, Option.some.injEq] at h
      rw [← hc] at h
      subst h
      exact .free hc
    | close =>
      simp only [step, hc, Option.some.injEq] at h
      rw [← hc] at h
      by_cases hp : c.pool.isClosed = true
      · rw [ConnectionPool.close_of_closed hp] at h
        rw [← h, closeAll_nil]
        exact .closeAgain hc hp
      · rw [ConnectionPool.close_of_open (eq_false_of_ne_true hp)] at h
        rw [← h]
        exact .close hc (eq_false_of_ne_true hp)

/-- A client keeps its settings. -/
theorem config_of_step (h : c.Step e d) : d.config = c.config := by
  cases h <;> rfl

theorem config_reachable {config : ClientConfig} (h : (machine config).Reachable c) :
    c.config = config.normalized :=
  @Machine.invariant _ _ (machine config) (fun c => c.config = config.normalized) rfl
    (fun _ _ _ hc hs => (config_of_step (step_cases hs)).trans hc) c h

end Client

end ClusterLink
