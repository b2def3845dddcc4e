import ClusterLink.Proofs.Client.Capacity
import ClusterLink.Proofs.Client.Accounting
/-!
# What an allocation dials and lends

A caller who is alone with a client finds the pool as `plan` leaves it: the connections that are
closed are gone, and the dials to come make up for those that are missing. The caller dials until
one fails or enough were dialed, hands over what came of it and borrows.

Results:
* `Client.number_lt_of_closed`: what is closed has been dialed, so what is dialed next is open.
* `Client.allocate_eq`: the steps of a call, and what they come to.
* `Client.allocates_what_is_missing`: what a caller gets who is alone.
-/
namespace ClusterLink

namespace Client

open Dialing

variable {c d : Client} {config : ClientConfig} {id : ConnectionId}

/-! ## What is closed was dialed -/

/-- What a step closes was in somebody's hands, or others close it. -/
theorem closed_of_step {e : ClientEvent} (h : c.Step e d) (hid : id ∈ d.closed) :
    id ∈ c.closed ∨ id ∈ c.kept ∨ id.number < c.dialed := by
  cases h with
  | drop hdrop =>
    refine (mem_closed_closeAll.1 hid).imp_right fun hmem => Or.inr ?_
    rwa [List.mem_singleton.1 hmem]
  | @reject first later n w hc ha hleft hp =>
    refine (mem_closed_closeAll.1 hid).imp_right fun hmem => Or.inl ?_
    exact List.mem_append_left _ (mem_held.2 (Or.inr ⟨n, w, by simp [ha], hmem⟩))
  | @free back hc =>
    refine (mem_closed_closeAll.1 hid).imp_right fun hmem => Or.inl (List.mem_append_right _ ?_)
    obtain ⟨x, hx, rfl, -⟩ := ConnectionPool.idle_of_mem_extras hmem
    rw [ConnectionPool.connections, ← ConnectionPool.map_connection_payBack back]
    exact List.mem_map_of_mem (ConnectionPool.mem_settled.1 hx).1
  | close hc hp =>
    refine (mem_closed_closeAll.1 hid).imp_right fun hmem => Or.inl ?_
    exact List.mem_append_right _ hmem
  | _ => exact Or.inl hid

/-- What is closed has been dialed, so what is dialed next is open. -/
theorem number_lt_of_closed (h : (machine config).Reachable c) :
    ∀ id ∈ c.closed, id.number < c.dialed := by
  induction h with
  | start =>
    intro id hid
    cases hid
  | @step c d e hreach hs ih =>
    intro id hid
    have hcustody := Custody.reachable hreach
    have hgrows := (handsOver_of_step (step_cases hs) hcustody.nodup_connections).dialed
    have hlt : id.number < c.dialed := by
      rcases closed_of_step (step_cases hs) hid with hold | hkept | hlt
      · exact ih id hold
      · exact hcustody.known id hkept
      · exact hlt
    omega

/-! ## The end of a call -/

theorem pool_commit (c : Client) (i n : Nat) (fresh : List ConnectionId) :
    (c.commit i n fresh).pool = (c.pool.commit n fresh).2 := by
  rcases h : c.pool.commit n fresh with ⟨cause | id, pool⟩
  · cases cause <;> simp [commit, h]
  · simp [commit, h]

theorem result?_commit {i : Nat} (hi : i < c.allocations.length) (n : Nat)
    (fresh : List ConnectionId) :
    (c.commit i n fresh).result? i = some (c.pool.commit n fresh).1 := by
  rcases h : c.pool.commit n fresh with ⟨cause | id, pool⟩
  · cases cause <;> simp [commit, h, setAllocation, result?, hi]
  · simp [commit, h, setAllocation, result?, hi]

/-- The end of an allocation closes nothing, unless the pool was closed. -/
theorem closed_commit (hp : c.pool.isClosed = false) (i n : Nat) (fresh : List ConnectionId) :
    (c.commit i n fresh).closed = c.closed := by
  rcases ConnectionPool.commit_cases n fresh c.pool with ⟨hclosed, -⟩ | ⟨-, -, -, h⟩ |
    ⟨-, before, x, after, -, -, h⟩
  · rw [hp] at hclosed
    cases hclosed
  · simp [commit, h, setAllocation]
  · simp [commit, h, setAllocation]

/-! ## A whole call -/

/-- The connections of the pool that are not closed, with their loans. -/
def openEntries (c : Client) : List PoolEntry :=
  c.pool.entries.filter fun e => !c.isClosed e.connection

/-- How many connections a caller who is alone has to dial: as many as are missing, or one if all
are on loan and there may be more. -/
def missing (c : Client) : Nat :=
  if c.openEntries.length < c.config.minConnections then
    c.config.minConnections - c.openEntries.length
  else if (∀ e ∈ c.openEntries, 0 < e.loans) ∧ c.openEntries.length < c.config.maxConnections then 1
  else 0

/-- The entries that an allocation lends from, for a caller who is alone. -/
def entriesToLend (c : Client) (outcomes : List Bool) : List PoolEntry :=
  c.openEntries ++
    (given c.dialed (successes c.missing outcomes)).map fun id => { connection := id }

theorem wanted_eq_missing (h : c.pool.dialing = 0) :
    (c.pool.prune c.isClosed).wanted c.config.minConnections c.config.maxConnections =
      c.missing := by
  have hidle : (c.pool.prune c.isClosed).hasIdle = false ↔ ∀ e ∈ c.openEntries, 0 < e.loans := by
    simp [ConnectionPool.hasIdle, PoolEntry.isIdle, ConnectionPool.prune, openEntries,
      Nat.pos_iff_ne_zero]
  have hsize : (c.pool.prune c.isClosed).size + (c.pool.prune c.isClosed).dialing =
      c.openEntries.length := by
    rw [ConnectionPool.dialing_prune, h]
    rfl
  simp only [ConnectionPool.wanted, missing, hidle, hsize]
  by_cases hfew : c.openEntries.length < c.config.minConnections
  · rw [if_pos hfew, if_neg (by omega)]
  · rw [if_neg hfew, show c.config.minConnections - c.openEntries.length = 0 by omega]
    simp

/-- The steps of a call, for a caller who is alone. -/
def callEvents (c : Client) (outcomes : List Bool) : List ClientEvent :=
  .plan :: ((attempts c.missing outcomes).map (.dial c.allocations.length) ++
    [.commit c.allocations.length])

/-- The pool while the caller, who is alone, makes the dials. -/
def reserving (c : Client) : ConnectionPool :=
  { c.pool.prune c.isClosed with dialing := c.pool.dialing + c.missing }

/-- What a call comes to once all dials are made. -/
def committed (c : Client) (outcomes : List Bool) : Client :=
  (c.dialedOut c.missing c.reserving outcomes).commit c.allocations.length c.missing
    (given c.dialed (successes c.missing outcomes))

/-- **The steps of a call, and what they come to.** -/
theorem allocate_eq (config : ClientConfig) (hc : c.connecting = none)
    (hp : c.pool.isClosed = false) (hdialing : c.pool.dialing = 0) (outcomes : List Bool) :
    (machine config).run c (c.callEvents outcomes) = some (c.allocate outcomes).2 ∧
      c.allocate outcomes = (((c.committed outcomes).result? c.allocations.length).getD
        (.error .noAvailableConnections), c.committed outcomes) := by
  have hplan : c.step .plan = some (c.planning c.missing c.reserving) := by
    rw [reserving, ← wanted_eq_missing hdialing]
    exact step_plan_of_open hc (ConnectionPool.plan_of_open hp)
  obtain ⟨hdials, hend⟩ := run_planning config hc c.missing c.reserving outcomes
  have hcommit : (c.dialedOut c.missing c.reserving outcomes).step (.commit c.allocations.length) =
      some (c.committed outcomes) := by
    simp [step, dialedOut, committed, hc]
  have hallocate : c.allocate outcomes = (((c.committed outcomes).result? c.allocations.length).getD
      (.error .noAvailableConnections), c.committed outcomes) := by
    simp only [allocate, hplan, Option.getD_some, hend, hcommit]
  refine ⟨?_, hallocate⟩
  rw [hallocate, callEvents, Machine.run_cons]
  exact Option.bind_eq_some_iff.2 ⟨_, hplan, Machine.run_concat hdials hcommit⟩

theorem committed_cases (hp : c.pool.isClosed = false) (outcomes : List Bool) :
    (c.entriesToLend outcomes = [] ∧ (c.committed outcomes).pool.entries = [] ∧
      (c.committed outcomes).result? c.allocations.length =
        some (.error .noAvailableConnections)) ∨
    ∃ before x after, c.entriesToLend outcomes = before ++ x :: after ∧
      ((∃ e ∈ c.entriesToLend outcomes, e.loans = 0) → x.loans = 0) ∧
      (c.committed outcomes).pool.entries = before ++ { x with loans := x.loans + 1 } :: after ∧
      (c.committed outcomes).result? c.allocations.length = some (.ok x.connection) := by
  have hplace : c.allocations.length <
      (c.dialedOut c.missing c.reserving outcomes).allocations.length := by
    simp [dialedOut]
  rw [committed, pool_commit, result?_commit hplace]
  rcases ConnectionPool.commit_cases c.missing (given c.dialed (successes c.missing outcomes))
      (c.dialedOut c.missing c.reserving outcomes).pool with
    ⟨hclosed, -⟩ | ⟨-, hentries, hfresh, h⟩ | ⟨-, before, x, after, hentries, hidle, h⟩
  · exact absurd hclosed (by simp [dialedOut, reserving, hp])
  · rw [h]
    refine Or.inl ⟨?_, hentries, rfl⟩
    rw [entriesToLend, hfresh, List.map_nil, List.append_nil]
    exact hentries
  · rw [h]
    refine Or.inr ⟨before, x, after, hentries, ?_, rfl, rfl⟩
    rintro ⟨e, he, hzero⟩
    have hx := hidle (List.any_eq_true.2 ⟨e, he, beq_iff_eq.2 hzero⟩)
    exact beq_iff_eq.1 hx

theorem connections_committed (hp : c.pool.isClosed = false) (outcomes : List Bool) :
    (c.committed outcomes).pool.connections = (c.entriesToLend outcomes).map (·.connection) := by
  rcases committed_cases hp outcomes with ⟨hnone, hpool, -⟩ |
    ⟨before, x, after, hsplit, -, hpool, -⟩
  · rw [ConnectionPool.connections, hpool, hnone]
  · rw [ConnectionPool.connections, hpool, hsplit]
    simp

theorem isClosed_committed (hp : c.pool.isClosed = false) (outcomes : List Bool)
    (id : ConnectionId) : (c.committed outcomes).isClosed id = c.isClosed id := by
  have hopen : (c.dialedOut c.missing c.reserving outcomes).pool.isClosed = false := hp
  exact congrArg (·.contains id) (closed_commit hopen _ _ _)

/-- A caller who is alone finds nothing to borrow exactly if nothing was there and the first dial
fails, as there is one to make. -/
theorem entriesToLend_eq_nil_iff (hleast : c.config.minConnections ≠ 0) (outcomes : List Bool) :
    c.entriesToLend outcomes = [] ↔
      c.openEntries = [] ∧ (attempts c.missing outcomes).head? = some false := by
  rw [entriesToLend, List.append_eq_nil_iff, List.map_eq_nil_iff]
  refine and_congr_right fun hnone => ?_
  have hmissing : c.missing ≠ 0 := by
    rw [missing, hnone, List.length_nil, if_pos (Nat.pos_of_ne_zero hleast)]
    exact hleast
  rw [← successes_eq_zero_iff hmissing]
  simp [given]

/-- A caller finds nothing closed to borrow. -/
theorem isClosed_of_mem_entriesToLend (h : (machine config).Reachable c) {outcomes : List Bool}
    {x : PoolEntry} (hx : x ∈ c.entriesToLend outcomes) : c.isClosed x.connection = false := by
  rcases List.mem_append.1 hx with hold | hnew
  · simpa using (List.mem_filter.1 hold).2
  · obtain ⟨id, hid, rfl⟩ := List.mem_map.1 hnew
    refine eq_false_of_ne_true fun hclosed => ?_
    have hlt := number_lt_of_closed h id (List.contains_iff_mem.1 hclosed)
    exact Nat.not_le_of_lt hlt (mem_given.1 hid).1

/-- What an allocation comes to for a caller who is alone. -/
structure Allocates (c : Client) (outcomes : List Bool) : Prop where
  /-- The call makes the dials that are missing, up to the first that fails. -/
  run : (machine c.config).run c (c.callEvents outcomes) = some (c.allocate outcomes).2
  /-- The closed connections are gone, and those that were dialed come last. -/
  connections : (c.allocate outcomes).2.pool.connections =
    c.openEntries.map (·.connection) ++ given c.dialed (successes c.missing outcomes)
  /-- The call comes to nothing exactly if nothing was there and the first dial fails. -/
  lacks : (c.allocate outcomes).1 = .error .noAvailableConnections ↔
    c.openEntries = [] ∧ (attempts c.missing outcomes).head? = some false
  /-- Otherwise one connection is lent, which is open and was idle if any was. -/
  lends : (c.allocate outcomes).1 ≠ .error .noAvailableConnections →
    ∃ before x after, c.entriesToLend outcomes = before ++ x :: after ∧
      (c.allocate outcomes).1 = .ok x.connection ∧
      (c.allocate outcomes).2.isClosed x.connection = false ∧
      (c.allocate outcomes).2.pool.entries = before ++ { x with loans := x.loans + 1 } :: after ∧
      ((∃ e ∈ c.entriesToLend outcomes, e.loans = 0) → x.loans = 0)

/-- **A caller who is alone gets what is missing.** Whatever the dials come to, an allocation on an
open pool dials as many connections as are missing, stops at the first dial that fails and adds what
it has got. It comes to nothing only if nothing was there and the first dial fails; otherwise it
lends an open connection, one that was idle if any was, and leaves all other loans as they are. -/
theorem allocates_what_is_missing (h : (machine config).Reachable c) (hc : c.connecting = none)
    (hp : c.pool.isClosed = false) (halone : ∀ n w, .dialing n w ∉ c.allocations)
    (outcomes : List Bool) : c.Allocates outcomes := by
  have hdialing : c.pool.dialing = 0 :=
    (Budget.reachable h).ledger.trans (reserved_eq_zero halone)
  have hleast : c.config.minConnections ≠ 0 := by
    rw [config_reachable h]
    simp only [ClientConfig.normalized]
    omega
  obtain ⟨hrun, hallocate⟩ := allocate_eq c.config hc hp hdialing outcomes
  have hempty := entriesToLend_eq_nil_iff hleast outcomes
  refine ⟨hrun, ?_, ?_, ?_⟩
  · rw [hallocate, connections_committed hp, entriesToLend]
    simp [Function.comp_def]
  · rw [hallocate, ← hempty]
    rcases committed_cases hp outcomes with ⟨hnone, -, hresult⟩ |
      ⟨before, x, after, hsplit, -, -, hresult⟩
    · simp [hresult, hnone]
    · simp [hresult, hsplit]
  · rw [hallocate]
    intro hne
    rcases committed_cases hp outcomes with ⟨-, -, hresult⟩ |
      ⟨before, x, after, hsplit, hidle, hpool, hresult⟩
    · exact absurd (by rw [hresult, Option.getD_some]) hne
    · refine ⟨before, x, after, hsplit, by rw [hresult, Option.getD_some], ?_, hpool, hidle⟩
      rw [isClosed_committed hp]
      exact isClosed_of_mem_entriesToLend h (by rw [hsplit]; simp)

/-! ### One of two -/

private def threeKept : ClientConfig := { ClientConfig.sample with minConnections := 3 }

/-- Two of the three connections are lost. -/
private def twoLost : List ClientEvent :=
  [.warm true, .warm true, .warm true, .ready, .drop ⟨0⟩, .drop ⟨2⟩]

/-- Of the two dials the second fails, and the connection that is left is lent. -/
theorem one_of_two_dials_succeeds :
    ∃ c, (machine threeKept).Reachable c ∧ c.connecting = none ∧ c.pool.isClosed = false ∧
      c.allocations = [] ∧ attempts c.missing [true, false, true] = [true, false] ∧
      (c.allocate [true, false, true]).1 = .ok ⟨1⟩ ∧
      (c.allocate [true, false, true]).2.pool.entries = [⟨⟨1⟩, 1⟩, ⟨⟨3⟩, 0⟩] ∧
      c.Allocates [true, false, true] := by
  have hrun : (machine threeKept).run (new threeKept) twoLost =
      some (((machine threeKept).run (new threeKept) twoLost).getD (new threeKept)) := by rfl
  have hreach := (Machine.reachable_iff (machine threeKept) _).2 ⟨twoLost, hrun⟩
  exact ⟨_, hreach, by rfl, by rfl, by rfl, by decide, by rfl, by rfl,
    allocates_what_is_missing hreach rfl rfl (fun n w => List.not_mem_nil) [true, false, true]⟩

end Client

end ClusterLink
