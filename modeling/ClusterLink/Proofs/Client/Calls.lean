import ClusterLink.Client.Calls
import ClusterLink.Proofs.Client.Steps
/-!
# What a call comes to

A call is a sequence of steps with nobody else in between. An allocation dials until nothing is left
to be dialed, so it comes to what `plan` and `commit` make of the pool and of the connections that
were dialed; a call that borrows a connection for its own use pays it back whatever came of it.

Results:
* `Client.run_attempts`: the dials of an allocation stop at the first that fails.
* `Client.allocate_of_closed`, `Client.allocate_of_open`: what an allocation comes to.
* `Client.use_of_ok`: what comes of a call that borrows a connection for its own use.
* `Client.connect_eq`: what connecting comes to.
-/
namespace ClusterLink

/-! ## Dials in turn -/

namespace Dialing

/-- How many of up to `n` dials succeed before one fails. After the last outcome a dial fails. -/
def successes (n : Nat) (outcomes : List Bool) : Nat := ((outcomes.take n).takeWhile id).length

/-- What up to `n` dials come to, of which none is made after one that fails. -/
def attempts (n : Nat) (outcomes : List Bool) : List Bool :=
  List.replicate (successes n outcomes) true ++ if successes n outcomes < n then [false] else []

/-- The connections that some dials give, after so many others. -/
def given (dialed k : Nat) : List ConnectionId := (List.range' dialed k).map ConnectionId.mk

variable {n dialed k : Nat} {later : List Bool}

@[simp] theorem successes_zero (outcomes : List Bool) : successes 0 outcomes = 0 := rfl

@[simp] theorem successes_nil : successes n [] = 0 := by simp [successes]

@[simp] theorem successes_true : successes (n + 1) (true :: later) = successes n later + 1 := by
  simp [successes]

@[simp] theorem successes_false : successes (n + 1) (false :: later) = 0 := by simp [successes]

@[simp] theorem attempts_zero (outcomes : List Bool) : attempts 0 outcomes = [] := rfl

@[simp] theorem attempts_nil : attempts (n + 1) [] = [false] := by simp [attempts]

@[simp] theorem attempts_true :
    attempts (n + 1) (true :: later) = true :: attempts n later := by
  simp [attempts, List.replicate_succ]

@[simp] theorem attempts_false : attempts (n + 1) (false :: later) = [false] := by simp [attempts]

@[simp] theorem given_zero : given dialed 0 = [] := rfl

theorem given_succ : given dialed (k + 1) = ⟨dialed⟩ :: given (dialed + 1) k := by
  simp [given, List.range'_succ]

theorem mem_given {id : ConnectionId} :
    id ∈ given dialed k ↔ dialed ≤ id.number ∧ id.number < dialed + k := by
  obtain ⟨number⟩ := id
  simp [given]

theorem length_given : (given dialed k).length = k := by simp [given]

theorem successes_le (n : Nat) (outcomes : List Bool) : successes n outcomes ≤ n :=
  Nat.le_trans (List.takeWhile_sublist id).length_le (List.length_take_le n outcomes)

/-- Nothing comes of some dials exactly if there is none or the first fails. -/
theorem successes_eq_zero_iff (hn : n ≠ 0) (outcomes : List Bool) :
    successes n outcomes = 0 ↔ (attempts n outcomes).head? = some false := by
  obtain ⟨n, rfl⟩ := Nat.exists_eq_succ_of_ne_zero hn
  rcases outcomes with - | ⟨_ | _, later⟩ <;> simp

end Dialing

namespace Client

open Dialing

variable {c d : Client} {config : ClientConfig} {first later : List AllocationStage}
  {n : Nat} {w : Dialing}

/-! ## Steps that can be taken -/

/-- A step that is tried leads to a state that can be reached, also if it cannot be taken. -/
theorem reachable_getD (h : (machine config).Reachable c) (e : ClientEvent) :
    (machine config).Reachable ((c.step e).getD c) := by
  cases hs : c.step e with
  | none => exact h
  | some d => exact h.step hs

theorem step_free (hc : c.connecting = none) (id : ConnectionId) :
    c.step (.free id) = some ({ c with
      pool := (c.pool.free c.isClosed c.config.minConnections id).2
      loans := c.loans.erase id }.closeAll
        (c.pool.free c.isClosed c.config.minConnections id).1) := by
  simp only [step, hc]

theorem step_dial {success : Bool} (hc : c.connecting = none)
    (ha : c.allocations = first ++ [.dialing n w]) (hleft : w.left ≠ 0) :
    c.step (.dial first.length success) = some { c with
      allocations := first ++ [.dialing n (w.next c.dialed success)]
      dialed := c.dialed + success.toNat } := by
  simp [step, hc, ha, hleft, setAllocation]

theorem isDialing_eq (ha : c.allocations = first ++ [.dialing n w]) :
    c.isDialing first.length = (w.left != 0) := by
  simp [isDialing, ha]

theorem dialAll_of_not_dialing {i : Nat} (h : c.isDialing i = false) (outcomes : List Bool) :
    c.dialAll i outcomes = c := by
  cases outcomes <;> simp [dialAll, h]

/-- A dial that fails is the last. -/
theorem step_failure {left : Nat} {fresh : List ConnectionId} (hc : c.connecting = none)
    (ha : c.allocations = first ++ [.dialing n ⟨left + 1, fresh⟩]) :
    c.step (.dial first.length false) = some { c with
      allocations := first ++ [.dialing n ⟨0, fresh⟩] } :=
  step_dial hc ha (Nat.succ_ne_zero left)

theorem step_success {left : Nat} {fresh : List ConnectionId} (hc : c.connecting = none)
    (ha : c.allocations = first ++ [.dialing n ⟨left + 1, fresh⟩]) :
    c.step (.dial first.length true) = some { c with
      allocations := first ++ [.dialing n ⟨left, fresh ++ [⟨c.dialed⟩]⟩]
      dialed := c.dialed + 1 } :=
  step_dial hc ha (Nat.succ_ne_zero left)

/-- **The dials of an allocation stop at the first that fails**, and those before give connections
with the next numbers. -/
theorem run_attempts (hc : c.connecting = none) (ha : c.allocations = first ++ [.dialing n w])
    (outcomes : List Bool) :
    (machine config).run c ((attempts w.left outcomes).map (.dial first.length)) =
        some (c.dialAll first.length outcomes) ∧
      c.dialAll first.length outcomes = { c with
        allocations :=
          first ++ [.dialing n ⟨0, w.fresh ++ given c.dialed (successes w.left outcomes)⟩]
        dialed := c.dialed + successes w.left outcomes } := by
  have hdone : ∀ {c : Client} {fresh : List ConnectionId} (later : List Bool),
      c.allocations = first ++ [.dialing n ⟨0, fresh⟩] → c.dialAll first.length later = c :=
    fun later ha => dialAll_of_not_dialing (isDialing_eq ha) later
  induction outcomes generalizing c w with
  | nil =>
    obtain ⟨_ | left, fresh⟩ := w
    · simp [hdone [] ha, ← ha]
    · have hfail := step_failure hc ha
      have hdial : c.isDialing first.length = true := isDialing_eq ha
      simp [dialAll, hdial, hfail, Machine.run_cons, machine]
  | cons outcome later ih =>
    obtain ⟨_ | left, fresh⟩ := w
    · simp [hdone _ ha, ← ha]
    · have hdial : c.isDialing first.length = true := isDialing_eq ha
      cases outcome with
      | false =>
        have hfail := step_failure hc ha
        simp [dialAll, hdial, hfail, hdone, Machine.run_cons, machine]
      | true =>
        have hsuccess := step_success hc ha
        obtain ⟨hrun, heq⟩ := ih (c := { c with
          allocations := first ++ [.dialing n ⟨left, fresh ++ [⟨c.dialed⟩]⟩]
          dialed := c.dialed + 1 }) hc rfl
        rw [dialAll, if_pos hdial, hsuccess, Option.getD_some]
        constructor
        · rw [attempts_true, List.map_cons, Machine.run_cons]
          exact Option.bind_eq_some_iff.2 ⟨_, hsuccess, hrun⟩
        · rw [heq, successes_true, given_succ]
          simp [Nat.add_assoc, Nat.add_comm 1]

/-! ## Allocating -/

theorem step_plan_of_closed (hc : c.connecting = none) (hp : c.pool.isClosed = true) :
    c.step .plan = some { c with allocations := c.allocations ++ [.ended (.error .closed)] } := by
  simp only [step, hc, ConnectionPool.plan, hp, if_true]

theorem step_plan_of_open (hc : c.connecting = none) {p : ConnectionPool}
    (hplan : c.pool.plan c.isClosed c.config.minConnections c.config.maxConnections = .ok (n, p)) :
    c.step .plan =
      some { c with pool := p, allocations := c.allocations ++ [.dialing n { left := n }] } := by
  simp only [step, hc, hplan]

theorem allocate_of_closed (hc : c.connecting = none) (hp : c.pool.isClosed = true)
    (outcomes : List Bool) :
    c.allocate outcomes = (.error .closed,
      { c with allocations := c.allocations ++ [.ended (.error .closed)] }) := by
  simp only [allocate, step_plan_of_closed hc hp, Option.getD_some]
  rw [dialAll_of_not_dialing (by simp [isDialing])]
  simp [step, hc, result?]

theorem step_commit (hc : c.connecting = none) (ha : c.allocations = first ++ .dialing n w :: later)
    (hleft : w.left = 0) :
    ∃ closed loans, c.step (.commit first.length) = some { c with
      allocations := first ++ .ended (c.pool.commit n w.fresh).1 :: later
      pool := (c.pool.commit n w.fresh).2
      closed, loans } := by
  have hget : c.allocations[first.length]? = some (.dialing n w) := by simp [ha]
  have hset : ∀ stage, c.allocations.set first.length stage = first ++ stage :: later := by
    simp [ha]
  rcases h : c.pool.commit n w.fresh with ⟨result, pool⟩
  simp only [step, hc, hget, hleft, if_true, commit, h, setAllocation, hset]
  cases result with
  | ok id => exact ⟨_, _, rfl⟩
  | error cause => cases cause <;> exact ⟨_, _, rfl⟩

/-- A client whose caller has planned some dials and made none of them. -/
def planning (c : Client) (n : Nat) (p : ConnectionPool) : Client :=
  { c with pool := p, allocations := c.allocations ++ [.dialing n { left := n }] }

/-- A client whose caller has made the dials that were planned. -/
def dialedOut (c : Client) (n : Nat) (p : ConnectionPool) (outcomes : List Bool) : Client :=
  { c with
    pool := p
    allocations := c.allocations ++ [.dialing n ⟨0, given c.dialed (successes n outcomes)⟩]
    dialed := c.dialed + successes n outcomes }

theorem run_planning (config : ClientConfig) (hc : c.connecting = none) (n : Nat)
    (p : ConnectionPool) (outcomes : List Bool) :
    (machine config).run (c.planning n p)
        ((attempts n outcomes).map (.dial c.allocations.length)) =
        some (c.dialedOut n p outcomes) ∧
      (c.planning n p).dialAll c.allocations.length outcomes = c.dialedOut n p outcomes := by
  have hplanning : (c.planning n p).connecting = none := hc
  obtain ⟨hrun, hend⟩ : (machine config).run (c.planning n p)
        ((attempts n outcomes).map (.dial c.allocations.length)) =
        some ((c.planning n p).dialAll c.allocations.length outcomes) ∧
      (c.planning n p).dialAll c.allocations.length outcomes = c.dialedOut n p outcomes :=
    run_attempts hplanning rfl outcomes
  rw [hend] at hrun
  exact ⟨hrun, hend⟩

/-- What an allocation on an open pool comes to: as many connections as are dialed of those that are
planned go to the pool, and what the pool has then is lent. -/
theorem allocate_of_open (hc : c.connecting = none) (hp : c.pool.isClosed = false)
    (outcomes : List Bool) :
    ∃ n p fresh allocations dialed closed loans,
      c.pool.plan c.isClosed c.config.minConnections c.config.maxConnections = .ok (n, p) ∧
      fresh.length ≤ n ∧ (∀ id ∈ fresh, c.dialed ≤ id.number) ∧
      c.allocate outcomes = ((p.commit n fresh).1,
        { c with pool := (p.commit n fresh).2, allocations, dialed, closed, loans }) := by
  obtain ⟨n, p, hplan⟩ : ∃ n p,
      c.pool.plan c.isClosed c.config.minConnections c.config.maxConnections = .ok (n, p) :=
    ⟨_, _, ConnectionPool.plan_of_open hp⟩
  have hstep : c.step .plan = some (c.planning n p) := step_plan_of_open hc hplan
  obtain ⟨-, hdials⟩ := run_planning c.config hc n p outcomes
  obtain ⟨closed, loans, hcommit⟩ := step_commit (c := c.dialedOut n p outcomes) hc rfl rfl
  refine ⟨n, p, given c.dialed (successes n outcomes),
    c.allocations ++ [.ended (p.commit n (given c.dialed (successes n outcomes))).1],
    c.dialed + successes n outcomes, closed, loans, hplan, ?_, ?_, ?_⟩
  · rw [length_given]
    exact successes_le n outcomes
  · intro id hid
    exact (mem_given.1 hid).1
  · simp only [allocate, hstep, Option.getD_some, hdials, hcommit]
    simp [result?, dialedOut]

theorem connecting_allocate (hc : c.connecting = none) (outcomes : List Bool) :
    (c.allocate outcomes).2.connecting = none := by
  cases hp : c.pool.isClosed with
  | true => rwa [allocate_of_closed hc hp]
  | false =>
    obtain ⟨n, p, fresh, allocations, dialed, closed, loans, -, -, -, h⟩ :=
      allocate_of_open hc hp outcomes
    rwa [h]

theorem reachable_dialAll (h : (machine config).Reachable c) (i : Nat) (outcomes : List Bool) :
    (machine config).Reachable (c.dialAll i outcomes) := by
  induction outcomes generalizing c with
  | nil =>
    rw [dialAll]
    split
    · exact reachable_getD h _
    · exact h
  | cons outcome later ih =>
    rw [dialAll]
    split
    · exact ih (reachable_getD h _)
    · exact h

theorem reachable_allocate (h : (machine config).Reachable c) (outcomes : List Bool) :
    (machine config).Reachable (c.allocate outcomes).2 :=
  reachable_getD (reachable_dialAll (reachable_getD h _) _ outcomes) _

/-! ## Borrowing for a while -/

/-- What others close is closed, and nothing else changes. -/
theorem lose_eq (lost : List ConnectionId) (c : Client) :
    ∃ closed, c.lose lost = { c with closed } := by
  induction lost generalizing c with
  | nil => exact ⟨c.closed, rfl⟩
  | cons id later ih =>
    obtain ⟨closed, hdrop⟩ : ∃ closed, (c.step (.drop id)).getD c = { c with closed } := by
      cases h : c.step (.drop id) with
      | none => exact ⟨c.closed, rfl⟩
      | some d =>
        cases step_cases h
        exact ⟨_, rfl⟩
    obtain ⟨closed', hlater⟩ := ih { c with closed }
    refine ⟨closed', ?_⟩
    rw [lose, List.foldl_cons, hdrop]
    exact hlater

theorem free_eq (hc : c.connecting = none) (id : ConnectionId) :
    ∃ closed loans, c.free id =
      { c with pool := (c.pool.free c.isClosed c.config.minConnections id).2, closed, loans } := by
  rw [free, step_free hc, Option.getD_some]
  exact ⟨_, _, rfl⟩

theorem close_eq (hc : c.connecting = none) :
    ∃ closed, c.close = { c with pool := c.pool.close.2, closed } := by
  have hstep : c.step .close = some ({ c with pool := c.pool.close.2 }.closeAll c.pool.close.1) := by
    simp only [step, hc]
  rw [close, hstep, Option.getD_some]
  exact ⟨_, rfl⟩

variable {α : Type}

theorem use_of_error {dials : List Bool} {cause : ClientError}
    (h : c.allocate dials = (.error cause, d))
    (exchange : ConnectionId → Except ConnectionError α × List ConnectionId) :
    c.use dials exchange = (.error cause, d) := by
  rw [use, h]

/-- A connection that was borrowed is paid back, whatever its use came to. -/
theorem use_of_ok {dials : List Bool} {id : ConnectionId} (h : c.allocate dials = (.ok id, d))
    (exchange : ConnectionId → Except ConnectionError α × List ConnectionId) :
    c.use dials exchange =
      ((exchange id).1.mapError .connection, (d.lose (exchange id).2).free id) := by
  rw [use, h]

/-! ## Connecting -/

theorem warm_getD (hc : c.connecting = some w) (success : Bool) :
    ∃ v, ((c.step (.warm success)).getD c).connecting = some v ∧ (success = false → v.left = 0) := by
  by_cases hleft : w.left = 0
  · exact ⟨w, by simp [step, hc, hleft], fun _ => hleft⟩
  · refine ⟨w.next c.dialed success, by simp [step, hc, hleft], ?_⟩
    rintro rfl
    rfl

theorem warm_foldl (h : (machine config).Reachable c) (hc : c.connecting = some w)
    (outcomes : List Bool) :
    ∃ d v, outcomes.foldl (fun c o => (c.step (.warm o)).getD c) c = d ∧
      (machine config).Reachable d ∧ d.connecting = some v := by
  induction outcomes generalizing c w with
  | nil => exact ⟨c, w, rfl, h, hc⟩
  | cons outcome later ih =>
    obtain ⟨v, hv, -⟩ := warm_getD hc outcome
    exact ih (reachable_getD h _) hv

theorem step_ready (hc : c.connecting = some w) (hleft : w.left = 0) :
    c.step .ready = some { c with connecting := none, pool := c.pool.add w.fresh } := by
  simp only [step, hc, hleft, if_true]

/-- What connecting comes to: when the first dials are over, the pool gets what they have come to. -/
theorem connect_eq (config : ClientConfig) (outcomes : List Bool) :
    ∃ c w, (machine config).Reachable c ∧ c.connecting = some w ∧ w.left = 0 ∧
      connect config outcomes = { c with connecting := none, pool := c.pool.add w.fresh } := by
  obtain ⟨d, v, hd, hreach, hv⟩ := warm_foldl (c := new config) .start rfl outcomes
  obtain ⟨w, hw, hleft⟩ := warm_getD hv false
  refine ⟨_, w, reachable_getD hreach (.warm false), hw, hleft rfl, ?_⟩
  rw [connect, List.foldl_append, hd, List.foldl_cons, List.foldl_nil,
    step_ready hw (hleft rfl), Option.getD_some]

end Client

end ClusterLink
