import ClusterLink.Proofs.Client.Steps
import Mathlib.Algebra.BigOperators.Group.List.Basic
import Mathlib.Algebra.GroupWithZero.Nat
/-!
# How many connections a pool has

The dials of an allocation are made while the pool is free for others, so the room for them is
reserved before: `plan` notes them and `commit` takes the note back. What is reserved is the sum of
what the allocations under way have planned, and together with the entries it is within the bound.

Results:
* `Client.Budget.step`: every step of a client keeps to the budget.
* `Client.pool_keeps_within_its_bound`: a pool never has more connections than its upper bound, and
  the dials it has noted are those of the allocations under way.
-/
namespace ClusterLink

namespace ConnectionPool

variable {closed : ConnectionId → Bool} {p : ConnectionPool} {id : ConnectionId} {least most : Nat}

@[simp] theorem dialing_add (fresh : List ConnectionId) : (p.add fresh).dialing = p.dialing := rfl

theorem size_add (fresh : List ConnectionId) : (p.add fresh).size = p.size + fresh.length := by
  simp [add, size]

theorem size_prune_le (closed : ConnectionId → Bool) (p : ConnectionPool) :
    (p.prune closed).size ≤ p.size := List.length_filter_le ..

theorem size_free_le : (p.free closed least id).2.size ≤ p.size := by
  have h := (p.connections_free_sublist closed least id).length_le
  simpa [connections, size] using h

/-- There is room for the connections that an allocation dials. -/
theorem wanted_le (hbounds : least ≤ most) (h : p.size + p.dialing ≤ most) :
    p.size + (p.dialing + p.wanted least most) ≤ most := by
  simp only [wanted]
  split <;> omega

end ConnectionPool

/-- The room that an allocation has reserved. -/
def AllocationStage.reserved : AllocationStage → Nat
  | dialing planned _ => planned
  | ended _ => 0

namespace Client

variable {c d : Client} {e : ClientEvent} {first later : List AllocationStage} {n : Nat}
  {w : Dialing}

/-- The room that all allocations under way have reserved. -/
def reserved (c : Client) : Nat := (c.allocations.map AllocationStage.reserved).sum

theorem reserved_split {a : AllocationStage} (h : c.allocations = first ++ a :: later) :
    c.reserved = (first.map AllocationStage.reserved).sum + a.reserved +
      (later.map AllocationStage.reserved).sum := by
  simp only [reserved, h, List.map_append, List.map_cons, List.sum_append, List.sum_cons]
  omega

theorem reserved_le {a : AllocationStage} (h : a ∈ c.allocations) : a.reserved ≤ c.reserved := by
  obtain ⟨first, later, hsplit⟩ := List.append_of_mem h
  rw [reserved_split hsplit]
  omega

theorem reserved_eq_zero (h : ∀ n w, .dialing n w ∉ c.allocations) : c.reserved = 0 := by
  apply List.sum_eq_zero
  intro k hk
  obtain ⟨a, ha, rfl⟩ := List.mem_map.1 hk
  cases a with
  | dialing n w => exact absurd ha (h n w)
  | ended result => rfl

/-- Dials go on as planned, and what is there together with what is reserved is within the bound. -/
structure Budget (c : Client) : Prop where
  bounds : c.config.minConnections ≤ c.config.maxConnections
  warming : ∀ w, c.connecting = some w → c.pool.dialing = 0 ∧
    c.pool.size + (w.left + w.fresh.length) ≤ c.config.minConnections
  planned : ∀ n w, .dialing n w ∈ c.allocations → w.left + w.fresh.length ≤ n
  ledger : c.pool.dialing = c.reserved
  within : c.pool.size + c.pool.dialing ≤ c.config.maxConnections

namespace Budget

theorem start (config : ClientConfig) : Budget (new config) where
  bounds := Nat.min_le_right ..
  warming := by
    intro w hw
    cases hw
    exact ⟨rfl, by simp [new, ConnectionPool.size]⟩
  planned := by simp [new]
  ledger := rfl
  within := Nat.zero_le _

/-- A pool with fewer entries keeps to the budget of the allocations that are under way. -/
theorem shrink (hc : Budget c) (hconfig : d.config = c.config) (hnone : d.connecting = none)
    (hallocations : d.allocations = c.allocations) (hdialing : d.pool.dialing = c.pool.dialing)
    (hsize : d.pool.size ≤ c.pool.size) : Budget d where
  bounds := hconfig ▸ hc.bounds
  warming := by
    intro v hv
    rw [hnone] at hv
    cases hv
  planned := hallocations ▸ hc.planned
  ledger := by
    rw [hdialing, hc.ledger, reserved, reserved, hallocations]
  within := by
    have hwithin := hc.within
    rw [hconfig]
    omega

/-- The end of an allocation gives its room back, and it has used no more. -/
theorem settle {result : Except ClientError ConnectionId} (hc : Budget c)
    (ha : c.allocations = first ++ .dialing n w :: later) (hconfig : d.config = c.config)
    (hnone : d.connecting = none) (hd : d.allocations = first ++ .ended result :: later)
    (hdialing : d.pool.dialing = c.pool.dialing - n) (hsize : d.pool.size ≤ c.pool.size + n) :
    Budget d := by
  have hledger := hc.ledger
  have hwithin := hc.within
  have hbefore := reserved_split ha
  have hafter := reserved_split hd
  simp only [AllocationStage.reserved] at hbefore hafter
  constructor
  · rw [hconfig]
    exact hc.bounds
  · intro v hv
    rw [hnone] at hv
    cases hv
  · intro m v hv
    apply hc.planned
    rw [hd] at hv
    rw [ha]
    simp only [List.mem_append, List.mem_cons, reduceCtorEq, false_or] at hv ⊢
    exact hv.imp_right Or.inr
  · omega
  · rw [hconfig]
    omega

/-- **Every step of a client keeps to the budget.** -/
theorem step (h : c.Step e d) (hc : Budget c) : Budget d := by
  have hbounds := hc.bounds
  have hledger := hc.ledger
  have hwithin := hc.within
  cases h with
  | @warm w success hw hleft =>
    refine { hc with warming := ?_ }
    intro v hv
    cases hv
    obtain ⟨hdialing, hsize⟩ := hc.warming w hw
    have hnext := w.length_next c.dialed success hleft
    exact ⟨hdialing, by simp only; omega⟩
  | @ready w hw hleft =>
    obtain ⟨hdialing, hsize⟩ := hc.warming w hw
    refine { hc with warming := ?_, within := ?_ }
    · intro v hv
      cases hv
    · simp only [ConnectionPool.size_add, ConnectionPool.dialing_add]
      omega
  | drop hid => exact { hc with }
  | refuse hw hp =>
    refine { hc with planned := ?_, ledger := ?_ }
    · intro n w hmem
      apply hc.planned
      simpa using hmem
    · simp [hledger, reserved, AllocationStage.reserved]
  | @plan n hw hp hn =>
    have hpruned := c.pool.size_prune_le c.isClosed
    have hroom : (c.pool.prune c.isClosed).size + (c.pool.dialing + n) ≤ c.config.maxConnections := by
      rw [hn]
      apply ConnectionPool.wanted_le hbounds
      rw [ConnectionPool.dialing_prune]
      omega
    refine { hc with warming := ?_, planned := ?_, ledger := ?_, within := hroom }
    · intro v hv
      rw [hw] at hv
      cases hv
    · intro m v hmem
      rcases List.mem_append.1 hmem with hmem | hmem
      · exact hc.planned m v hmem
      · cases List.mem_singleton.1 hmem
        exact Nat.le_refl n
    · simp [hledger, reserved, AllocationStage.reserved]
  | @dial first later n w success hw ha hleft =>
    have hnext := w.length_next c.dialed success hleft
    have hplanned : w.left + w.fresh.length ≤ n := hc.planned n w (by simp [ha])
    refine { hc with planned := ?_, ledger := ?_ }
    · intro m v hmem
      rcases List.mem_append.1 hmem with hmem | hmem
      · exact hc.planned m v (by simp [ha, hmem])
      · rcases List.mem_cons.1 hmem with heq | hmem
        · cases heq
          omega
        · exact hc.planned m v (by simp [ha, hmem])
    · rw [hledger, reserved, reserved, ha]
      simp only [List.map_append, List.map_cons, AllocationStage.reserved]
  | reject hw ha hleft hp => exact hc.settle ha rfl hw rfl rfl (Nat.le_add_right ..)
  | lack hw ha hleft hp hentries hfresh => exact hc.settle ha rfl hw rfl rfl (Nat.le_add_right ..)
  | @lend first later n w before after x hw ha hleft hp hentries hidle =>
    have hplanned : w.left + w.fresh.length ≤ n := hc.planned n w (by simp [ha])
    have hsize : c.pool.size + w.fresh.length = before.length + (after.length + 1) := by
      rw [← ConnectionPool.size_add, ConnectionPool.size, hentries, List.length_append,
        List.length_cons]
    refine hc.settle ha rfl hw rfl rfl ?_
    simp only [ConnectionPool.size, List.length_append, List.length_cons] at hsize ⊢
    omega
  | free hw => exact hc.shrink rfl hw rfl rfl ConnectionPool.size_free_le
  | close hw hp => exact hc.shrink rfl hw rfl rfl (Nat.zero_le _)
  | closeAgain hw hp => exact hc

theorem reachable {config : ClientConfig} (h : (machine config).Reachable c) : Budget c :=
  Machine.invariant (start config) (fun _ _ _ hc hs => hc.step (step_cases hs)) h

end Budget

/-- **A pool keeps within its bound.** At every point of every interleaving, the connections of the
pool and the dials under way are together no more than the upper bound. The dials under way are
those that the allocations between `plan` and `commit` have planned: none of these takes more off
the count than is noted, and nothing is noted when there are none. So there are never more
connections than the upper bound. -/
theorem pool_keeps_within_its_bound {config : ClientConfig} (h : (machine config).Reachable c) :
    c.pool.size + c.pool.dialing ≤ config.normalized.maxConnections ∧
    c.pool.dialing = (c.allocations.map AllocationStage.reserved).sum ∧
    (∀ n w, .dialing n w ∈ c.allocations → n ≤ c.pool.dialing) ∧
    ((∀ n w, .dialing n w ∉ c.allocations) → c.pool.dialing = 0) ∧
    c.pool.size ≤ config.normalized.maxConnections := by
  have hbudget := Budget.reachable h
  have hwithin : c.pool.size + c.pool.dialing ≤ config.normalized.maxConnections := by
    rw [← config_reachable h]
    exact hbudget.within
  refine ⟨hwithin, hbudget.ledger, ?_, ?_, by omega⟩
  · intro n w hmem
    rw [hbudget.ledger]
    exact reserved_le hmem
  · intro hnone
    rw [hbudget.ledger]
    exact reserved_eq_zero hnone

/-- Bounds that make no sense as they stand; they come to one and two. -/
private def roomForTwo : ClientConfig := { ClientConfig.sample with
  minConnections := 0
  maxConnections := 2 }

/-- One loan is out; of the two that come after, the first dials and the second finds no room left,
and the loan comes back while the dial is under way. -/
private def rush : List ClientEvent :=
  [.warm true, .ready, .plan, .commit 0, .plan, .plan, .free ⟨0⟩]

theorem the_second_dial_finds_no_room :
    ∃ c, (machine roomForTwo).Reachable c ∧ c.pool.size = 1 ∧ c.pool.dialing = 1 ∧
      c.allocations.length = 3 ∧ c.pool.size + c.pool.dialing ≤ 2 := by
  have hrun : (machine roomForTwo).run (new roomForTwo) rush =
      some (((machine roomForTwo).run (new roomForTwo) rush).getD (new roomForTwo)) := by rfl
  have hreach := (Machine.reachable_iff (machine roomForTwo) _).2 ⟨rush, hrun⟩
  exact ⟨_, hreach, by rfl, by rfl, by rfl, (pool_keeps_within_its_bound hreach).1⟩

end Client

end ClusterLink
