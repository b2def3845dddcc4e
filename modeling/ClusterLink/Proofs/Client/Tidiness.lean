import ClusterLink.Proofs.Client.Calls
import ClusterLink.Proofs.Client.Capacity
/-!
# No idle extras

A pool is tidy if it has no more connections than the lower bound, or none of them is idle. An
allocation adds to a pool that is full up to the lower bound only if nothing in it is idle, and lends
what it has added; a loan that comes back has idle extras closed. So a caller who is alone with a
client finds its pool tidy after each call.

Results:
* `ConnectionPool.Tidy.allocate`: an allocation keeps a pool tidy.
* `Client.Settled.perform`: so does every call.
* `Client.no_idle_extras`: all of it for any sequence of calls.
-/
namespace ClusterLink

namespace ConnectionPool

variable {closed : ConnectionId → Bool} {p q : ConnectionPool} {id : ConnectionId}
  {n least most : Nat} {fresh : List ConnectionId}

/-- How many connections are idle. -/
def idle (p : ConnectionPool) : Nat := p.entries.countP (·.isIdle)

theorem idle_eq_zero_iff : p.idle = 0 ↔ ∀ x ∈ p.entries, 0 < x.loans := by
  simp [idle, List.countP_eq_zero, PoolEntry.isIdle, Nat.pos_iff_ne_zero]

theorem hasIdle_eq_false_iff : p.hasIdle = false ↔ p.idle = 0 := by
  simp [hasIdle, idle, List.countP_eq_zero]

theorem idle_add : (p.add fresh).idle = p.idle + fresh.length := by
  simp [idle, add, List.countP_append, List.countP_map, Function.comp_def, PoolEntry.isIdle]

theorem idle_prune_le (closed : ConnectionId → Bool) (p : ConnectionPool) :
    (p.prune closed).idle ≤ p.idle :=
  List.filter_sublist.countP_le

/-- What is lent is an idle connection if there is one. -/
theorem idle_commit (hp : p.isClosed = false) :
    (p.commit n fresh).2.idle = p.idle + fresh.length - 1 := by
  rcases commit_cases n fresh p with ⟨hclosed, -⟩ | ⟨-, hentries, hfresh, h⟩ |
    ⟨-, before, x, after, hentries, hidle, h⟩
  · rw [hp] at hclosed
    cases hclosed
  · rw [h]
    simp [idle, hentries, hfresh]
  · have hlent : ({ x with loans := x.loans + 1 } : PoolEntry).isIdle = false := by
      simp [PoolEntry.isIdle]
    have hcount : (p.add fresh).idle = before.countP (·.isIdle) +
        (after.countP (·.isIdle) + if x.isIdle = true then 1 else 0) := by
      rw [idle, hentries, List.countP_append, List.countP_cons]
    rw [← idle_add, h]
    simp only [idle, List.countP_append, List.countP_cons, hlent, Bool.false_eq_true, if_false]
    by_cases hany : (p.add fresh).hasIdle = true
    · rw [if_pos (hidle hany), idle] at hcount
      omega
    · have hnone := hasIdle_eq_false_iff.1 (eq_false_of_ne_true hany)
      rw [hnone] at hcount
      rw [idle] at hnone
      omega

theorem size_commit (hp : p.isClosed = false) :
    (p.commit n fresh).2.size = p.size + fresh.length := by
  rcases commit_cases n fresh p with ⟨hclosed, -⟩ | ⟨-, -, hfresh, h⟩ |
    ⟨-, before, x, after, hentries, -, h⟩
  · rw [hp] at hclosed
    cases hclosed
  · rw [h, hfresh]
    rfl
  · rw [← size_add, h]
    simp [size, hentries]

theorem dialing_commit : (p.commit n fresh).2.dialing = p.dialing - n := by
  rcases commit_cases n fresh p with ⟨-, h⟩ | ⟨-, -, -, h⟩ | ⟨-, before, x, after, -, -, h⟩ <;> rw [h]

/-- No more connections than the lower bound, or none of them idle. -/
def Tidy (least : Nat) (p : ConnectionPool) : Prop := p.size ≤ least ∨ p.idle = 0

theorem tidy_free : (p.free closed least id).2.Tidy least :=
  few_or_on_loan_of_free.imp_right idle_eq_zero_iff.2

/-- An allocation keeps a pool tidy for which nothing is dialed already. -/
theorem Tidy.allocate (h : p.Tidy least) (hdialing : p.dialing = 0)
    (hplan : p.plan closed least most = .ok (n, q)) (hfresh : fresh.length ≤ n) :
    (q.commit n fresh).2.Tidy least := by
  obtain ⟨hp, hn, hq⟩ := plan_eq_ok hplan
  have hsize := p.size_prune_le closed
  have hidle := p.idle_prune_le closed
  have hopen : q.isClosed = false := by rw [hq]; exact hp
  have hqsize : q.size = (p.prune closed).size := by rw [hq]; rfl
  have hqidle : q.idle = (p.prune closed).idle := by rw [hq]; rfl
  rw [Tidy, size_commit hopen, idle_commit hopen, hqsize, hqidle]
  simp only [wanted, dialing_prune, hdialing, hasIdle_eq_false_iff] at hn
  split at hn
  · -- Everything is on loan, and what is dialed is lent.
    next hfull => exact Or.inr (by omega)
  · -- What is dialed was missing; if nothing was, nothing is dialed.
    rcases h with hfew | hnone
    · exact Or.inl (by omega)
    · by_cases hmissing : (p.prune closed).size < least
      · exact Or.inl (by omega)
      · exact Or.inr (by omega)

end ConnectionPool

namespace Client

variable {c d : Client} {config : ClientConfig}

/-- A client that nobody is using, with a tidy pool. -/
structure Settled (config : ClientConfig) (c : Client) : Prop where
  connected : c.connecting = none
  settings : c.config = config.normalized
  undialed : c.pool.dialing = 0
  tidy : c.pool.Tidy config.normalized.minConnections

namespace Settled

theorem connect (config : ClientConfig) (dials : List Bool) :
    Settled config (connect config dials) := by
  obtain ⟨c, w, hreach, hw, hleft, h⟩ := connect_eq config dials
  obtain ⟨hdialing, hsize⟩ := (Budget.reachable hreach).warming w hw
  rw [config_reachable hreach] at hsize
  rw [h]
  refine ⟨rfl, config_reachable (c := c) hreach, hdialing, Or.inl ?_⟩
  rw [ConnectionPool.size_add]
  omega

theorem free (hc : Settled config c) (id : ConnectionId) : Settled config (c.free id) := by
  obtain ⟨closed, loans, h⟩ := free_eq hc.connected id
  rw [h, hc.settings]
  exact ⟨hc.connected, rfl, hc.undialed, ConnectionPool.tidy_free⟩

theorem lose (hc : Settled config c) (lost : List ConnectionId) : Settled config (c.lose lost) := by
  obtain ⟨closed, h⟩ := lose_eq lost c
  rw [h]
  exact { hc with }

theorem close (hc : Settled config c) : Settled config c.close := by
  obtain ⟨closed, h⟩ := close_eq hc.connected
  rw [h]
  cases hp : c.pool.isClosed with
  | true =>
    rw [ConnectionPool.close_of_closed hp]
    exact { hc with }
  | false =>
    rw [ConnectionPool.close_of_open hp]
    exact ⟨hc.connected, hc.settings, hc.undialed, Or.inr rfl⟩

theorem allocate (hc : Settled config c) (dials : List Bool) :
    Settled config (c.allocate dials).2 := by
  cases hp : c.pool.isClosed with
  | true =>
    rw [allocate_of_closed hc.connected hp]
    exact { hc with }
  | false =>
    obtain ⟨n, p, fresh, allocations, dialed, closed, loans, hplan, hlength, -, h⟩ :=
      allocate_of_open hc.connected hp dials
    rw [hc.settings] at hplan
    rw [h]
    refine ⟨hc.connected, hc.settings, ?_, hc.tidy.allocate hc.undialed hplan hlength⟩
    obtain ⟨-, -, rfl⟩ := ConnectionPool.plan_eq_ok hplan
    simp [ConnectionPool.dialing_commit, hc.undialed]

theorem use {α : Type} (hc : Settled config c) (dials : List Bool)
    (exchange : ConnectionId → Except ConnectionError α × List ConnectionId) :
    Settled config (c.use dials exchange).2 := by
  have hallocated := hc.allocate dials
  rcases h : c.allocate dials with ⟨result, d⟩
  rw [h] at hallocated
  cases result with
  | error cause => rwa [use_of_error h]
  | ok id =>
    rw [use_of_ok h]
    exact (hallocated.lose _).free id

/-- Every call leaves the pool tidy. -/
theorem perform (hc : Settled config c) (call : ClientCall) : Settled config (c.perform call) := by
  cases call with
  | allocate dials => exact hc.allocate dials
  | free id => exact hc.free id
  | send dials exchange m => exact hc.use dials (exchange m)
  | ping dials exchange id => exact hc.use dials (exchange (.bare id .ping))
  | close => exact hc.close
  | drop id => exact hc.lose [id]

end Settled

/-- **No idle extras.** Whatever a caller who is alone with a client asks of it, in any order, with
whatever dials and requests come to and connections closed by others in between, after each call the
pool has no more connections than the lower bound, or all of them are on loan. -/
theorem no_idle_extras (config : ClientConfig) (dials : List Bool) (calls : List ClientCall) :
    (calls.foldl perform (connect config dials)).pool.size ≤ config.normalized.minConnections ∨
      ∀ x ∈ (calls.foldl perform (connect config dials)).pool.entries, 0 < x.loans := by
  have hsettled : Settled config (calls.foldl perform (connect config dials)) :=
    List.foldlRecOn calls perform (Settled.connect config dials) fun c hc call _ => hc.perform call
  exact hsettled.tidy.imp_right ConnectionPool.idle_eq_zero_iff.1

private def twoLoans : List ClientCall := [.allocate [], .allocate [true]]

/-- A second loan makes the pool grow beyond its lower bound, as everything in it is on loan; the
loan that comes back first makes it shrink again. -/
theorem growth_is_lent_and_given_up_again :
    (twoLoans.foldl perform (connect .sample [true])).pool.size = 2 ∧
      (∀ x ∈ (twoLoans.foldl perform (connect .sample [true])).pool.entries, 0 < x.loans) ∧
      ((twoLoans ++ [ClientCall.free ⟨0⟩]).foldl perform (connect .sample [true])).pool.size = 1 := by
  have hsize : (twoLoans.foldl perform (connect .sample [true])).pool.size = 2 := by rfl
  refine ⟨hsize, ?_, by rfl⟩
  apply (no_idle_extras .sample [true] twoLoans).resolve_left
  rw [hsize]
  decide

end Client

end ClusterLink
