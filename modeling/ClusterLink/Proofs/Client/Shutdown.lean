import ClusterLink.Proofs.Client.Calls
import ClusterLink.Proofs.Client.Custody
/-!
# What becomes of the connections in the end

A closed pool is empty and stays so: an allocation that starts later is refused at once, and one that
was dialing when the pool was closed is refused when it comes back, and closes what it has dialed.
Since every connection is with a caller or with the pool until it is closed, none is left open when
the last of these allocations is over.

Results:
* `Client.Emptied.reachable`: a closed pool has no connections.
* `Client.result?_of_step`: on a closed pool an allocation can only be refused.
* `Client.no_connection_leaks`: where the connections of a client are, and what comes of them when it
  is closed.
-/
namespace ClusterLink.Client

variable {b c d : Client} {e : ClientEvent} {config : ClientConfig}
  {first later : List AllocationStage} {i : Nat} {result : Except ClientError ConnectionId}

theorem result?_eq_some :
    c.result? i = some result ↔ c.allocations[i]? = some (.ended result) := by
  unfold result?
  split
  · next h => simp [h]
  · next h =>
    simp only [reduceCtorEq, false_iff]
    exact h result

/-- A closed pool has no connections. Nobody is connecting any more when a pool is closed. -/
structure Emptied (c : Client) : Prop where
  connected : c.pool.isClosed = true → c.connecting = none
  empty : c.pool.isClosed = true → c.pool.entries = []

namespace Emptied

theorem start (config : ClientConfig) : Emptied (new config) where
  connected := by
    intro hp
    cases hp
  empty := by
    intro hp
    cases hp

theorem step (h : c.Step e d) (hc : Emptied c) : Emptied d := by
  cases h with
  | warm hw hleft =>
    refine { hc with connected := ?_ }
    intro hp
    rw [hc.connected hp] at hw
    cases hw
  | ready hw hleft =>
    constructor
    · intro hp
      rfl
    · intro hp
      rw [hc.connected hp] at hw
      cases hw
  | plan hw hp hn => exact ⟨fun _ => hw, fun hclosed => absurd hclosed (by simp [hp])⟩
  | lend hw ha hleft hp hentries hidle =>
    exact ⟨fun _ => hw, fun hclosed => absurd hclosed (by simp [hp])⟩
  | @free id hw =>
    refine ⟨fun _ => hw, ?_⟩
    intro hclosed
    have hsub := c.pool.connections_free_sublist c.isClosed c.config.minConnections id
    rw [ConnectionPool.connections, ConnectionPool.connections, hc.empty hclosed] at hsub
    exact List.map_eq_nil_iff.1 (List.sublist_nil.1 hsub)
  | close hw hp => exact ⟨fun _ => hw, fun _ => rfl⟩
  | _ => exact { hc with }

theorem reachable (h : (machine config).Reachable c) : Emptied c :=
  Machine.invariant (start config) (fun _ _ _ hc hs => hc.step (step_cases hs)) h

end Emptied

/-! ## A closed pool -/

theorem isClosed_of_step (h : c.Step e d) (hp : c.pool.isClosed = true) :
    d.pool.isClosed = true := by
  cases h with
  | close hw hopen => rfl
  | _ => exact hp

/-- A list with another stage in one place has the same in all others. -/
theorem getElem?_changed {a s x : AllocationStage} (h : (first ++ s :: later)[i]? = some x) :
    x = s ∨ (first ++ a :: later)[i]? = some x := by
  rcases Nat.lt_or_ge i first.length with hi | hi
  · rw [List.getElem?_append_left hi] at h ⊢
    exact Or.inr h
  · rw [List.getElem?_append_right hi] at h ⊢
    cases hk : i - first.length with
    | zero =>
      rw [hk, List.getElem?_cons_zero] at h
      exact Or.inl (Option.some.inj h).symm
    | succ k =>
      rw [hk] at h
      exact Or.inr h

/-- On a closed pool an allocation can only be refused. -/
theorem result?_of_step (h : c.Step e d) (hp : c.pool.isClosed = true)
    (hresult : d.result? i = some result) : c.result? i = some result ∨ result = .error .closed := by
  rw [result?_eq_some] at hresult ⊢
  cases h with
  | refuse hw _ =>
    rcases Nat.lt_or_ge i c.allocations.length with hi | hi
    · rw [List.getElem?_append_left hi] at hresult
      exact Or.inl hresult
    · rw [List.getElem?_append_right hi] at hresult
      cases List.mem_singleton.1 (List.mem_of_getElem? hresult)
      exact Or.inr rfl
  | @dial first later n w success hw ha hleft =>
    rw [ha]
    exact (getElem?_changed hresult).elim (fun heq => by cases heq) Or.inl
  | reject hw ha hleft _ =>
    rw [ha]
    exact (getElem?_changed hresult).elim (fun heq => by cases heq; exact Or.inr rfl) Or.inl
  | plan hw hopen hn => simp [hp] at hopen
  | lack hw ha hleft hopen hentries hfresh => simp [hp] at hopen
  | lend hw ha hleft hopen hentries hidle => simp [hp] at hopen
  | _ => exact Or.inl hresult

theorem closed_of_run {events : List ClientEvent} (hp : b.pool.isClosed = true)
    (hrun : (machine config).run b events = some c) :
    c.pool.isClosed = true ∧
      ∀ i result, c.result? i = some result → b.result? i = some result ∨ result = .error .closed := by
  refine @Machine.run_induction _ _ (machine config) (fun _ c => c.pool.isClosed = true ∧
    ∀ i result, c.result? i = some result → b.result? i = some result ∨ result = .error .closed)
    b c ⟨hp, fun _ _ => Or.inl⟩ ?_ events hrun
  intro events u e v _ hu hs
  have hstep := step_cases hs
  refine ⟨isClosed_of_step hstep hu.1, ?_⟩
  intro i result hresult
  rcases result?_of_step hstep hu.1 hresult with hbefore | hclosed
  · exact hu.2 i result hbefore
  · exact Or.inr hclosed

/-- What holds for good once a client is closed: its pool is empty, an allocation that comes to its
end or starts is refused, whatever its dials come to, and when none is under way any more then every
connection that was ever dialed is closed. `b` is the client that was closed, `c` what it is later. -/
structure Released (b c : Client) : Prop where
  closed : c.pool.isClosed = true
  empty : c.pool.entries = []
  starts : ∀ dials, (c.allocate dials).1 = .error .closed
  commits : ∀ i n w, c.allocations[i]? = some (.dialing n w) → w.left = 0 →
    ∃ d, c.step (.commit i) = some d ∧ d.result? i = some (.error .closed)
  refused : ∀ i result, c.result? i = some result → b.result? i = none → result = .error .closed
  unheld : (∀ n w, .dialing n w ∉ c.allocations) →
    ∀ id : ConnectionId, id.number < c.dialed → c.isClosed id = true

theorem commit_of_closed (hc : c.connecting = none) (hp : c.pool.isClosed = true) {n : Nat}
    {w : Dialing} (ha : c.allocations[i]? = some (.dialing n w)) (hleft : w.left = 0) :
    ∃ d, c.step (.commit i) = some d ∧ d.result? i = some (.error .closed) := by
  obtain ⟨first, later, hsplit, rfl, -⟩ := split_allocations ha
  obtain ⟨closed, loans, hstep⟩ := step_commit hc hsplit hleft
  refine ⟨_, hstep, ?_⟩
  rw [result?_eq_some]
  simp [ConnectionPool.commit, hp]

theorem not_kept (h : (machine config).Reachable c) (hp : c.pool.isClosed = true)
    (hnone : ∀ n w, .dialing n w ∉ c.allocations) (id : ConnectionId) : id ∉ c.kept := by
  intro hkept
  have hemptied := Emptied.reachable h
  rcases List.mem_append.1 hkept with hheld | hpooled
  · rcases mem_held.1 hheld with ⟨w, hw, -⟩ | ⟨n, w, ha, -⟩
    · rw [hemptied.connected hp] at hw
      cases hw
    · exact hnone n w ha
  · rw [ConnectionPool.connections, hemptied.empty hp] at hpooled
    cases hpooled

theorem released_of_closed (h : (machine config).Reachable c) (hp : c.pool.isClosed = true)
    (hresults : ∀ i result, c.result? i = some result →
      b.result? i = some result ∨ result = .error .closed) : Released b c where
  closed := hp
  empty := (Emptied.reachable h).empty hp
  starts := by
    intro dials
    rw [allocate_of_closed ((Emptied.reachable h).connected hp) hp]
  commits := fun i n w ha hleft =>
    commit_of_closed ((Emptied.reachable h).connected hp) hp ha hleft
  refused := by
    intro i result hresult hnone
    apply (hresults i result hresult).resolve_left
    rw [hnone]
    exact nofun
  unheld := by
    intro hnone id hid
    rcases (Custody.reachable h).accounted id hid with hkept | hclosed
    · exact absurd hkept (not_kept h hp hnone id)
    · exact List.contains_iff_mem.2 hclosed

theorem closed_of_close (h : c.Step .close d) :
    d.pool.isClosed = true ∧ ∀ i, d.result? i = c.result? i := by
  cases h with
  | close hw hp => exact ⟨rfl, fun i => rfl⟩
  | closeAgain hw hp => exact ⟨hp, fun i => rfl⟩

/-- **No connection leaks.** Whatever the interleaving, each connection that was dialed is with the
pool, closed, with the caller that connects, or with an allocation between `plan` and `commit`. Once
a client is closed, what `Released` says holds of it for good. -/
theorem no_connection_leaks (h : (machine config).Reachable c) :
    (∀ id : ConnectionId, id.number < c.dialed →
      id ∈ c.pool.connections ∨ c.isClosed id = true ∨
        (∃ w, c.connecting = some w ∧ id ∈ w.fresh) ∨
        ∃ n w, .dialing n w ∈ c.allocations ∧ id ∈ w.fresh) ∧
    ∀ later d, (machine config).run c (.close :: later) = some d → Released c d := by
  constructor
  · intro id hid
    rcases (Custody.reachable h).accounted id hid with hkept | hclosed
    · rcases List.mem_append.1 hkept with hheld | hpooled
      · exact Or.inr (Or.inr (mem_held.1 hheld))
      · exact Or.inl hpooled
    · exact Or.inr (Or.inl (List.contains_iff_mem.2 hclosed))
  · intro later d hrun
    obtain ⟨b, hclose, hlater⟩ := Option.bind_eq_some_iff.1 hrun
    obtain ⟨hp, hsame⟩ := closed_of_close (step_cases hclose)
    obtain ⟨hshut, hresults⟩ := closed_of_run hp hlater
    apply released_of_closed (h.run hrun) hshut
    intro i result hresult
    rw [← hsame i]
    exact hresults i result hresult

/-! ## Closed while dialing -/

/-- The only connection is on loan, so a second allocation dials. -/
private def borrowed : List ClientEvent := [.warm true, .ready, .plan, .commit 0, .plan]

/-- The dial succeeds, and a third allocation starts. -/
private def late : List ClientEvent := [.dial 1 true, .plan, .commit 1]

theorem a_connection_that_is_dialed_too_late_is_closed :
    ∃ c d, (machine .sample).Reachable c ∧ (machine .sample).run c (.close :: late) = some d ∧
      c.result? 0 = some (.ok ⟨0⟩) ∧ d.result? 1 = some (.error .closed) ∧
      d.result? 2 = some (.error .closed) ∧ d.pool.entries = [] ∧ d.dialed = 2 ∧
      d.isClosed ⟨0⟩ = true ∧ d.isClosed ⟨1⟩ = true := by
  have hrun : (machine .sample).run (new .sample) borrowed =
      some (((machine .sample).run (new .sample) borrowed).getD (new .sample)) := by rfl
  have hreach := (Machine.reachable_iff (machine .sample) _).2 ⟨borrowed, hrun⟩
  obtain ⟨d, hlate, hd⟩ : ∃ d, (machine .sample).run
      (((machine .sample).run (new .sample) borrowed).getD (new .sample)) (.close :: late) = some d ∧
      d.allocations = [.ended (.ok ⟨0⟩), .ended (.error .closed), .ended (.error .closed)] ∧
      d.dialed = 2 := ⟨_, rfl, rfl, rfl⟩
  have hreleased := (no_connection_leaks hreach).2 late d hlate
  have hclosed := hreleased.unheld (by simp [hd.1])
  refine ⟨_, d, hreach, hlate, rfl, ?_, ?_, hreleased.empty, hd.2, ?_, ?_⟩
  · simp [result?, hd.1]
  · simp [result?, hd.1]
  · exact hclosed ⟨0⟩ (by simp [hd.2])
  · exact hclosed ⟨1⟩ (by simp [hd.2])

end ClusterLink.Client
