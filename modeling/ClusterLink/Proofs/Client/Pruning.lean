import ClusterLink.Client.Pool
/-!
# What a pool drops

A pool looks which of its connections are closed before it dials, and when a loan comes back. All
others it keeps, up to the idle extras.

Results:
* `ConnectionPool.mem_prune`, `ConnectionPool.open_of_mem_free`: what is left is open.
* `ConnectionPool.drops_iff`: pools drop a connection exactly if it is closed.
-/
namespace ClusterLink.ConnectionPool

variable {closed : ConnectionId → Bool} {p q : ConnectionPool} {e : PoolEntry} {id : ConnectionId}

theorem mem_prune : e ∈ (p.prune closed).entries ↔ e ∈ p.entries ∧ closed e.connection = false := by
  simp [prune]

@[simp] theorem dialing_prune : (p.prune closed).dialing = p.dialing := rfl

@[simp] theorem isClosed_prune : (p.prune closed).isClosed = p.isClosed := rfl

theorem entries_plan {n least most : Nat} (h : p.plan closed least most = .ok (n, q)) :
    q.entries = (p.prune closed).entries := by
  unfold plan at h
  split at h <;> cases h
  rfl

theorem dropIdle_sublist (extras : Nat) (entries : List PoolEntry) :
    (dropIdle extras entries).2.Sublist entries := by
  fun_induction dropIdle extras entries with
  | case1 entries => exact List.Sublist.refl _
  | case2 => exact List.Sublist.refl _
  | case3 extras e rest hidle taken left hrec ih =>
    rw [hrec] at ih
    exact ih.cons e
  | case4 extras e rest hidle taken left hrec ih =>
    rw [hrec] at ih
    exact ih.cons_cons e

theorem open_of_mem_free {least : Nat} (h : e ∈ (p.free closed least id).2.entries) :
    closed e.connection = false := by
  have hleft := (dropIdle_sublist _ _).subset (List.mem_reverse.1 h)
  exact (mem_prune.1 (List.mem_reverse.1 hleft)).2

/-- Whether every pool gives a connection up as soon as it looks: before it dials, and when a loan
comes back. -/
structure Drops (closed : ConnectionId → Bool) (id : ConnectionId) : Prop where
  plan : ∀ (p q : ConnectionPool) (n least most : Nat), p.plan closed least most = .ok (n, q) →
    ∀ e ∈ q.entries, e.connection ≠ id
  free : ∀ (p : ConnectionPool) (least : Nat) (freed : ConnectionId),
    ∀ e ∈ (p.free closed least freed).2.entries, e.connection ≠ id

/-- **Pools drop a connection exactly if it is closed.** -/
theorem drops_iff : Drops closed id ↔ closed id = true := by
  constructor
  · intro h
    apply Classical.byContradiction
    intro hopen
    have hfalse : closed id = false := by simpa using hopen
    -- A pool with nothing but that connection keeps it.
    have hkept : (⟨id, 0⟩ : PoolEntry) ∈ (prune closed { entries := [⟨id, 0⟩] }).entries :=
      mem_prune.2 ⟨List.mem_singleton.2 rfl, hfalse⟩
    exact h.plan { entries := [⟨id, 0⟩] } _ _ 0 0 rfl _ hkept rfl
  · intro hclosed
    constructor
    · intro p q n least most hplan e he hid
      rw [entries_plan hplan, mem_prune, hid, hclosed] at he
      cases he.2
    · intro p least freed e he hid
      have hopen := open_of_mem_free he
      rw [hid, hclosed] at hopen
      cases hopen

end ClusterLink.ConnectionPool
