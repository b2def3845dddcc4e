import ClusterLink.Proofs.Client.Steps
/-!
# Who has a connection

A connection that was dialed is with the caller that dialed it until that caller hands it to the
pool, and then with the pool. Each step hands connections over, adds the one it has dialed and lets
go of some; those it lets go of are closed. So there is one place at most for each connection, and
one that has none is closed.

Results:
* `Client.held_of_step`: what a caller holds it has dialed.
* `Client.handsOver_of_step`: what was kept and what was dialed is what is kept and what is closed.
* `Client.Custody.reachable`: no connection is in two places, and each is in one or closed.
-/
namespace ClusterLink

namespace ConnectionPool

variable {p : ConnectionPool}

@[simp] theorem connections_add (fresh : List ConnectionId) :
    (p.add fresh).connections = p.connections ++ fresh := by
  simp [connections, add, Function.comp_def]

theorem connections_prune_sublist {closed : ConnectionId → Bool} :
    (p.prune closed).connections.Sublist p.connections :=
  List.filter_sublist.map _

end ConnectionPool

/-- The connections that a caller has dialed and not handed over. -/
def AllocationStage.held : AllocationStage → List ConnectionId
  | dialing _ w => w.fresh
  | ended _ => []

/-- The connection that a step dials. -/
def ClientEvent.opened (dialed : Nat) : ClientEvent → List ConnectionId
  | warm success | dial _ success => if success then [⟨dialed⟩] else []
  | _ => []

namespace ClientEvent

variable {dialed : Nat}

theorem opened_cases (e : ClientEvent) (dialed : Nat) :
    e.opened dialed = [] ∨ e.opened dialed = [⟨dialed⟩] := by
  cases e with
  | warm success | dial _ success => cases success <;> simp [opened]
  | _ => exact Or.inl rfl

theorem nodup_opened (e : ClientEvent) (dialed : Nat) : (e.opened dialed).Nodup := by
  rcases opened_cases e dialed with h | h <;> simp [h]

/-- What is dialed has the next number. -/
theorem mem_opened {e : ClientEvent} {id : ConnectionId} : id ∈ e.opened dialed ↔
    dialed ≤ id.number ∧ id.number < dialed + (e.opened dialed).length := by
  rcases opened_cases e dialed with h | h
  · simp only [h, List.not_mem_nil, List.length_nil, false_iff]
    omega
  · obtain ⟨number⟩ := id
    simp only [h, List.mem_singleton, ConnectionId.mk.injEq, List.length_singleton]
    omega

end ClientEvent

namespace Client

variable {c d : Client} {e : ClientEvent} {id : ConnectionId} {first later : List AllocationStage}

/-- The connections that no caller has handed over yet. -/
def held (c : Client) : List ConnectionId :=
  (c.connecting.elim [] Dialing.fresh) ++ c.allocations.flatMap AllocationStage.held

/-- The connections that are with a caller or with the pool. -/
def kept (c : Client) : List ConnectionId := c.held ++ c.pool.connections

theorem mem_held : id ∈ c.held ↔
    (∃ w, c.connecting = some w ∧ id ∈ w.fresh) ∨
      ∃ n w, .dialing n w ∈ c.allocations ∧ id ∈ w.fresh := by
  rw [held, List.mem_append, List.mem_flatMap]
  apply or_congr
  · cases c.connecting <;> simp
  · constructor
    · rintro ⟨a, ha, hid⟩
      cases a with
      | dialing n w => exact ⟨n, w, ha, hid⟩
      | ended result => cases hid
    · rintro ⟨n, w, ha, hid⟩
      exact ⟨_, ha, hid⟩

theorem mem_closed_closeAll {ids : List ConnectionId} :
    id ∈ (c.closeAll ids).closed ↔ id ∈ c.closed ∨ id ∈ ids := by
  by_cases h : id ∈ c.closed <;> simp [closeAll, h]

theorem closed_subset_closeAll {ids : List ConnectionId} : c.closed ⊆ (c.closeAll ids).closed :=
  List.subset_append_left ..

/-- An allocation that has ended holds nothing. -/
theorem held_of_ended {a : AllocationStage} {result : Except ClientError ConnectionId}
    (hc : c.allocations = first ++ a :: later)
    (hid : id ∈ ({ c with allocations := first ++ .ended result :: later } : Client).held) :
    id ∈ c.held := by
  simp only [held, hc, AllocationStage.held, List.flatMap_append, List.flatMap_cons,
    List.mem_append, List.nil_append] at hid ⊢
  exact hid.imp_right (Or.imp_right Or.inr)

/-- What a caller holds it held before, or it was just dialed. -/
theorem held_of_step (h : c.Step e d) (hid : id ∈ d.held) :
    id ∈ c.held ∨ id ∈ e.opened c.dialed := by
  cases h with
  | warm hw hleft =>
    simp only [held, hw, Option.elim_some, Dialing.fresh_next, List.mem_append] at hid ⊢
    rcases hid with (hid | hid) | hid
    · exact Or.inl (Or.inl hid)
    · exact Or.inr hid
    · exact Or.inl (Or.inr hid)
  | ready hw hleft =>
    simp only [held, Option.elim_none, List.nil_append] at hid
    exact Or.inl (List.mem_append_right _ hid)
  | refuse hw hp => simpa [held, AllocationStage.held, ClientEvent.opened] using hid
  | plan hw hp hn => simpa [held, AllocationStage.held, ClientEvent.opened] using hid
  | dial hw ha hleft =>
    simp only [held, ha, hw, AllocationStage.held, Option.elim_none, Dialing.fresh_next,
      List.flatMap_append, List.flatMap_cons, List.mem_append, List.not_mem_nil, false_or] at hid ⊢
    rcases hid with hid | (hid | hid) | hid
    · exact Or.inl (Or.inl hid)
    · exact Or.inl (Or.inr (Or.inl hid))
    · exact Or.inr hid
    · exact Or.inl (Or.inr (Or.inr hid))
  | reject hw ha hleft hp => exact Or.inl (held_of_ended ha hid)
  | lack hw ha hleft hp hentries hfresh => exact Or.inl (held_of_ended ha hid)
  | lend hw ha hleft hp hentries hidle => exact Or.inl (held_of_ended ha hid)
  | drop | free | close | closeAgain => exact Or.inl hid

/-- A step hands connections over, and what it lets go of is closed. -/
structure HandsOver (c : Client) (e : ClientEvent) (d : Client) : Prop where
  dialed : d.dialed = c.dialed + (e.opened c.dialed).length
  closed : c.closed ⊆ d.closed
  balance : ∃ gone, (d.kept ++ gone).Perm (c.kept ++ e.opened c.dialed) ∧ gone ⊆ d.closed

/-- A pool that has no connection twice may let go of those that are closed. -/
theorem handsOver_of_sublist (hnodup : c.pool.connections.Nodup)
    (hsub : d.pool.connections.Sublist c.pool.connections)
    (hgone : ∀ id ∈ c.pool.connections, id ∈ d.pool.connections ∨ id ∈ d.closed)
    (hheld : d.held = c.held) (hopened : e.opened c.dialed = []) (hdialed : d.dialed = c.dialed)
    (hclosed : c.closed ⊆ d.closed) : HandsOver c e d := by
  obtain ⟨gone, hperm⟩ := hsub.exists_perm_append
  refine ⟨by rw [hopened, hdialed]; rfl, hclosed, gone, ?_, ?_⟩
  · rw [kept, kept, hheld, hopened, List.append_nil, List.append_assoc]
    exact hperm.symm.append_left c.held
  · intro id hid
    have hapart := (List.nodup_append.1 (hperm.nodup_iff.1 hnodup)).2.2
    rcases hgone id (hperm.mem_iff.2 (List.mem_append_right _ hid)) with hleft | hclosed
    · exact absurd rfl (hapart id hleft id hid)
    · exact hclosed

theorem handsOver_of_step (h : c.Step e d) (hnodup : c.pool.connections.Nodup) :
    HandsOver c e d := by
  cases h with
  | @warm w success hc hleft =>
    refine ⟨?_, List.Subset.refl _, [], ?_, List.nil_subset _⟩
    · cases success <;> rfl
    · rw [List.perm_iff_count]
      intro x
      simp only [kept, held, hc, Option.elim_some, Dialing.fresh_next, List.count_append,
        List.count_nil, ClientEvent.opened]
      omega
  | @ready w hc hleft =>
    refine ⟨rfl, List.Subset.refl _, [], ?_, List.nil_subset _⟩
    rw [List.perm_iff_count]
    intro x
    simp only [kept, held, hc, Option.elim_some, Option.elim_none, ConnectionPool.connections_add,
      ClientEvent.opened, List.count_append, List.count_nil]
    omega
  | drop hid => exact ⟨rfl, closed_subset_closeAll, [], List.Perm.refl _, List.nil_subset _⟩
  | refuse hc hp =>
    refine ⟨rfl, List.Subset.refl _, [], ?_, List.nil_subset _⟩
    simp [kept, held, AllocationStage.held, ClientEvent.opened]
  | @plan n hc hp hn =>
    refine handsOver_of_sublist hnodup ConnectionPool.connections_prune_sublist ?_ ?_ rfl rfl
      (List.Subset.refl _)
    · intro id hid
      obtain ⟨x, hx, rfl⟩ := ConnectionPool.mem_connections.1 hid
      by_cases hclosed : x.connection ∈ c.closed
      · exact Or.inr hclosed
      · have hkept : x ∈ (c.pool.prune c.isClosed).entries :=
          ConnectionPool.mem_prune.2 ⟨hx, by simpa [isClosed] using hclosed⟩
        exact Or.inl (ConnectionPool.mem_connections.2 ⟨x, hkept, rfl⟩)
    · simp [held, AllocationStage.held]
  | @dial first later n w success hc ha hleft =>
    refine ⟨?_, List.Subset.refl _, [], ?_, List.nil_subset _⟩
    · cases success <;> rfl
    · rw [List.perm_iff_count]
      intro x
      simp only [kept, held, ha, hc, AllocationStage.held, Dialing.fresh_next, Option.elim_none,
        List.flatMap_append, List.flatMap_cons, List.count_append, List.count_nil,
        ClientEvent.opened]
      omega
  | @reject first later n w hc ha hleft hp =>
    refine ⟨rfl, closed_subset_closeAll, w.fresh, ?_, ?_⟩
    · rw [List.perm_iff_count]
      intro x
      simp only [kept, held, ha, hc, AllocationStage.held, Option.elim_none, List.flatMap_append,
        List.flatMap_cons, List.count_append, List.count_nil, ClientEvent.opened,
        allocations_closeAll, connecting_closeAll, pool_closeAll, ConnectionPool.connections]
      omega
    · intro id hid
      exact mem_closed_closeAll.2 (Or.inr hid)
  | @lack first later n w hc ha hleft hp hentries hfresh =>
    refine ⟨rfl, List.Subset.refl _, [], ?_, List.nil_subset _⟩
    simp [kept, held, ha, hfresh, AllocationStage.held, ClientEvent.opened,
      ConnectionPool.connections]
  | @lend first later n w before after x hc ha hleft hp hentries hidle =>
    have hconnections : c.pool.connections ++ w.fresh =
        before.map (·.connection) ++ x.connection :: after.map (·.connection) := by
      rw [← ConnectionPool.connections_add, ConnectionPool.connections, hentries, List.map_append,
        List.map_cons]
    refine ⟨rfl, List.Subset.refl _, [], ?_, List.nil_subset _⟩
    rw [List.perm_iff_count]
    intro y
    have hcount := congrArg (List.count y) hconnections
    simp only [kept, held, ha, hc, AllocationStage.held, ConnectionPool.connections,
      Option.elim_none, List.flatMap_append, List.flatMap_cons, List.map_append, List.map_cons,
      List.count_append, List.count_nil, ClientEvent.opened] at hcount ⊢
    omega
  | @free returned hc =>
    refine handsOver_of_sublist hnodup (ConnectionPool.connections_free_sublist ..) ?_ rfl rfl rfl
      closed_subset_closeAll
    intro id hid
    rw [ConnectionPool.connections, ← ConnectionPool.map_connection_payBack returned] at hid
    obtain ⟨x, hx, rfl⟩ := List.mem_map.1 hid
    rcases ConnectionPool.mem_free_or_closed c.isClosed c.config.minConnections hx with
      hleft | hextra | hclosed
    · exact Or.inl (ConnectionPool.mem_connections.2 ⟨x, hleft, rfl⟩)
    · exact Or.inr (mem_closed_closeAll.2 (Or.inr hextra))
    · exact Or.inr (mem_closed_closeAll.2 (Or.inl (List.contains_iff_mem.1 hclosed)))
  | close hc hp =>
    refine handsOver_of_sublist hnodup (List.nil_sublist _) ?_ rfl rfl rfl closed_subset_closeAll
    intro id hid
    exact Or.inr (mem_closed_closeAll.2 (Or.inr hid))
  | closeAgain hc hp => exact ⟨rfl, List.Subset.refl _, [], List.Perm.refl _, List.nil_subset _⟩

/-- No connection is in two places, and each that was dialed is in one or closed. -/
structure Custody (c : Client) : Prop where
  once : c.kept.Nodup
  known : ∀ id ∈ c.kept, id.number < c.dialed
  accounted : ∀ id : ConnectionId, id.number < c.dialed → id ∈ c.kept ∨ id ∈ c.closed

namespace Custody

theorem start (config : ClientConfig) : Custody (new config) where
  once := List.nodup_nil
  known := by
    intro id hid
    cases hid
  accounted := by
    intro id hid
    cases hid

theorem nodup_connections (hc : Custody c) : c.pool.connections.Nodup :=
  hc.once.sublist (List.sublist_append_right ..)

/-- Every step keeps the connections in custody. -/
theorem step (h : c.Step e d) (hc : Custody c) : Custody d := by
  obtain ⟨hdialed, hclosed, gone, hperm, hgone⟩ := handsOver_of_step h hc.nodup_connections
  have honce : (c.kept ++ e.opened c.dialed).Nodup := by
    refine List.nodup_append.2 ⟨hc.once, ClientEvent.nodup_opened .., ?_⟩
    rintro x hx y hy rfl
    exact Nat.not_le_of_lt (hc.known x hx) (ClientEvent.mem_opened.1 hy).1
  constructor
  · exact (hperm.nodup_iff.2 honce).sublist (List.sublist_append_left ..)
  · intro id hid
    rw [hdialed]
    rcases List.mem_append.1 (hperm.subset (List.mem_append_left gone hid)) with hkept | hnew
    · exact Nat.lt_add_right _ (hc.known id hkept)
    · exact (ClientEvent.mem_opened.1 hnew).2
  · intro id hid
    rw [hdialed] at hid
    have hbefore : id ∈ c.kept ++ e.opened c.dialed ∨ id ∈ c.closed := by
      by_cases hold : id.number < c.dialed
      · exact (hc.accounted id hold).imp_left (List.mem_append_left _)
      · have hnew := ClientEvent.mem_opened.2 ⟨Nat.le_of_not_lt hold, hid⟩
        exact Or.inl (List.mem_append_right _ hnew)
    rcases hbefore with hmem | hmem
    · rcases List.mem_append.1 (hperm.symm.subset hmem) with hkept | hgoing
      · exact Or.inl hkept
      · exact Or.inr (hgone hgoing)
    · exact Or.inr (hclosed hmem)

theorem reachable {config : ClientConfig} (h : (machine config).Reachable c) : Custody c :=
  Machine.invariant (start config) (fun _ _ _ hc hs => hc.step (step_cases hs)) h

end Custody

end Client

end ClusterLink
