import ClusterLink.Proofs.Client.Calls
import ClusterLink.Proofs.Client.Custody
/-!
# Loans

Every allocation that succeeds gives a loan, and every `free` takes one back. As long as no loan
comes back that was not given, the count of a connection in the pool is the number of its loans that
have not come back. So none that comes back finds the count at zero, and what is evicted for being
idle is nobody's.

Results:
* `Client.Counted.step`: every step keeps the counts right.
* `Client.use_keepsLoans`: a call that borrows for its own use leaves the counts as they were.
* `Client.loans_are_accounted_for`: all of it after every run.
-/
namespace ClusterLink

/-- The loan that a step takes back. -/
def ClientEvent.paid : ClientEvent → List ConnectionId
  | free id => [id]
  | _ => []

/-- The loan that a step gives, if it leads to `after`. -/
def ClientEvent.lent (after : Client) : ClientEvent → List ConnectionId
  | commit i =>
    match after.result? i with
    | some (.ok id) => [id]
    | _ => []
  | _ => []

/-- The loans that some steps take back. -/
def paybacks (events : List ClientEvent) : List ConnectionId := events.flatMap ClientEvent.paid

namespace Client

variable {c d : Client} {e : ClientEvent} {id : ConnectionId} {config : ClientConfig}
  {events : List ClientEvent}

/-- The loans that some steps give. -/
def lendings (c : Client) : List ClientEvent → List ConnectionId
  | [] => []
  | e :: later =>
    match c.step e with
    | none => []
    | some d => e.lent d ++ d.lendings later

/-- Whether a loan of a connection was given and has not come back. -/
def OnLoan (config : ClientConfig) (events : List ClientEvent) (id : ConnectionId) : Prop :=
  (paybacks events).count id < ((new config).lendings events).count id

/-- Whether each loan that comes back was given before and had not come back. -/
def Balanced (config : ClientConfig) (events : List ClientEvent) : Prop :=
  ∀ before id later, events = before ++ .free id :: later → OnLoan config before id

/-! ## The counts of a pool -/

/-- The count of a connection is the number of its loans that have not come back. -/
structure Counted (c : Client) : Prop where
  counted : ∀ x ∈ c.pool.entries, x.loans = c.loans.count x.connection
  unlent : ∀ id ∈ c.held, id ∉ c.loans
  known : ∀ id ∈ c.loans, id.number < c.dialed

theorem mem_middle {α : Type} {x y : α} {before after : List α} :
    y ∈ before ++ x :: after ↔ y = x ∨ y ∈ before ∨ y ∈ after := by
  rw [List.mem_append, List.mem_cons, or_left_comm]

/-- What is on loan was on loan before, or it is lent from the pool. -/
theorem loans_of_step (h : c.Step e d) (hid : id ∈ d.loans) :
    id ∈ c.loans ∨ id ∈ d.pool.connections := by
  cases h with
  | lend hw ha hleft hp hentries hidle =>
    rcases List.mem_append.1 hid with hid | hid
    · exact Or.inl hid
    · rw [List.mem_singleton.1 hid]
      exact Or.inr (by simp [ConnectionPool.connections])
  | free hw => exact Or.inl (List.mem_of_mem_erase hid)
  | _ => exact Or.inl hid

namespace Counted

theorem start (config : ClientConfig) : Counted (new config) where
  counted := by simp [new]
  unlent := by simp [new]
  known := by simp [new]

/-- The counts are right when callers have handed over what they held: it is on nobody's loan. -/
theorem of_add (hc : Counted c) {fresh : List ConnectionId} (hfresh : ∀ id ∈ fresh, id ∈ c.held)
    {x : PoolEntry} (hx : x ∈ (c.pool.add fresh).entries) :
    x.loans = c.loans.count x.connection := by
  rcases List.mem_append.1 hx with hx | hx
  · exact hc.counted x hx
  · obtain ⟨id, hid, rfl⟩ := List.mem_map.1 hx
    exact (List.count_eq_zero.2 (hc.unlent id (hfresh id hid))).symm

/-- The counts are right when a loan has come back. -/
theorem of_payBack (hc : Counted c) (hnodup : c.pool.connections.Nodup) {x : PoolEntry}
    (hx : x ∈ ConnectionPool.payBack id c.pool.entries) :
    x.loans = (c.loans.erase id).count x.connection := by
  rcases ConnectionPool.payBack_cases id c.pool.entries with ⟨hnone, hsame⟩ |
    ⟨before, y, after, hsplit, rfl, hback⟩
  · rw [hsame] at hx
    rw [hc.counted x hx]
    exact (List.count_erase_of_ne (hnone x hx)).symm
  · have hbefore := hc.counted
    rw [hsplit] at hbefore
    rw [ConnectionPool.connections, hsplit] at hnodup
    rw [hback] at hx
    rcases mem_middle.1 hx with rfl | hother
    · rw [show y.loans = _ from hbefore y (by simp)]
      exact List.count_erase_self.symm
    · rw [hbefore x (mem_middle.2 (Or.inr hother))]
      exact (List.count_erase_of_ne (ConnectionPool.connection_ne hnodup hother)).symm

theorem entries_step (h : c.Step e d) (hcustody : Custody c) (hc : Counted c) :
    ∀ x ∈ d.pool.entries, x.loans = d.loans.count x.connection := by
  have hnodup := (hcustody.step h).nodup_connections
  intro y hy
  cases h with
  | ready hw hleft =>
    apply hc.of_add _ hy
    intro id hid
    exact mem_held.2 (Or.inl ⟨_, hw, hid⟩)
  | plan hw hp hn => exact hc.counted y (ConnectionPool.mem_prune.1 hy).1
  | @lend first later n w before after x hw ha hleft hp hentries hidle =>
    have hfresh : ∀ id ∈ w.fresh, id ∈ c.held := by
      intro id hid
      exact mem_held.2 (Or.inr ⟨n, w, by simp [ha], hid⟩)
    have hbefore : ∀ z ∈ before ++ x :: after, z.loans = c.loans.count z.connection := by
      intro z hz
      rw [← hentries] at hz
      exact hc.of_add hfresh hz
    rw [List.count_append]
    rcases mem_middle.1 hy with rfl | hother
    · simp only [List.count_singleton_self]
      exact congrArg (· + 1) (hbefore x (by simp))
    · have hzero : [x.connection].count y.connection = 0 := by
        apply List.count_eq_zero.2
        intro hmem
        exact ConnectionPool.connection_ne hnodup hother (List.mem_singleton.1 hmem)
      rw [hzero, Nat.add_zero]
      exact hbefore y (mem_middle.2 (Or.inr hother))
  | @free id hw =>
    exact hc.of_payBack hcustody.nodup_connections
      (ConnectionPool.mem_settled.1 ((ConnectionPool.free_sublist ..).subset hy)).1
  | close hw hp => cases hy
  | _ => exact hc.counted y hy

/-- Every step keeps the counts right. -/
theorem step (h : c.Step e d) (hcustody : Custody c) (hc : Counted c) : Counted d := by
  have hgrows := (handsOver_of_step h hcustody.nodup_connections).dialed
  have hd := hcustody.step h
  constructor
  · exact hc.entries_step h hcustody
  · intro id hheld hloan
    rcases loans_of_step h hloan with hold | hpooled
    · rcases held_of_step h hheld with hbefore | hnew
      · exact hc.unlent id hbefore hold
      · exact Nat.not_le_of_lt (hc.known id hold) (ClientEvent.mem_opened.1 hnew).1
    · -- What was just lent is with the pool, so no caller holds it.
      exact (List.nodup_append.1 hd.once).2.2 id hheld id hpooled rfl
  · intro id hloan
    rcases loans_of_step h hloan with hold | hpooled
    · have hlt := hc.known id hold
      omega
    · exact hd.known id (List.mem_append_right _ hpooled)

/-- What a step closes is nobody's loan, unless the client is closed or others close it. -/
theorem spared (h : c.Step e d) (hcustody : Custody c) (hc : Counted c) (hclose : e ≠ .close)
    (hdrop : e ≠ .drop id) (hopen : id ∉ c.closed) (hclosed : id ∈ d.closed) : id ∉ d.loans := by
  cases h with
  | drop hid =>
    have hmem := (mem_closed_closeAll.1 hclosed).resolve_left hopen
    rw [List.mem_singleton.1 hmem] at hdrop
    exact absurd rfl hdrop
  | @reject first later n w hw ha hleft hp =>
    -- It never came to the pool.
    have hmem := (mem_closed_closeAll.1 hclosed).resolve_left hopen
    exact hc.unlent id (mem_held.2 (Or.inr ⟨n, w, by simp [ha], hmem⟩))
  | @free back hw =>
    -- It was evicted for being idle, and its count is right.
    have hextra := (mem_closed_closeAll.1 hclosed).resolve_left hopen
    obtain ⟨x, hx, rfl, hidle⟩ := ConnectionPool.idle_of_mem_extras hextra
    have hcount := hc.of_payBack hcustody.nodup_connections (ConnectionPool.mem_settled.1 hx).1
    rw [hidle] at hcount
    exact List.count_eq_zero.1 hcount.symm
  | close | closeAgain => exact absurd rfl hclose
  | _ => exact absurd hclosed hopen

theorem reachable (h : (machine config).Reachable c) : Counted c := by
  induction h with
  | start => exact start config
  | step hreach hs ih => exact ih.step (step_cases hs) (Custody.reachable hreach)

end Counted

/-! ## What was given and what came back -/

theorem lendings_concat (c : Client) (hrun : (machine config).run c events = some d) {u : Client}
    (hs : d.step e = some u) : c.lendings (events ++ [e]) = c.lendings events ++ e.lent u := by
  induction events generalizing c with
  | nil =>
    cases hrun
    simp [lendings, hs]
  | cons x later ih =>
    obtain ⟨v, hv, hlater⟩ := Option.bind_eq_some_iff.1 hrun
    have hstep : c.step x = some v := hv
    simp only [List.cons_append, lendings, hstep, ih v hlater, List.append_assoc]

theorem paybacks_concat (events : List ClientEvent) (e : ClientEvent) :
    paybacks (events ++ [e]) = paybacks events ++ e.paid := by
  simp [paybacks]

theorem count_loans_of_not_paid (h : c.Step e d) (hid : id ∉ e.paid) :
    d.loans.count id = c.loans.count id + (e.lent d).count id := by
  cases h with
  | lend hw ha hleft hp hentries hidle => simp [ClientEvent.lent, result?]
  | free hw =>
    rw [ClientEvent.paid, List.mem_singleton] at hid
    exact List.count_erase_of_ne hid
  | _ => simp [ClientEvent.lent, result?]

/-- A step gives and takes back what it says. -/
theorem count_loans_of_step (h : c.Step e d) (hpaid : ∀ id ∈ e.paid, id ∈ c.loans)
    (id : ConnectionId) :
    d.loans.count id + e.paid.count id = c.loans.count id + (e.lent d).count id := by
  by_cases hid : id ∈ e.paid
  · have hloan := hpaid id hid
    cases h with
    | free hw =>
      rw [ClientEvent.paid, List.mem_singleton] at hid
      subst hid
      have hpos := List.count_pos_iff.2 hloan
      simp only [ClientEvent.paid, ClientEvent.lent, loans_closeAll, List.count_erase_self,
        List.count_singleton_self, List.count_nil]
      omega
    | _ => cases hid
  · rw [count_loans_of_not_paid h hid, List.count_eq_zero.2 hid]
    rfl

theorem balanced_concat : Balanced config (events ++ [e]) ↔
    Balanced config events ∧ ∀ id ∈ e.paid, OnLoan config events id := by
  constructor
  · intro h
    constructor
    · intro before id later heq
      apply h before id (later ++ [e])
      rw [heq, List.append_assoc, List.cons_append]
    · intro id hid
      cases e with
      | free back =>
        rw [List.mem_singleton.1 hid]
        exact h events back [] rfl
      | _ => cases hid
  · rintro ⟨h, hpaid⟩ before id later heq
    rcases List.eq_nil_or_concat later with rfl | ⟨rest, x, rfl⟩
    · obtain ⟨rfl, hlast⟩ := List.append_inj' heq rfl
      cases hlast
      exact hpaid id (List.mem_singleton_self id)
    · rw [List.concat_eq_append, ← List.cons_append, ← List.append_assoc] at heq
      exact h before id rest (List.append_inj' heq rfl).1

/-- In a balanced run the loans that were given are those that came back and those that did not. -/
theorem count_loans_of_run (hrun : (machine config).run (new config) events = some c)
    (h : Balanced config events) (id : ConnectionId) :
    c.loans.count id + (paybacks events).count id = ((new config).lendings events).count id := by
  revert h id
  refine @Machine.run_induction _ _ (machine config) (fun events c => Balanced config events → ∀ id,
    c.loans.count id + (paybacks events).count id = ((new config).lendings events).count id)
    (new config) c (fun _ _ => rfl) ?_ events hrun
  intro done u e v hdone hu hs hbalanced id
  obtain ⟨hdoneBalanced, honLoan⟩ := balanced_concat.1 hbalanced
  have hbefore := hu hdoneBalanced
  have hpaid : ∀ back ∈ e.paid, back ∈ u.loans := by
    intro back hback
    have hcount := hbefore back
    have hlt := honLoan back hback
    rw [OnLoan] at hlt
    exact List.count_pos_iff.1 (by omega)
  have hcount := hbefore id
  have hstep := count_loans_of_step (step_cases hs) hpaid id
  rw [lendings_concat _ hdone hs, paybacks_concat, List.count_append, List.count_append]
  omega

theorem onLoan_iff (hrun : (machine config).run (new config) events = some c)
    (h : Balanced config events) : OnLoan config events id ↔ id ∈ c.loans := by
  have hcount := count_loans_of_run hrun h id
  rw [← List.count_pos_iff, OnLoan]
  omega

/-! ## Borrowing for a while -/

/-- Whether the connections of a later pool have the counts they had, and new ones are idle. -/
def KeepsLoans (c d : Client) : Prop :=
  ∀ x ∈ d.pool.entries, x ∈ c.pool.entries ∨ x.loans = 0 ∧ c.dialed ≤ x.connection.number

/-- What the entries of the pool are after an allocation: those it had and new ones, but for the loan
that is given. -/
theorem allocate_cases (hc : c.connecting = none) (dials : List Bool) :
    (∃ cause d, c.allocate dials = (.error cause, d) ∧ c.KeepsLoans d) ∨
      ∃ before x after d, c.allocate dials = (.ok x.connection, d) ∧
        d.pool.entries = before ++ { x with loans := x.loans + 1 } :: after ∧
        ∀ y ∈ before ++ x :: after,
          y ∈ c.pool.entries ∨ y.loans = 0 ∧ c.dialed ≤ y.connection.number := by
  cases hp : c.pool.isClosed with
  | true => exact Or.inl ⟨_, _, allocate_of_closed hc hp dials, fun y hy => Or.inl hy⟩
  | false =>
    obtain ⟨n, p, fresh, allocations, dialed, closed, loans, hplan, hlength, hfresh, h⟩ :=
      allocate_of_open hc hp dials
    have hgrown : ∀ y ∈ (p.add fresh).entries,
        y ∈ c.pool.entries ∨ y.loans = 0 ∧ c.dialed ≤ y.connection.number := by
      intro y hy
      rcases List.mem_append.1 hy with hold | hnew
      · rw [ConnectionPool.entries_plan hplan] at hold
        exact Or.inl (ConnectionPool.mem_prune.1 hold).1
      · obtain ⟨id, hid, rfl⟩ := List.mem_map.1 hnew
        exact Or.inr ⟨rfl, hfresh id hid⟩
    rw [h]
    rcases ConnectionPool.commit_cases n fresh p with ⟨-, hcommit⟩ | ⟨-, hentries, -, hcommit⟩ |
      ⟨-, before, x, after, hentries, -, hcommit⟩
    · rw [hcommit]
      exact Or.inl ⟨_, _, rfl, fun y hy => hgrown y (List.mem_append_left _ hy)⟩
    · rw [hcommit]
      exact Or.inl ⟨_, _, rfl, fun y hy => hgrown y (List.mem_append_left _ hy)⟩
    · rw [hcommit]
      refine Or.inr ⟨before, x, after, _, rfl, rfl, ?_⟩
      rwa [← hentries]

/-- A call that borrows a connection for its own use leaves the counts as they were, whatever came
of it. -/
theorem use_keepsLoans {α : Type} (h : (machine config).Reachable c) (hc : c.connecting = none)
    (dials : List Bool)
    (exchange : ConnectionId → Except ConnectionError α × List ConnectionId) :
    c.KeepsLoans (c.use dials exchange).2 := by
  rcases allocate_cases hc dials with ⟨cause, d, hd, hkeeps⟩ |
    ⟨before, x, after, d, hd, hentries, hall⟩
  · rwa [use_of_error hd]
  · have hreach := reachable_allocate h dials
    have hconnecting := connecting_allocate hc dials
    rw [hd] at hreach hconnecting
    have hnodup := (Custody.reachable hreach).nodup_connections
    rw [ConnectionPool.connections, hentries, List.map_append, List.map_cons] at hnodup
    obtain ⟨closed, hlose⟩ := lose_eq (exchange x.connection).2 d
    obtain ⟨closed', loans, hfree⟩ := free_eq (c := { d with closed }) hconnecting x.connection
    intro y hy
    rw [use_of_ok hd, hlose, hfree] at hy
    have hback := (ConnectionPool.mem_settled.1 ((ConnectionPool.free_sublist ..).subset hy)).1
    rw [hentries, ConnectionPool.payBack_lent (by simpa using hnodup)] at hback
    exact hall y hback

/-! ## The accounts of a client -/

/-- What the loans of a client come to after some events. -/
structure Accounts (config : ClientConfig) (events : List ClientEvent) (c : Client) : Prop where
  /-- The count of a connection is the number of its loans that have not come back. -/
  counted : ∀ x ∈ c.pool.entries, x.loans + (paybacks events).count x.connection =
    ((new config).lendings events).count x.connection
  /-- A loan that comes back never finds the count at zero. -/
  unsaturated : ∀ x ∈ c.pool.entries, OnLoan config events x.connection → 0 < x.loans
  /-- A step leaves all counts as they were but that of the connection it lends or takes back. -/
  others : ∀ e d, c.step e = some d → ∀ x ∈ d.pool.entries, x.connection ∉ e.lent d →
    x.connection ∉ e.paid → ∀ y ∈ c.pool.entries, y.connection = x.connection → x.loans = y.loans
  /-- Calls that borrow for their own use leave all counts as they were. -/
  kept : c.connecting = none → ∀ dials exchange m id,
    c.KeepsLoans (c.send dials exchange m).2 ∧ c.KeepsLoans (c.ping dials exchange id).2
  /-- What is closed is not on loan, unless the client is closed or others close it. -/
  spared : ∀ e d id, c.step e = some d → Balanced config (events ++ [e]) → e ≠ .close →
    e ≠ .drop id → c.isClosed id = false → d.isClosed id = true →
    ¬OnLoan config (events ++ [e]) id

/-- **The loans of a client are accounted for**, after every run in which each loan that comes back
was given before and had not come back. -/
theorem loans_are_accounted_for (hrun : (machine config).run (new config) events = some c)
    (h : Balanced config events) : Accounts config events c := by
  have hreach : (machine config).Reachable c := Machine.Reachable.start.run hrun
  have hcounted := Counted.reachable hreach
  constructor
  · intro x hx
    rw [hcounted.counted x hx]
    exact count_loans_of_run hrun h x.connection
  · intro x hx honLoan
    rw [hcounted.counted x hx]
    exact List.count_pos_iff.2 ((onLoan_iff hrun h).1 honLoan)
  · intro e d hs x hx hlent hpaid y hy hid
    have hstep := step_cases hs
    rw [(hcounted.step hstep (Custody.reachable hreach)).counted x hx, hcounted.counted y hy,
      count_loans_of_not_paid hstep hpaid, List.count_eq_zero.2 hlent, hid]
    rfl
  · intro hc dials exchange m id
    exact ⟨use_keepsLoans hreach hc dials (exchange m),
      use_keepsLoans hreach hc dials (exchange (.bare id .ping))⟩
  · intro e d id hs hbalanced hclose hdrop hopen hclosed honLoan
    have hloan := (onLoan_iff (Machine.run_concat hrun hs) hbalanced).1 honLoan
    exact hcounted.spared (step_cases hs) (Custody.reachable hreach) hclose hdrop
      (by simpa [isClosed] using hopen) (by simpa [isClosed] using hclosed) hloan

/-! ## Two loans -/

/-- The second allocation dials, as the only connection is on loan. -/
private def givenOut : List ClientEvent :=
  [.warm true, .ready, .plan, .commit 0, .plan, .dial 1 true, .commit 1]

/-- The second connection is an idle extra when its loan comes back, and is closed; the first stays
on loan. -/
theorem the_extra_is_closed_when_it_comes_back :
    ∃ c, (machine .sample).run (new .sample) (givenOut ++ [.free ⟨1⟩]) = some c ∧
      Balanced .sample (givenOut ++ [.free ⟨1⟩]) ∧ c.isClosed ⟨1⟩ = true ∧
      c.pool.entries = [⟨⟨0⟩, 1⟩] ∧ Accounts .sample (givenOut ++ [.free ⟨1⟩]) c := by
  have hrun : (machine .sample).run (new .sample) (givenOut ++ [.free ⟨1⟩]) =
      some (((machine .sample).run (new .sample) (givenOut ++ [.free ⟨1⟩])).getD (new .sample)) := by
    rfl
  have hbalanced : Balanced .sample (givenOut ++ [.free ⟨1⟩]) := by
    refine balanced_concat.2 ⟨?_, ?_⟩
    · intro before id later h
      have hmem : ClientEvent.free id ∈ givenOut := by rw [h]; simp
      simp [givenOut] at hmem
    · intro id hid
      rw [List.mem_singleton.1 hid]
      exact (by decide : (paybacks givenOut).count ⟨1⟩ < ((new .sample).lendings givenOut).count ⟨1⟩)
  exact ⟨_, hrun, hbalanced, by rfl, by rfl, loans_are_accounted_for hrun hbalanced⟩

end Client

end ClusterLink
