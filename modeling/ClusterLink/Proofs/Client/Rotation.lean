import ClusterLink.Proofs.Client.Accounting
/-!
# Whose turn it is

A pool lends from the first idle place at or after its cursor, going round, and the cursor then
stands behind that place. So as long as a place is idle the cursor only comes nearer to it, and can
get behind it in no other way than by lending from it.

Results:
* `ConnectionPool.distance_nextIndex_le`: a pool lends from no place beyond an idle one.
* `ConnectionPool.distance_lend`: lending brings the cursor nearer to every idle place.
* `Client.nobody_is_passed_over`: between two loans of a connection all others have been on loan.
-/
namespace ClusterLink

namespace ConnectionPool

variable {p q : ConnectionPool} {i j k : Nat} {id : ConnectionId}

/-! ## Going round -/

/-- How far it is from a place to another one in a pool of `n`, going round. -/
def around (n i j : Nat) : Nat := if i ≤ j then j - i else j + n - i

/-- How far it is from the cursor to a place. -/
def distance (p : ConnectionPool) (j : Nat) : Nat := around p.size (p.cursor % p.size) j

theorem add_mod_of_lt {n i k : Nat} (hi : i < n) (hk : k < n) :
    (i + k) % n = if i + k < n then i + k else i + k - n := by
  split
  · next h => exact Nat.mod_eq_of_lt h
  · next h => rw [Nat.mod_eq_sub_mod (Nat.le_of_not_lt h), Nat.mod_eq_of_lt (by omega)]

/-- Places and distances determine each other. -/
theorem add_distance_mod (hj : j < p.size) :
    p.distance j < p.size ∧ (p.cursor % p.size + p.distance j) % p.size = j := by
  have hstart : p.cursor % p.size < p.size := Nat.mod_lt _ (by omega)
  have hlt : p.distance j < p.size := by
    unfold distance around
    split <;> omega
  refine ⟨hlt, ?_⟩
  rw [add_mod_of_lt hstart hlt]
  unfold distance around
  split <;> split <;> omega

theorem distance_add_mod (hk : k < p.size) :
    p.distance ((p.cursor % p.size + k) % p.size) = k := by
  have hstart : p.cursor % p.size < p.size := Nat.mod_lt _ (by omega)
  rw [add_mod_of_lt hstart hk]
  unfold distance around
  split <;> split <;> omega

/-- A pool lends from no place beyond an idle one. -/
theorem distance_nextIndex_le (hj : j < p.size) (hidle : p.isIdleAt j = true) :
    p.distance p.nextIndex ≤ p.distance j := by
  obtain ⟨hlt, hplace⟩ := add_distance_mod hj
  unfold nextIndex turn
  rw [List.find?_map]
  cases hfind : (List.range p.size).find?
      (p.isIdleAt ∘ fun offset => (p.cursor % p.size + offset) % p.size) with
  | none =>
    have hnone := List.find?_eq_none.1 hfind (p.distance j) (List.mem_range.2 hlt)
    rw [Function.comp_apply, hplace] at hnone
    exact absurd hidle hnone
  | some k =>
    obtain ⟨-, hk, hfirst⟩ := List.find?_range_eq_some.1 hfind
    rw [Option.map_some, Option.getD_some, distance_add_mod (List.mem_range.1 hk)]
    by_contra hbeyond
    have hnot := hfirst (p.distance j) (Nat.lt_of_not_le hbeyond)
    rw [Function.comp_apply, hplace, hidle] at hnot
    cases hnot

/-! ## What lending does to the distances -/

/-- What a pool lends is in the next place, and the cursor goes behind it. -/
theorem eq_of_lend (h : p.lend = some (id, q)) :
    p.connections[p.nextIndex]? = some id ∧ q.cursor = p.nextIndex + 1 ∧
      q.connections = p.connections ∧ q.isIdleAt p.nextIndex = false := by
  simp only [lend] at h
  split at h
  · cases h
  · next e he =>
    cases h
    obtain ⟨hi, rfl⟩ := List.getElem?_eq_some_iff.1 he
    refine ⟨by simp [connections, he], rfl, ?_, by simp [isIdleAt, hi, PoolEntry.isIdle]⟩
    have hset := @List.set_getElem_self _ (p.entries.map (·.connection)) p.nextIndex
      (by simpa using hi)
    rw [List.getElem_map] at hset
    rw [connections, List.map_set, hset, connections]

theorem length_connections (p : ConnectionPool) : p.connections.length = p.size := List.length_map _

theorem size_of_connections (h : q.connections = p.connections) : q.size = p.size := by
  rw [← length_connections, h, length_connections]

theorem nextIndex_lt_of_lend (h : p.lend = some (id, q)) : p.nextIndex < p.size := by
  rw [← length_connections]
  exact (List.getElem?_eq_some_iff.1 (eq_of_lend h).1).1

/-- The distance to a place from the one behind place `i`. -/
theorem distance_of_cursor {n : Nat} (hsize : q.size = n) (hcursor : q.cursor = i + 1)
    (hi : i < n) : q.distance j = around n (if i + 1 = n then 0 else i + 1) j := by
  have hmod : (i + 1) % n = if i + 1 = n then 0 else i + 1 := by
    split
    · next h => rw [h, Nat.mod_self]
    · exact Nat.mod_eq_of_lt (by omega)
  rw [distance, hsize, hcursor, hmod]

/-- The place that was lent from is the last whose turn comes. -/
theorem distance_lt_of_lend (h : p.lend = some (id, q)) (hj : j < p.size) (hne : j ≠ p.nextIndex) :
    q.distance j < q.distance p.nextIndex := by
  obtain ⟨-, hcursor, hsame, -⟩ := eq_of_lend h
  have hi := nextIndex_lt_of_lend h
  rw [distance_of_cursor (size_of_connections hsame) hcursor hi,
    distance_of_cursor (size_of_connections hsame) hcursor hi]
  unfold around
  split <;> split <;> split <;> omega

/-- A loan takes the cursor past the place that is lent from, and nearer to all places beyond it. -/
theorem distance_lend (h : p.lend = some (id, q)) (hj : j < p.size)
    (hbeyond : p.distance p.nextIndex < p.distance j) :
    q.distance j + p.distance p.nextIndex + 1 = p.distance j := by
  obtain ⟨-, hcursor, hsame, -⟩ := eq_of_lend h
  have hi := nextIndex_lt_of_lend h
  have hstart : p.cursor % p.size < p.size := Nat.mod_lt _ (by omega)
  rw [distance_of_cursor (size_of_connections hsame) hcursor hi]
  unfold distance at hbeyond ⊢
  unfold around at hbeyond ⊢
  split at hbeyond <;> split at hbeyond <;> split <;> split <;> omega

/-- An idle place that comes before another does so after a loan too, unless it is lent itself. -/
theorem distance_lt_lend (h : p.lend = some (id, q)) (hi : i < p.size) (hj : j < p.size)
    (hidle : p.isIdleAt j = true) (hlast : q.isIdleAt j = true)
    (hlt : p.distance j < p.distance i) : q.distance j < q.distance i := by
  obtain ⟨-, -, -, hlent⟩ := eq_of_lend h
  have hne : j ≠ p.nextIndex := by
    rintro rfl
    rw [hlent] at hlast
    cases hlast
  have hk := nextIndex_lt_of_lend h
  have hbefore : p.distance p.nextIndex < p.distance j := by
    refine Nat.lt_of_le_of_ne (distance_nextIndex_le hj hidle) fun heq => hne ?_
    rw [← (add_distance_mod hj).2, ← heq, (add_distance_mod hk).2]
  have hnearer := distance_lend h hj hbefore
  have hnearer' := distance_lend h hi (Nat.lt_trans hbefore hlt)
  omega

/-- An allocation that succeeds lends from what the pool has and what was dialed for it. -/
theorem lend_of_commit {n : Nat} {fresh : List ConnectionId}
    (h : (p.commit n fresh).1 = .ok id) :
    ({ p with dialing := p.dialing - n }.add fresh).lend = some (id, (p.commit n fresh).2) := by
  by_cases hp : p.isClosed = true
  · have hclosed : p.commit n fresh = (.error .closed, { p with dialing := p.dialing - n }) :=
      if_pos hp
    rw [hclosed] at h
    cases h
  · rw [commit_of_open (eq_false_of_ne_true hp)] at h ⊢
    cases hlend : ({ p with dialing := p.dialing - n }.add fresh).lend with
    | none =>
      rw [hlend] at h
      cases h
    | some given =>
      rw [hlend] at h
      cases h
      rfl

end ConnectionPool

namespace Client

open ConnectionPool

variable {c d u v w z : Client} {e e' : ClientEvent} {id : ConnectionId} {config : ClientConfig}
  {between : List ClientEvent}

/-! ## What a step does to the turn -/

/-- A step that lends nothing leaves the cursor where it is. -/
theorem cursor_of_step (hs : c.step e = some d) (h : e.lent d = []) :
    d.pool.cursor = c.pool.cursor := by
  cases step_cases hs with
  | lend hw ha hleft hp hentries hidle => simp [ClientEvent.lent, result?] at h
  | _ => rfl

/-- A step that lends is the end of an allocation. -/
theorem lend_of_step (hs : c.step e = some d) (h : id ∈ e.lent d) :
    ∃ n fresh,
      ({ c.pool with dialing := c.pool.dialing - n }.add fresh).lend = some (id, d.pool) := by
  cases e with
  | commit i =>
    obtain ⟨n, w, first, later, hc, ha, hleft, rfl⟩ : ∃ n w first later, c.connecting = none ∧
        c.allocations = first ++ .dialing n w :: later ∧ w.left = 0 ∧ first.length = i := by
      cases step_cases hs with
      | reject hc ha hleft => exact ⟨_, _, _, _, hc, ha, hleft, rfl⟩
      | lack hc ha hleft => exact ⟨_, _, _, _, hc, ha, hleft, rfl⟩
      | lend hc ha hleft => exact ⟨_, _, _, _, hc, ha, hleft, rfl⟩
    obtain ⟨closed, loans, hcommit⟩ := step_commit hc ha hleft
    cases hs.symm.trans hcommit
    refine ⟨n, w.fresh, lend_of_commit ?_⟩
    cases hresult : (c.pool.commit n w.fresh).1 with
    | ok given => simp_all [ClientEvent.lent, result?]
    | error cause => simp [ClientEvent.lent, result?, hresult] at h
  | _ => simp [ClientEvent.lent] at h

/-- A step that lends and leaves the list of the connections as it is lends what the pool has. -/
theorem eq_of_lent (hs : c.step e = some d) (h : id ∈ e.lent d)
    (hsame : d.pool.connections = c.pool.connections) :
    ∃ n, { c.pool with dialing := n }.lend = some (id, d.pool) := by
  obtain ⟨n, fresh, hlend⟩ := lend_of_step hs h
  obtain rfl : fresh = [] := by
    have hgrown := (eq_of_lend hlend).2.2.1
    rw [hsame, connections_add] at hgrown
    exact List.append_right_eq_self.1 hgrown.symm
  exact ⟨c.pool.dialing - n, by simpa [add] using hlend⟩

/-- An idle place whose turn comes before that of another keeps its advantage as long as it is
idle. -/
theorem distance_lt_of_step (hs : c.step e = some d)
    (hsame : d.pool.connections = c.pool.connections) {i j : Nat} (hi : i < c.pool.size)
    (hj : j < c.pool.size) (hidle : c.pool.isIdleAt j = true) (hlast : d.pool.isIdleAt j = true)
    (hlt : c.pool.distance j < c.pool.distance i) : d.pool.distance j < d.pool.distance i := by
  by_cases hlent : e.lent d = []
  · have hsize := size_of_connections hsame
    have hcursor := cursor_of_step hs hlent
    simpa only [distance, hsize, hcursor] using hlt
  · obtain ⟨id, hid⟩ := List.exists_mem_of_ne_nil _ hlent
    obtain ⟨n, hlend⟩ := eq_of_lent hs hid hsame
    exact distance_lt_lend hlend hi hj hidle hlast hlt

/-! ## Between two loans -/

/-- Whether a connection of the pool is on loan. -/
def IsLent (c : Client) (id : ConnectionId) : Prop :=
  ∃ x ∈ c.pool.entries, x.connection = id ∧ 0 < x.loans

theorem isIdleAt_of_not_isLent {i : Nat} (h : c.pool.connections[i]? = some id)
    (hidle : ¬c.IsLent id) : c.pool.isIdleAt i = true := by
  rw [connections, List.getElem?_map, Option.map_eq_some_iff] at h
  obtain ⟨x, hx, rfl⟩ := h
  have hloans : ¬0 < x.loans := fun hpos => hidle ⟨x, List.mem_of_getElem? hx, rfl, hpos⟩
  simp [isIdleAt, hx, PoolEntry.isIdle, Nat.eq_zero_of_not_pos hloans]

/-- An idle place keeps its advantage along a run. -/
theorem distance_lt_of_run {i j : Nat} (hrun : (machine config).run v between = some w)
    (hall : (machine config).Along
      (fun s => s.pool.connections = v.pool.connections ∧ s.pool.isIdleAt j = true) v between)
    (hi : i < v.pool.size) (hj : j < v.pool.size)
    (hlt : v.pool.distance j < v.pool.distance i) : w.pool.distance j < w.pool.distance i := by
  refine @Machine.Along.invariant _ _ _ _ (fun s => s.pool.distance j < s.pool.distance i) _ _ _
    hall hrun hlt ?_
  intro s e t later _ _ ⟨hs, hidle⟩ ⟨ht, hlast⟩ hbefore hstep
  have hsize := size_of_connections hs
  rw [← hsize] at hi hj
  exact distance_lt_of_step hstep (ht.trans hs.symm) hi hj hidle hlast hbefore

/-- **Nobody is passed over.** As long as the connections of a pool stay the same, all others have
been on loan between two loans of one of them, whoever allocates and frees in between. -/
theorem nobody_is_passed_over (hnodup : v.pool.connections.Nodup) (hfirst : u.step e = some v)
    (hlent : id ∈ e.lent v) (hrun : (machine config).run v between = some w)
    (hsecond : w.step e' = some z) (hagain : id ∈ e'.lent z)
    (hsame : (machine config).Along (fun s => s.pool.connections = v.pool.connections) v between)
    (hlast : z.pool.connections = v.pool.connections) :
    ∀ x ∈ v.pool.connections, x ≠ id → ∃ before after s, between = before ++ after ∧
      (machine config).run v before = some s ∧ s.IsLent x := by
  intro x hx hne
  by_contra hnever
  obtain ⟨j, hj⟩ := List.mem_iff_getElem?.1 hx
  have hidle : (machine config).Along
      (fun s => s.pool.connections = v.pool.connections ∧ s.pool.isIdleAt j = true) v between := by
    refine Machine.along_iff.2 fun before after s hsplit hs => ?_
    have hs' := Machine.along_iff.1 hsame before after s hsplit hs
    refine ⟨hs', isIdleAt_of_not_isLent (hs' ▸ hj) fun hlent => hnever ?_⟩
    exact ⟨before, after, s, hsplit, hs, hlent⟩
  obtain ⟨hw, hidlew⟩ := Machine.along_iff.1 hidle between [] w (List.append_nil _).symm hrun
  obtain ⟨n, fresh, hlend⟩ := lend_of_step hfirst hlent
  obtain ⟨hplace, -, hgrown, -⟩ := eq_of_lend hlend
  obtain ⟨m, hlend'⟩ := eq_of_lent hsecond hagain (hlast.trans hw.symm)
  have hplace' := (eq_of_lend hlend').1
  generalize ({ u.pool with dialing := u.pool.dialing - n }.add fresh) = p at hlend hplace hgrown
  rw [← hgrown] at hplace
  have hsize := size_of_connections hgrown
  have hi : p.nextIndex < v.pool.connections.length := (List.getElem?_eq_some_iff.1 hplace).1
  have hjlt : j < v.pool.connections.length := (List.getElem?_eq_some_iff.1 hj).1
  rw [length_connections] at hi hjlt
  -- Both loans are from the same place, as no connection is in two.
  have hagainPlace : { w.pool with dialing := m }.nextIndex = p.nextIndex := by
    change w.pool.connections[_]? = _ at hplace'
    rw [hw, ← hplace] at hplace'
    exact ((List.getElem?_inj (by rwa [length_connections]) hnodup).1 hplace'.symm).symm
  have hplaces : j ≠ p.nextIndex := by
    rintro rfl
    exact hne (Option.some.inj (hj.symm.trans hplace))
  have hstart := distance_lt_of_lend hlend (hsize ▸ hjlt) hplaces
  have hend := distance_lt_of_run hrun hidle hi hjlt hstart
  have hnext := distance_nextIndex_le (p := { w.pool with dialing := m })
    (show j < w.pool.size from (size_of_connections hw).symm ▸ hjlt) hidlew
  rw [hagainPlace] at hnext
  exact Nat.not_le_of_lt hend hnext

/-! ### Three connections -/

/-- The first of three connections is about to be lent. -/
private def trio : Client where
  config := { ClientConfig.sample with minConnections := 3 }
  connecting := none
  pool := { entries := [⟨⟨0⟩, 0⟩, ⟨⟨1⟩, 0⟩, ⟨⟨2⟩, 0⟩] }
  allocations := [.dialing 0 { left := 0 }]
  dialed := 3

private def trioLent : Client := (trio.step (.commit 0)).getD trio

/-- It comes back at once, but two more callers come before it is lent again. -/
private def othersFirst : List ClientEvent :=
  [.free ⟨0⟩, .plan, .commit 1, .free ⟨1⟩, .plan, .commit 2, .plan]

private def trioReady : Client :=
  ((machine trio.config).run trioLent othersFirst).getD trioLent

private def trioAgain : Client := (trioReady.step (.commit 3)).getD trioReady

theorem the_others_come_first :
    trio.step (.commit 0) = some trioLent ∧ ⟨0⟩ ∈ (ClientEvent.commit 0).lent trioLent ∧
    (machine trio.config).run trioLent othersFirst = some trioReady ∧
    trioReady.step (.commit 3) = some trioAgain ∧ ⟨0⟩ ∈ (ClientEvent.commit 3).lent trioAgain ∧
    ∀ x ∈ trioLent.pool.connections, x ≠ ⟨0⟩ → ∃ before after s, othersFirst = before ++ after ∧
      (machine trio.config).run trioLent before = some s ∧ s.IsLent x := by
  have hfirst : trio.step (.commit 0) = some trioLent := rfl
  have hlent : ⟨0⟩ ∈ (ClientEvent.commit 0).lent trioLent := by decide
  have hrun : (machine trio.config).run trioLent othersFirst = some trioReady := rfl
  have hsecond : trioReady.step (.commit 3) = some trioAgain := rfl
  have hagain : ⟨0⟩ ∈ (ClientEvent.commit 3).lent trioAgain := by decide
  exact ⟨hfirst, hlent, hrun, hsecond, hagain,
    nobody_is_passed_over (by decide) hfirst hlent hrun hsecond hagain (by decide) rfl⟩

end Client

end ClusterLink
