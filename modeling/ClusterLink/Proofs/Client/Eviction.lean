import ClusterLink.Proofs.Client.Calls
import ClusterLink.Proofs.Client.Custody
/-!
# Which idle extras are closed

A loan that comes back can leave a pool with more connections than it has to keep. They are evicted
in rounds, each of which takes out the newest idle one, until there are few enough or all that are
left are on loan.

Results:
* `ConnectionPool.evicts_evict`: the rounds come to an end, and to what `evict` gives.
* `ConnectionPool.dropIdle_split`: all idle entries up to some point are dropped, none beyond it.
* `ConnectionPool.evict_split`: the oldest idle entries are kept, as many as there is room for.
* `Client.free_evicts_the_newest_idle`: what becomes of a client when a loan comes back.
-/
namespace ClusterLink

namespace ConnectionPool

variable {p : ConnectionPool} {e : PoolEntry} {front back entries : List PoolEntry}
  {least extras : Nat}

/-! ## Rounds -/

/-- Evicting in rounds: what is closed, in this order, and what is left of some entries. -/
inductive Evicts (least : Nat) : List PoolEntry → List ConnectionId → List PoolEntry → Prop
  | few {entries : List PoolEntry} (h : entries.length ≤ least) : Evicts least entries [] entries
  | lent {entries : List PoolEntry} (h : ∀ e ∈ entries, e.isIdle = false) :
    Evicts least entries [] entries
  | round {older newer left : List PoolEntry} {e : PoolEntry} {closed : List ConnectionId}
      (h : least < (older ++ e :: newer).length) (hidle : e.isIdle = true)
      (hnewer : ∀ x ∈ newer, x.isIdle = false) (hrest : Evicts least (older ++ newer) closed left) :
    Evicts least (older ++ e :: newer) (e.connection :: closed) left

/-- Entries on loan stay where they are. -/
theorem dropIdle_append (extras : Nat) (hfront : ∀ x ∈ front, x.isIdle = false)
    (back : List PoolEntry) : dropIdle extras (front ++ back) =
      ((dropIdle extras back).1, front ++ (dropIdle extras back).2) := by
  cases extras with
  | zero => simp [dropIdle]
  | succ extras =>
    induction front with
    | nil => rfl
    | cons x front ih =>
      have hx : ¬x.isIdle = true := by simp [hfront x (List.mem_cons_self ..)]
      have hrest := ih fun y hy => hfront y (List.mem_cons_of_mem x hy)
      rw [List.cons_append, dropIdle, if_neg hx, hrest]
      rfl

/-- Entries have an idle one that is the first, or none. -/
theorem first_idle (entries : List PoolEntry) : (∀ e ∈ entries, e.isIdle = false) ∨
    ∃ front e back, entries = front ++ e :: back ∧ (∀ x ∈ front, x.isIdle = false) ∧
      e.isIdle = true := by
  cases h : entries.find? (·.isIdle) with
  | none => exact Or.inl (by simpa using h)
  | some e =>
    obtain ⟨hidle, front, back, rfl, hfront⟩ := List.find?_eq_some_iff_append.1 h
    exact Or.inr ⟨front, e, back, rfl, by simpa using hfront, hidle⟩

/-- The entries come with the newest first here, as it is the newest that go. -/
theorem evicts_dropIdle (h : extras = entries.length - least) :
    Evicts least entries.reverse (dropIdle extras entries).1
      (dropIdle extras entries).2.reverse := by
  induction extras generalizing entries with
  | zero =>
    rw [dropIdle]
    exact .few (by rw [List.length_reverse]; omega)
  | succ extras ih =>
    rcases first_idle entries with hnone | ⟨front, e, back, rfl, hfront, hidle⟩
    · have hdrop := dropIdle_append (extras + 1) hnone []
      rw [List.append_nil] at hdrop
      rw [hdrop, show dropIdle (extras + 1) [] = ([], []) by simp [dropIdle], List.append_nil]
      exact .lent fun e he => hnone e (List.mem_reverse.1 he)
    · have hlength : extras = (front ++ back).length - least := by
        simp only [List.length_append, List.length_cons] at h ⊢
        omega
      have hrest := ih hlength
      rw [dropIdle_append extras hfront, List.reverse_append] at hrest
      rw [dropIdle_append (extras + 1) hfront, dropIdle, if_pos hidle, List.reverse_append,
        List.reverse_cons, List.append_assoc, List.singleton_append]
      refine .round ?_ hidle (fun x hx => hfront x (List.mem_reverse.1 hx)) hrest
      simp only [List.length_append, List.length_cons, List.length_reverse] at h ⊢
      omega

/-- **The rounds of an eviction come to an end.** -/
theorem evicts_evict (least : Nat) (p : ConnectionPool) :
    Evicts least p.entries (p.evict least).1 (p.evict least).2.entries := by
  have h := evicts_dropIdle (rfl : p.entries.reverse.length - least = _)
  rwa [List.reverse_reverse, List.length_reverse] at h

/-! ## The newest go, the oldest stay -/

/-- All idle entries up to some point are dropped, none beyond it. -/
theorem dropIdle_split (extras : Nat) (entries : List PoolEntry) :
    ∃ front back, entries = front ++ back ∧
      (dropIdle extras entries).1 = (front.filter (·.isIdle)).map (·.connection) ∧
      (dropIdle extras entries).2 = front.filter (!·.isIdle) ++ back ∧
      (front.filter (·.isIdle)).length = min extras (entries.countP (·.isIdle)) := by
  fun_induction dropIdle extras entries with
  | case1 entries => exact ⟨[], entries, rfl, rfl, rfl, by simp⟩
  | case2 => exact ⟨[], [], rfl, rfl, rfl, by simp⟩
  | case3 extras e rest hidle taken left hrec ih =>
    rw [hrec] at ih
    obtain ⟨front, back, rfl, htaken, hleft, hlength⟩ := ih
    refine ⟨e :: front, back, rfl, ?_, by simpa [hidle] using hleft, ?_⟩
    · simpa [hidle] using htaken
    · simp only [List.filter_cons, List.countP_cons, hidle, if_true, List.length_cons, hlength]
      omega
  | case4 extras e rest hidle taken left hrec ih =>
    rw [hrec] at ih
    obtain ⟨front, back, rfl, htaken, hleft, hlength⟩ := ih
    refine ⟨e :: front, back, rfl, by simpa [hidle] using htaken, ?_, ?_⟩
    · simpa [hidle] using hleft
    · simp only [List.filter_cons, List.countP_cons, hidle, Bool.false_eq_true,
        if_false, hlength, Nat.add_zero]

/-- The oldest idle entries are kept, as many as there is room for beside the loans. -/
theorem evict_split (least : Nat) (p : ConnectionPool) :
    ∃ older newer, p.entries = older ++ newer ∧
      (p.evict least).1 = ((newer.filter (·.isIdle)).reverse).map (·.connection) ∧
      (p.evict least).2 = { p with entries := older ++ newer.filter (!·.isIdle) } ∧
      (older ++ newer.filter (!·.isIdle)).length =
        min p.size (max least (p.entries.countP (!·.isIdle))) := by
  obtain ⟨front, back, hsplit, htaken, hleft, hlength⟩ :=
    dropIdle_split (p.size - least) p.entries.reverse
  have hentries : p.entries = back.reverse ++ front.reverse := by
    rw [← List.reverse_append, ← hsplit, List.reverse_reverse]
  refine ⟨back.reverse, front.reverse, hentries, ?_, ?_, ?_⟩
  · rw [List.filter_reverse, List.reverse_reverse]
    exact htaken
  · simp only [evict, hleft, List.reverse_append, List.filter_reverse]
  · have hdropped := length_dropIdle (p.size - least) p.entries.reverse
    rw [List.countP_reverse] at hlength
    rw [htaken, List.length_map, hlength, hleft, List.length_reverse] at hdropped
    have hparts :
        p.entries.length = p.entries.countP (·.isIdle) + p.entries.countP (!·.isIdle) := by
      simpa using List.length_eq_countP_add_countP (fun e : PoolEntry => e.isIdle)
    simp only [size, List.length_append, List.length_reverse, List.filter_reverse] at hdropped ⊢
    omega

/-! ## A loan that comes back -/

/-- A loan that comes back is taken off the first entry of its connection. -/
theorem payBack_eq_modify (id : ConnectionId) (entries : List PoolEntry) :
    payBack id entries = entries.modify (entries.findIdx (·.connection = id))
      fun e => { e with loans := e.loans - 1 } := by
  induction entries with
  | nil => rfl
  | cons e rest ih =>
    by_cases h : e.connection = id
    · simp [payBack, List.findIdx_cons, h]
    · simp [payBack, List.findIdx_cons, h, ih]

end ConnectionPool

namespace Client

open ConnectionPool

/-- The entries of a pool when a loan has come back and the closed connections are dropped. -/
def entriesAfter (c : Client) (id : ConnectionId) : List PoolEntry :=
  (c.pool.entries.modify (c.pool.entries.findIdx (·.connection = id))
    fun e => { e with loans := e.loans - 1 }).filter fun e => !c.isClosed e.connection

theorem settled_eq (c : Client) (id : ConnectionId) :
    c.pool.settled c.isClosed id = c.entriesAfter id := by
  rw [settled, payBack_eq_modify]
  rfl

theorem isClosed_closeAll {c : Client} {ids : List ConnectionId} {x : ConnectionId} :
    (c.closeAll ids).isClosed x = true ↔ c.isClosed x = true ∨ x ∈ ids := by
  simpa [isClosed] using mem_closed_closeAll

/-- **A loan that comes back has the newest idle extras closed.** In whatever state a client is, the
entries that are left when a connection is freed are all that are on loan and, as long as there are
no more than the pool has to keep, the oldest that are idle. They stand in the order in which they
stood. The rounds of the eviction come to an end; the connections that they take out are idle and
get closed, and no others do. -/
theorem free_evicts_the_newest_idle {c : Client} (hc : c.connecting = none) (id : ConnectionId) :
    ∃ older newer, c.entriesAfter id = older ++ newer ∧
      (c.free id).pool = { c.pool with entries := older ++ newer.filter (!·.isIdle) } ∧
      (c.free id).pool.size = min (c.entriesAfter id).length
        (max c.config.minConnections ((c.entriesAfter id).countP (!·.isIdle))) ∧
      Evicts c.config.minConnections (c.entriesAfter id)
        ((newer.filter (·.isIdle)).reverse.map (·.connection)) (c.free id).pool.entries ∧
      ∀ x, (c.free id).isClosed x = true ↔
        c.isClosed x = true ∨ ∃ e ∈ newer, e.isIdle = true ∧ e.connection = x := by
  have hfree : c.free id = { c with
      pool := (c.pool.free c.isClosed c.config.minConnections id).2
      loans := c.loans.erase id }.closeAll
        (c.pool.free c.isClosed c.config.minConnections id).1 := by
    rw [free, step_free hc, Option.getD_some]
  obtain ⟨older, newer, hsplit, hgone, hleft, hsize⟩ := evict_split c.config.minConnections
    ({ c.pool with entries := payBack id c.pool.entries }.prune c.isClosed)
  have hevicts := evicts_evict c.config.minConnections
    ({ c.pool with entries := payBack id c.pool.entries }.prune c.isClosed)
  have hentries : ({ c.pool with entries := payBack id c.pool.entries }.prune c.isClosed).entries =
    c.entriesAfter id := c.settled_eq id
  refine ⟨older, newer, ?_, ?_, ?_, ?_, fun x => ?_⟩
  · rw [← hentries, hsplit]
  · rw [hfree, pool_closeAll, ConnectionPool.free, hleft]
    rfl
  · rw [hfree, pool_closeAll, ConnectionPool.free, hleft]
    simp only [size, hentries] at hsize ⊢
    exact hsize
  · rw [hfree, pool_closeAll, ConnectionPool.free, ← hgone, ← hentries]
    exact hevicts
  · rw [hfree, isClosed_closeAll, ConnectionPool.free, hgone]
    simp [isClosed, and_assoc]

/-! ### Two extras -/

/-- The pool has to keep two connections and has five. The last is closed, the second is on loan,
and so is the fourth until it comes back. -/
private def crowded : Client where
  config := { ClientConfig.sample with minConnections := 2 }
  connecting := none
  pool := { entries := [⟨⟨0⟩, 0⟩, ⟨⟨1⟩, 1⟩, ⟨⟨2⟩, 0⟩, ⟨⟨3⟩, 1⟩, ⟨⟨4⟩, 0⟩] }
  dialed := 5
  closed := [⟨4⟩]

theorem the_oldest_idle_connection_stays :
    crowded.connecting = none ∧
    (∃ older newer, [⟨⟨0⟩, 0⟩, ⟨⟨1⟩, 1⟩, ⟨⟨2⟩, 0⟩, ⟨⟨3⟩, 0⟩] = older ++ newer ∧
      (crowded.free ⟨3⟩).pool.entries = older ++ newer.filter (!·.isIdle)) ∧
    (crowded.free ⟨3⟩).pool.entries = [⟨⟨0⟩, 0⟩, ⟨⟨1⟩, 1⟩] ∧
    (crowded.free ⟨3⟩).closed = [⟨4⟩, ⟨3⟩, ⟨2⟩] := by
  obtain ⟨older, newer, hsplit, hpool, -⟩ := free_evicts_the_newest_idle (c := crowded) rfl ⟨3⟩
  exact ⟨rfl, ⟨older, newer, hsplit, congrArg ConnectionPool.entries hpool⟩, rfl, rfl⟩

end Client

end ClusterLink
