import ClusterLink.Proofs.Client.Pruning
import Mathlib.Data.List.Nodup
/-!
# What a pool lends and takes back

What the functions of a pool do to its entries, so that nobody has to look into them again. An entry
is changed where it stands when it is lent or paid back, and leaves when it is closed or evicted.

Results:
* `ConnectionPool.lend_cases`: what is lent, an idle entry if there is one.
* `ConnectionPool.commit_cases`: how an allocation ends.
* `ConnectionPool.payBack_cases`: what becomes of the entries when a loan comes back.
* `ConnectionPool.mem_free_or_closed`, `ConnectionPool.idle_of_mem_extras`,
  `ConnectionPool.few_or_on_loan_of_free`: what is evicted, and what is left.
-/
namespace ClusterLink.ConnectionPool

variable {closed : ConnectionId → Bool} {p q : ConnectionPool} {e : PoolEntry} {id : ConnectionId}
  {n least most : Nat} {fresh : List ConnectionId}

/-- The connections of a pool, the oldest first. -/
def connections (p : ConnectionPool) : List ConnectionId := p.entries.map (·.connection)

theorem mem_connections : id ∈ p.connections ↔ ∃ e ∈ p.entries, e.connection = id := List.mem_map

/-- In a pool that has no connection twice, all other entries have other connections. -/
theorem connection_ne {before after : List PoolEntry} {x : PoolEntry}
    (h : ((before ++ x :: after).map (·.connection)).Nodup) (he : e ∈ before ∨ e ∈ after) :
    e.connection ≠ x.connection := by
  rw [List.map_append, List.map_cons, List.nodup_middle] at h
  intro hid
  have hmem : e.connection ∈ before.map (·.connection) ++ after.map (·.connection) :=
    List.mem_append.2 (he.imp List.mem_map_of_mem List.mem_map_of_mem)
  rw [hid] at hmem
  exact (List.nodup_cons.1 h).1 hmem

/-! ## Lending -/

/-- Every place has its turn. -/
theorem mem_turn {i : Nat} : i ∈ p.turn ↔ i < p.size := by
  simp only [turn, List.mem_map, List.mem_range]
  constructor
  · rintro ⟨offset, hoffset, rfl⟩
    exact Nat.mod_lt _ (by omega)
  · intro hi
    have hstart : p.cursor % p.size < p.size := Nat.mod_lt _ (by omega)
    generalize p.cursor % p.size = start at hstart
    by_cases hle : start ≤ i
    · refine ⟨i - start, by omega, ?_⟩
      rw [Nat.add_sub_cancel' hle, Nat.mod_eq_of_lt hi]
    · refine ⟨i + p.size - start, by omega, ?_⟩
      rw [show start + (i + p.size - start) = i + p.size by omega, Nat.add_mod_right,
        Nat.mod_eq_of_lt hi]

theorem nextIndex_lt (h : p.entries ≠ []) : p.nextIndex < p.size := by
  have hpos : 0 < p.size := List.length_pos_iff.2 h
  cases hfind : p.turn.find? p.isIdleAt with
  | none => simpa [nextIndex, hfind] using Nat.mod_lt p.cursor hpos
  | some i => simpa [nextIndex, hfind] using mem_turn.1 (List.mem_of_find?_eq_some hfind)

theorem isIdleAt_nextIndex (h : p.hasIdle = true) : p.isIdleAt p.nextIndex = true := by
  obtain ⟨e, he, hidle⟩ := List.any_eq_true.1 h
  obtain ⟨i, hi, rfl⟩ := List.mem_iff_getElem.1 he
  cases hfind : p.turn.find? p.isIdleAt with
  | none =>
    rw [List.find?_eq_none] at hfind
    exact absurd (by simp [isIdleAt, hi, hidle]) (hfind i (mem_turn.2 hi))
  | some i => simpa [nextIndex, hfind] using List.find?_some hfind

/-- An empty pool lends nothing, any other an idle entry if it has one. The count of what is lent
goes up by one, and nothing else changes but the cursor. -/
theorem lend_cases (p : ConnectionPool) :
    (p.entries = [] ∧ p.lend = none) ∨
    ∃ before e after, p.entries = before ++ e :: after ∧ (p.hasIdle = true → e.isIdle = true) ∧
      p.lend = some (e.connection, { p with
        cursor := before.length + 1
        entries := before ++ { e with loans := e.loans + 1 } :: after }) := by
  by_cases hempty : p.entries = []
  · exact Or.inl ⟨hempty, by simp [lend, hempty]⟩
  · have hi : p.nextIndex < p.entries.length := nextIndex_lt hempty
    obtain ⟨before, after, hsplit, hlength, hset⟩ := @List.exists_of_set _ p.nextIndex
      { p.entries[p.nextIndex] with loans := p.entries[p.nextIndex].loans + 1 } p.entries hi
    refine Or.inr ⟨before, p.entries[p.nextIndex], after, hsplit, ?_, ?_⟩
    · intro hidle
      simpa [isIdleAt, hi] using isIdleAt_nextIndex hidle
    · simp only [lend, List.getElem?_eq_getElem hi, hset, hlength]

theorem commit_of_open (h : p.isClosed = false) :
    p.commit n fresh =
      match ({ p with dialing := p.dialing - n }.add fresh).lend with
      | some (c, lent) => (.ok c, lent)
      | none => (.error .noAvailableConnections, { p with dialing := p.dialing - n }.add fresh) :=
  if_neg (by simp [h])

/-- An allocation ends without a loan if the pool is closed, or has nothing and got nothing. In any
other case it lends from what the pool has and got. -/
theorem commit_cases (n : Nat) (fresh : List ConnectionId) (p : ConnectionPool) :
    (p.isClosed = true ∧
      p.commit n fresh = (.error .closed, { p with dialing := p.dialing - n })) ∨
    (p.isClosed = false ∧ p.entries = [] ∧ fresh = [] ∧
      p.commit n fresh = (.error .noAvailableConnections, { p with dialing := p.dialing - n })) ∨
    (p.isClosed = false ∧ ∃ before e after, (p.add fresh).entries = before ++ e :: after ∧
      ((p.add fresh).hasIdle = true → e.isIdle = true) ∧
      p.commit n fresh = (.ok e.connection, { p with
        dialing := p.dialing - n
        cursor := before.length + 1
        entries := before ++ { e with loans := e.loans + 1 } :: after })) := by
  by_cases hclosed : p.isClosed = true
  · exact Or.inl ⟨hclosed, if_pos hclosed⟩
  · refine Or.inr ?_
    have hopen := eq_false_of_ne_true hclosed
    rcases lend_cases ({ p with dialing := p.dialing - n }.add fresh) with
      ⟨hempty, hlend⟩ | ⟨before, e, after, hsplit, hidle, hlend⟩
    · obtain ⟨hp, hf⟩ : p.entries = [] ∧ fresh = [] := by simpa [add] using hempty
      refine Or.inl ⟨hopen, hp, hf, ?_⟩
      rw [commit_of_open hopen, hlend]
      simp [add, hf]
    · refine Or.inr ⟨hopen, before, e, after, hsplit, hidle, ?_⟩
      rw [commit_of_open hopen, hlend]
      rfl

/-! ## Taking back -/

/-- A loan that comes back is taken off the count of its connection, if the pool has it. -/
theorem payBack_cases (id : ConnectionId) (entries : List PoolEntry) :
    ((∀ e ∈ entries, e.connection ≠ id) ∧ payBack id entries = entries) ∨
    ∃ before e after, entries = before ++ e :: after ∧ e.connection = id ∧
      payBack id entries = before ++ { e with loans := e.loans - 1 } :: after := by
  induction entries with
  | nil => exact Or.inl ⟨by simp, rfl⟩
  | cons x rest ih =>
    by_cases hx : x.connection = id
    · exact Or.inr ⟨[], x, rest, rfl, hx, by simp [payBack, hx]⟩
    · rcases ih with ⟨hnone, hrest⟩ | ⟨before, e, after, hsplit, hid, hrest⟩
      · refine Or.inl ⟨?_, by simp [payBack, hx, hrest]⟩
        intro e he
        rcases List.mem_cons.1 he with rfl | he
        · exact hx
        · exact hnone e he
      · exact Or.inr ⟨x :: before, e, after, by simp [hsplit], hid, by simp [payBack, hx, hrest]⟩

/-- A loan that comes back is as if it had not been given. -/
theorem payBack_lent {before after : List PoolEntry} {x : PoolEntry}
    (h : ((before ++ x :: after).map (·.connection)).Nodup) :
    payBack x.connection (before ++ { x with loans := x.loans + 1 } :: after) =
      before ++ x :: after := by
  induction before with
  | nil => simp [payBack]
  | cons b rest ih =>
    have hne : b.connection ≠ x.connection := connection_ne h (Or.inl (List.mem_cons_self ..))
    rw [List.cons_append, payBack, if_neg hne, ih (List.Nodup.of_cons h), List.cons_append]

/-- What is dropped for being idle is idle. -/
theorem idle_of_mem_dropIdle {extras : Nat} {entries : List PoolEntry}
    (h : id ∈ (dropIdle extras entries).1) : ∃ e ∈ entries, e.connection = id ∧ e.loans = 0 := by
  fun_induction dropIdle extras entries with
  | case1 => cases h
  | case2 => cases h
  | case3 extras e rest hidle taken left hrec ih =>
    rw [hrec] at ih
    rcases List.mem_cons.1 h with rfl | h
    · exact ⟨e, List.mem_cons_self .., rfl, by simpa [PoolEntry.isIdle] using hidle⟩
    · obtain ⟨x, hx, hid⟩ := ih h
      exact ⟨x, List.mem_cons_of_mem e hx, hid⟩
  | case4 extras e rest hidle taken left hrec ih =>
    rw [hrec] at ih
    obtain ⟨x, hx, hid⟩ := ih h
    exact ⟨x, List.mem_cons_of_mem e hx, hid⟩

theorem mem_dropIdle (extras : Nat) {entries : List PoolEntry} (h : e ∈ entries) :
    e ∈ (dropIdle extras entries).2 ∨ e.connection ∈ (dropIdle extras entries).1 := by
  fun_induction dropIdle extras entries with
  | case1 => exact Or.inl h
  | case2 => cases h
  | case3 extras x rest hidle taken left hrec ih =>
    rw [hrec] at ih
    rcases List.mem_cons.1 h with rfl | h
    · exact Or.inr (List.mem_cons_self ..)
    · exact (ih h).imp id (List.mem_cons_of_mem _)
  | case4 extras x rest hidle taken left hrec ih =>
    rw [hrec] at ih
    rcases List.mem_cons.1 h with rfl | h
    · exact Or.inl (List.mem_cons_self ..)
    · exact (ih h).imp (List.mem_cons_of_mem _) id

/-- Idle entries are left only if as many were dropped as should be. -/
theorem length_dropIdle_of_idle {extras : Nat} {entries : List PoolEntry}
    (h : e ∈ (dropIdle extras entries).2) (hidle : e.isIdle = true) :
    (dropIdle extras entries).1.length = extras := by
  fun_induction dropIdle extras entries with
  | case1 => rfl
  | case2 => cases h
  | case3 extras x rest hx taken left hrec ih =>
    rw [hrec] at ih
    exact congrArg (· + 1) (ih h)
  | case4 extras x rest hx taken left hrec ih =>
    rw [hrec] at ih
    rcases List.mem_cons.1 h with rfl | h
    · exact absurd hidle hx
    · exact ih h

/-- The entries of which `free` keeps as many as it should: those left after a loan came back and
the closed connections were dropped. -/
def settled (closed : ConnectionId → Bool) (id : ConnectionId) (p : ConnectionPool) :
    List PoolEntry :=
  ({ p with entries := payBack id p.entries }.prune closed).entries

theorem mem_settled : e ∈ p.settled closed id ↔
    e ∈ payBack id p.entries ∧ closed e.connection = false := mem_prune

theorem free_sublist (closed : ConnectionId → Bool) (least : Nat) (id : ConnectionId)
    (p : ConnectionPool) :
    (p.free closed least id).2.entries.Sublist (p.settled closed id) := by
  have h := (dropIdle_sublist ((p.settled closed id).length - least)
    (p.settled closed id).reverse).reverse
  rwa [List.reverse_reverse] at h

theorem idle_of_mem_extras {x : ConnectionId} (h : x ∈ (p.free closed least id).1) :
    ∃ e ∈ p.settled closed id, e.connection = x ∧ e.loans = 0 := by
  obtain ⟨e, he, hid⟩ := idle_of_mem_dropIdle h
  exact ⟨e, List.mem_reverse.1 he, hid⟩

theorem mem_free_or_closed (closed : ConnectionId → Bool) (least : Nat)
    (h : e ∈ payBack id p.entries) :
    e ∈ (p.free closed least id).2.entries ∨ e.connection ∈ (p.free closed least id).1 ∨
      closed e.connection = true := by
  cases hclosed : closed e.connection with
  | true => exact Or.inr (Or.inr rfl)
  | false =>
    have hmem := List.mem_reverse.2 (mem_settled.2 ⟨h, hclosed⟩)
    rcases mem_dropIdle ((p.settled closed id).length - least) hmem with hleft | htaken
    · exact Or.inl (List.mem_reverse.2 hleft)
    · exact Or.inr (Or.inl htaken)

/-- What is left is no more than it should be, or on loan. -/
theorem few_or_on_loan_of_free :
    (p.free closed least id).2.size ≤ least ∨
      ∀ e ∈ (p.free closed least id).2.entries, 0 < e.loans := by
  by_cases hall : ∀ e ∈ (p.free closed least id).2.entries, 0 < e.loans
  · exact Or.inr hall
  · push Not at hall
    obtain ⟨e, he, hloans⟩ := hall
    have hidle : e.isIdle = true := by simpa [PoolEntry.isIdle] using hloans
    have htaken : (dropIdle ((p.settled closed id).length - least)
        (p.settled closed id).reverse).1.length = (p.settled closed id).length - least :=
      length_dropIdle_of_idle (List.mem_reverse.1 he) hidle
    have hlength := length_dropIdle ((p.settled closed id).length - least)
      (p.settled closed id).reverse
    rw [htaken, List.length_reverse] at hlength
    have hsize : (p.free closed least id).2.size =
        (dropIdle ((p.settled closed id).length - least) (p.settled closed id).reverse).2.length :=
      List.length_reverse
    exact Or.inl (by omega)

theorem map_connection_payBack (id : ConnectionId) (entries : List PoolEntry) :
    (payBack id entries).map (·.connection) = entries.map (·.connection) := by
  rcases payBack_cases id entries with ⟨-, h⟩ | ⟨before, e, after, rfl, -, h⟩
  · rw [h]
  · simp [h]

theorem connections_free_sublist (closed : ConnectionId → Bool) (least : Nat) (id : ConnectionId)
    (p : ConnectionPool) : (p.free closed least id).2.connections.Sublist p.connections := by
  have h : (p.free closed least id).2.entries.Sublist (payBack id p.entries) :=
    (free_sublist closed least id p).trans List.filter_sublist
  have hmap := h.map (·.connection)
  rwa [map_connection_payBack] at hmap

end ClusterLink.ConnectionPool
