import ClusterLink.Proofs.Connection.Lateness
/-!
# Nothing is left behind

However a request ends, it leaves no slot behind: what waits under an id belongs to a request that
was registered and has not come back. The ids of late responses are those of requests that timed
out, in the order in which they did, and there are never more of them than there is room for.

Results:
* `Books.Step.expired_sublist`, `Books.Step.length_expired_le`: what one step does to the ids of
  late responses.
* `Books.Coherent.length_pending_le`: there are at most as many slots that wait as requests that do.
* `Connection.bookkeeping_never_leaks`: all of it after every run.
-/
namespace ClusterLink

/-- The id of the request that a step ends with a timeout: it had not come back before. -/
def timeoutOf (before after : List Request) : ConnectionEvent → Option MessageId
  | .request t _ =>
    match (before[t]?).bind Request.result?, (after[t]?).bind Request.result? with
    | none, some (.error (.timeout id _)) => some id
    | _, _ => none
  | _ => none

namespace Books

variable {isOpen : Bool} {b b' : Books} {e : ConnectionEvent} {t : Ticket} {r : Request}

/-! ## Late responses -/

theorem timeoutOf_giveUp (hr : b.requests[t]? = some r) (hs : r.stage = .overdue) (d : Duration) :
    timeoutOf b.requests (b.giveUp t r d).requests (.request t .giveUp) = some r.message.id := by
  have hbefore : (b.requests[t]?).bind Request.result? = none := by
    simp [hr, Request.result?, hs]
  have hafter : ((b.giveUp t r d).requests[t]?).bind Request.result? =
      some (.error (.timeout r.message.id d)) := by
    rw [getElem?_giveUp hr]
    by_cases hw : b.waiting? r.message.id = some t <;> simp [hw, Request.expired, Request.result?]
  simp only [timeoutOf, hbefore, hafter]

theorem expired_expire_sublist (b : Books) (id : MessageId) :
    (b.expire id).expired.Sublist (b.expired ++ [id]) := by
  apply List.Sublist.append _ (List.Sublist.refl [id])
  split
  · exact List.drop_sublist ..
  · exact List.Sublist.refl _

theorem length_expired_expire_le (h : b.expired.length ≤ expiredCapacity) (id : MessageId) :
    (b.expire id).expired.length ≤ expiredCapacity := by
  simp only [expire, List.length_append, List.length_singleton]
  split
  · next hfull =>
    -- The oldest id makes room for the new one.
    have hdrop : (b.expired.drop 1).length + 1 = expiredCapacity := by
      simp [hfull, expiredCapacity]
    omega
  · next hroom => omega

/-- A step adds to the ids of late responses at most the one that it times out, at the end. -/
theorem Step.expired_sublist (hs : b.Step isOpen e b') :
    b'.expired.Sublist (b.expired ++ (timeoutOf b.requests b'.requests e).toList) := by
  cases hs with
  | withdraw =>
    rw [expired_withdraw]
    exact List.sublist_append_left ..
  | @giveUp t r d hr hst hw =>
    rw [timeoutOf_giveUp hr hst]
    have hsub := expired_expire_sublist ((b.setStage t r (.ended (.error
      (.timeout r.message.id d)))).withdraw r.message.id) r.message.id
    rw [expired_withdraw] at hsub
    exact hsub
  | late => exact List.erase_sublist.trans (List.sublist_append_left ..)
  | _ => exact List.sublist_append_left ..

theorem Step.length_expired_le (hs : b.Step isOpen e b')
    (h : b.expired.length ≤ expiredCapacity) : b'.expired.length ≤ expiredCapacity := by
  cases hs with
  | withdraw =>
    rw [expired_withdraw]
    exact h
  | giveUp =>
    apply length_expired_expire_le
    rw [expired_withdraw]
    exact h
  | late => exact Nat.le_trans List.erase_sublist.length_le h
  | _ => exact h

/-! ## Slots that wait -/

/-- What waits under an id belongs to a request that was registered and has not come back. -/
theorem Coherent.waits (h : b.Coherent) {id : MessageId} (hmem : (id, t) ∈ b.pending) :
    ∃ r, b.requests[t]? = some r ∧ r.message.id = id ∧ r.isRegistered = true := by
  obtain ⟨r, hr, hid, -, hreg, -⟩ := h.waiting id t hmem
  exact ⟨r, hr, hid, hreg⟩

theorem Coherent.length_pending_le (h : b.Coherent) :
    b.pending.length ≤ b.requests.countP (·.isRegistered) := by
  have hsub : b.pending.map Prod.fst ⊆ (b.requests.filter (·.isRegistered)).map (·.message.id) := by
    intro id hid
    obtain ⟨⟨id, t⟩, hmem, rfl⟩ := List.mem_map.1 hid
    obtain ⟨r, hr, hrid, hreg⟩ := h.waits hmem
    exact List.mem_map.2 ⟨r, List.mem_filter.2 ⟨List.mem_of_getElem? hr, hreg⟩, hrid⟩
  have hle := List.Nodup.length_le_of_subset h.keys hsub
  rw [List.length_map, List.length_map] at hle
  rw [List.countP_eq_length_filter]
  exact hle

end Books

namespace Connection

variable {options : ConnectionOptions} {c d z : Connection} {e : ConnectionEvent}
  {events : List ConnectionEvent}

/-- The ids of the requests that come back with a timeout in the course of some events, in the order
in which they do. -/
def timeouts (c : Connection) : List ConnectionEvent → List MessageId
  | [] => []
  | e :: later =>
    match c.step e with
    | none => []
    | some d => (timeoutOf c.requests d.requests e).toList ++ d.timeouts later

theorem timeouts_concat (hrun : c.run events = some d) (hs : d.step e = some z) :
    c.timeouts (events ++ [e]) =
      c.timeouts events ++ (timeoutOf d.requests z.requests e).toList := by
  induction events generalizing c with
  | nil =>
    cases hrun
    simp [timeouts, hs]
  | cons e' later ih =>
    rw [run_cons] at hrun
    obtain ⟨u, hu, hrest⟩ := Option.bind_eq_some_iff.1 hrun
    simp only [List.cons_append, timeouts, hu, ih hrest, List.append_assoc]

theorem expired_of_run (hrun : (new options).run events = some c) :
    c.expired.length ≤ expiredCapacity ∧ c.expired.Sublist ((new options).timeouts events) := by
  refine @Machine.run_induction _ _ (machine options)
    (fun done u => u.expired.length ≤ expiredCapacity ∧
      u.expired.Sublist ((new options).timeouts done)) (new options) c ?_ ?_ events hrun
  · exact ⟨Nat.zero_le _, List.nil_sublist _⟩
  · intro done u e v hdone hinv hs
    have hstep := step_books hs
    refine ⟨hstep.length_expired_le hinv.1, ?_⟩
    rw [timeouts_concat ((run_machine options _ _).symm.trans hdone) hs]
    exact hstep.expired_sublist.trans (hinv.2.append (List.Sublist.refl _))

/-- **Requests leave nothing behind.** After every run, a slot that waits under an id belongs to a
request with that id that was registered and has not come back, and at most as many slots wait as
there are such requests. No more ids of late responses are remembered than there is room for, and
they stand in the order in which requests with them timed out. Once all requests have come back
nothing waits. -/
theorem bookkeeping_never_leaks (hrun : (new options).run events = some c) :
    (∀ id t, (id, t) ∈ c.pending →
      ∃ r, c.requests[t]? = some r ∧ r.message.id = id ∧ r.isRegistered = true) ∧
    c.pendingRequests ≤ c.requests.countP (·.isRegistered) ∧
    c.expired.length ≤ expiredCapacity ∧
    c.expired.Sublist ((new options).timeouts events) ∧
    ((∀ r ∈ c.requests, r.isOver = true) → c.pending = []) := by
  have hreach : (machine options).Reachable c := reachable_of_run .start hrun
  have hco := coherent hreach
  obtain ⟨hlength, hsub⟩ := expired_of_run hrun
  refine ⟨fun id t hmem => hco.waits hmem, hco.length_pending_le, hlength, hsub, ?_⟩
  intro hover
  apply List.eq_nil_iff_forall_not_mem.2
  rintro ⟨id, t⟩ hmem
  obtain ⟨r, hr, -, hreg⟩ := hco.waits hmem
  have hback := hover r (List.mem_of_getElem? hr)
  rw [Request.isOver_of_isRegistered hreg] at hback
  cases hback

/-! ## Three ways to come back -/

private def slowRequest : Message := .bare (.ofNat 1) .select

private def cutOffRequest : Message := .bare (.ofNat 2) .select

/-- The first request times out. The second is registered and finds the connection closed before it
can be queued, the third has the id of the second. -/
private def departures : List ConnectionEvent :=
  [.send slowRequest, .request 0 .register, .request 0 .reach, .request 0 .queue,
    .request 0 .timeOut, .request 0 .giveUp, .send cutOffRequest, .request 1 .register,
    .send cutOffRequest, .request 2 .register, .close, .closing .announce, .closing .detach,
    .request 1 .reach, .request 1 .withdraw]

theorem three_requests_leave_nothing_behind :
    ∃ c, (new {}).run departures = some c ∧ c.result? 1 = some (.error .closed) ∧
      c.result? 2 = some (.error (.duplicateId (.ofNat 2))) ∧ c.expired = [.ofNat 1] ∧
      c.expired.Sublist ((new {}).timeouts departures) ∧ c.pending = [] := by
  have hrun : (new {}).run departures = some (((new {}).run departures).getD (new {})) := by rfl
  obtain ⟨-, -, -, hexpired, hpending⟩ := bookkeeping_never_leaks hrun
  exact ⟨_, hrun, by rfl, by rfl, by rfl, hexpired, hpending (by decide)⟩

end Connection

end ClusterLink
