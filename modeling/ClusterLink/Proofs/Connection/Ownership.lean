import ClusterLink.Proofs.Connection.Deprivation
import ClusterLink.Proofs.Connection.Open
/-!
# Whose slot is taken away

A request whose time is up takes away whatever waits under its id. That is its own slot, unless the
reader has taken that one in the meantime and another request has registered the id since: then the
other request is robbed. It finds its slot abandoned and comes back as if the connection were closed,
although it is not.

Results:
* `Connection.deprives_iff_robs`: on an open connection no slot is taken away by another request in
  any other way.
* `Connection.closed_iff_robbed`: the requests that come back closed from an open connection are
  those that were robbed before their own time was up.
-/
namespace ClusterLink

namespace Connection

variable {options : ConnectionOptions} {c d : Connection} {t u : Ticket} {r q : Request}
  {e : ConnectionEvent} {events : List ConnectionEvent} {id : MessageId}

/-! ## Robbery -/

/-- The time of a request is up, and another request's slot waits under its id. -/
def Robs (c : Connection) (t u : Ticket) : Prop :=
  u ≠ t ∧ ∃ r, c.requests[t]? = some r ∧ r.stage = .overdue ∧ c.waiting? r.message.id = some u

theorem Robs.deprives (h : c.Robs t u) : c.Deprives t .giveUp u := by
  obtain ⟨hu, r, hr, hst, hw⟩ := h
  exact ⟨hu, r, hr, .overdue hst, hw⟩

/-- On an open connection no frame is refused, so that a request deprives another only by robbing it. -/
theorem deprives_iff_robs (hc : (machine options).Reachable c) (ho : c.isOpen = true)
    {x : RequestEvent} : c.Deprives t x u ↔ x = .giveUp ∧ c.Robs t u := by
  constructor
  · rintro ⟨hu, r, hr, hclears, hw⟩
    cases hclears with
    | refused hst => exact absurd hst ((attended hc ho).refused t r hr)
    | overdue hst => exact ⟨rfl, hu, r, hr, hst, hw⟩
  · rintro ⟨rfl, hrobs⟩
    exact hrobs.deprives

/-- In the course of some events, another request takes a request's slot away whose own time is not
up. -/
def RobbedDuring (options : ConnectionOptions) (events : List ConnectionEvent) (u : Ticket) : Prop :=
  ∃ before t after b q, events = before ++ .request t .giveUp :: after ∧
    (new options).run before = some b ∧ b.Robs t u ∧ b.requests[u]? = some q ∧ q.stage ≠ .overdue

theorem RobbedDuring.deprivedDuring (h : RobbedDuring options events u) :
    DeprivedDuring options events u := by
  obtain ⟨before, t, after, b, q, heq, hrun, hrobs, hrest⟩ := h
  exact ⟨before, t, .giveUp, after, b, q, heq, hrun, hrobs.deprives, hrest⟩

/-- A connection that is open was open when a request was deprived. -/
theorem deprivedDuring_iff_robbedDuring (hrun : (new options).run events = some c)
    (ho : c.isOpen = true) : DeprivedDuring options events u ↔ RobbedDuring options events u := by
  refine ⟨?_, RobbedDuring.deprivedDuring⟩
  rintro ⟨before, t, x, after, b, q, rfl, hb, hdep, hrest⟩
  have hopen : b.isOpen = true := isOpen_of_run ((run_append_eq hb _).symm.trans hrun) ho
  obtain ⟨rfl, hrobs⟩ := (deprives_iff_robs (reachable_of_run .start hb) hopen).1 hdep
  exact ⟨before, t, after, b, q, rfl, hb, hrobs, hrest⟩

/-- **Whose slot a request takes away, and who comes back closed.** While a connection is open, a
request takes another's slot away exactly if its time is up and the other's slot waits under its id.
A request whose frame was queued ends with a frame that carries its id, with its timeout, or closed;
and it ends closed exactly if another took its slot away before its own time was up. Nobody does so
if the requests in flight have different ids. -/
theorem closed_iff_robbed (options : ConnectionOptions) :
    (∀ c, (machine options).Reachable c → c.isOpen = true → ∀ t u id e d, u ≠ t →
      c.step (.request t e) = some d → (id, u) ∈ c.pending →
      ((id, u) ∉ d.pending ↔ e = .giveUp ∧ c.Robs t u)) ∧
    (∀ events c, (new options).run events = some c → c.isOpen = true →
      ∀ (u : Ticket) (q : Request) (result : Except ConnectionError Arrival),
        c.requests[u]? = some q → q.sent = true → q.result? = some result →
        ((∃ a, result = .ok a ∧ a.message.id = q.message.id) ∨
          (∃ d, result = .error (.timeout q.message.id d)) ∨ result = .error .closed) ∧
        (result = .error .closed ↔ RobbedDuring options events u)) ∧
    (∀ events c, (new options).run events = some c →
      (machine options).Along (fun u => u.books.DistinctInFlight) (new options) events →
      ∀ u, ¬RobbedDuring options events u) := by
  refine ⟨fun c hc ho t u id e d hu hs hmem =>
      (removed_iff_deprives hc hs hu hmem).trans (deprives_iff_robs hc ho),
    fun events c hrun ho u q result hq hsent hres => ?_,
    fun events c hrun hd u hrob => not_deprivedDuring_of_distinct hrun hd hrob.deprivedDuring⟩
  rw [← deprivedDuring_iff_robbedDuring hrun ho]
  exact closed_iff_deprived hrun hq hsent hres

/-! ## A request that is overtaken -/

private def inquiry : Message := .bare (.ofNat 1) .select

private def reaction : Message := .bare (.ofNat 1) .insert

/-- The reader takes a request's slot when its time has just run out. Before the request gives up, a
second one registers the id. -/
private def overtaking : List ConnectionEvent :=
  [.reader (.start true), .send inquiry, .request 0 .register, .request 0 .reach, .request 0 .queue,
    .request 0 .timeOut, .reader (.arrive reaction), .send inquiry, .request 1 .register,
    .request 1 .reach, .request 1 .queue]

/-- The first request gives up, and the second looks for its response. -/
private def outcome : List ConnectionEvent := [.request 0 .giveUp, .request 1 .take]

theorem the_overtaken_request_is_closed :
    ∃ c, (new {}).run (overtaking ++ outcome) = some c ∧ c.isOpen = true ∧
      c.result? 1 = some (.error .closed) ∧ RobbedDuring {} (overtaking ++ outcome) 1 := by
  have hrun : (new {}).run (overtaking ++ outcome) =
      some (((new {}).run (overtaking ++ outcome)).getD (new {})) := by rfl
  obtain ⟨-, h, -⟩ := closed_iff_robbed {}
  exact ⟨_, hrun, by rfl, by rfl,
    (h _ _ hrun (by rfl) 1 ⟨inquiry, .ended (.error .closed), .abandoned, 1, true⟩
      (.error .closed) (by rfl) rfl rfl).2.1 rfl⟩

/-- It does not hold of every run on an open connection that a request leaves the slots of others
alone, and that no request whose frame was queued ends closed. -/
theorem overtaking_takes_the_other_slot :
    ¬∀ (options : ConnectionOptions) (events : List ConnectionEvent) (c : Connection),
      (new options).run events = some c → c.isOpen = true →
      (∀ t u id e d, u ≠ t → c.step (.request t e) = some d → (id, u) ∈ c.pending →
        (id, u) ∈ d.pending) ∧
      ∀ (u : Ticket) (q : Request) (result : Except ConnectionError Arrival),
        c.requests[u]? = some q → q.sent = true → q.result? = some result →
        (∃ a, result = .ok a ∧ a.message.id = q.message.id) ∨
          ∃ d, result = .error (.timeout q.message.id d) := by
  intro hall
  have hrun : (new {}).run overtaking = some (((new {}).run overtaking).getD (new {})) := by rfl
  have hkept := (hall {} overtaking _ hrun (by rfl)).1 0 1 (.ofNat 1) .giveUp
    (((new {}).run (overtaking ++ [.request 0 .giveUp])).getD (new {})) (by decide) (by rfl)
    (by decide)
  revert hkept
  decide

end Connection

end ClusterLink
