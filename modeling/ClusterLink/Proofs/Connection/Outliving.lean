import ClusterLink.Proofs.Connection.Unread
import ClusterLink.Proofs.Machine.Inevitable
/-!
# Requests that outlive their connection

A request whose frame was queued does not end when its connection is closed: its slot goes on waiting
until there is a response or its time is up. It could lose the slot only to a request under the same
id that is in flight with it, as a request takes away what waits under its id and not its own slot.
On a closed connection no further request gets as far as that.

Results:
* `Request.Change.slot_ne_abandoned`: a request alone under its id is not abandoned.
* `Connection.Holds.of_run`: on a closed connection a queued request holds on to its slot.
* `Connection.Holds.keeps`: what the slot and the result of such a request are.
* `Connection.inevitable_over`: it comes to its end by its own steps.
* `Connection.holds_of_distinct`: with different ids in flight, all queued requests hold their slots.
-/
namespace ClusterLink

namespace Books

/-- Whether nobody else in flight has the id of a request. -/
def Alone (b : Books) (t : Ticket) (r : Request) : Prop :=
  ∀ u q, u ≠ t → b.requests[u]? = some q → q.isOver = false → q.message.id ≠ r.message.id

theorem DistinctInFlight.alone {b : Books} (h : b.DistinctInFlight) {t : Ticket} {r : Request}
    (hr : b.requests[t]? = some r) (ho : r.isOver = false) : b.Alone t r :=
  fun _ _ hne hq hqo hid => hne (h.eq hq hr hqo ho hid)

end Books

namespace Request

variable {isOpen : Bool} {b : Books} {e : ConnectionEvent} {t : Ticket} {r r' : Request}

theorem isOver_eq_false_of_stage {stage : RequestStage} (hs : r.stage = stage)
    (h : ∀ result, stage ≠ .ended result) : r.isOver = false := by
  subst hs
  unfold isOver result?
  cases hst : r.stage with
  | ended result => exact absurd hst (h result)
  | _ => rfl

namespace Change

/-- Nobody takes the slot of a request away that is alone under its id. -/
theorem not_robbed_of_alone {u : Ticket} {q : Request} (hc : b.Coherent)
    (hr : b.requests[t]? = some r) (halone : r.isOver = false → b.Alone t r) (hu : u ≠ t)
    (hq : b.requests[u]? = some q) (ho : q.isOver = false)
    (hw : b.waiting? q.message.id = some t) : False := by
  obtain ⟨r', hr', hid, -, hreg, -⟩ := hc.waiting _ t (Books.mem_of_waiting? hw)
  cases hr.symm.trans hr'
  exact halone (isOver_of_isRegistered hreg) u q hu hq ho hid.symm

/-- A request that is alone under its id is not abandoned as long as it has not come back. -/
theorem slot_ne_abandoned (h : r.Change isOpen b e t r') (hc : b.Coherent)
    (hr : b.requests[t]? = some r) (halone : r.isOver = false → b.Alone t r)
    (hslot : r.isOver = false → r.slot ≠ .abandoned) (ho : r'.isOver = false) :
    r'.slot ≠ .abandoned := by
  cases h with
  | keep => exact hslot ho
  | move he hm =>
    rw [hm.slot_eq]
    exact hslot hm.isOver_eq_false
  | register he hs hw => exact hslot (isOver_eq_false_of_stage hs fun _ => RequestStage.noConfusion)
  | withdraw he hs hr' =>
    subst hr'
    split at ho
    · rw [isOver_abandon] at ho
      cases ho
    · cases ho
  | giveUp d he hs hw hr' =>
    subst hr'
    split at ho
    · rw [isOver_abandon] at ho
      cases ho
    · cases ho
  | robbed hu hq he hw =>
    refine (not_robbed_of_alone hc hr halone hu hq ?_ hw).elim
    obtain ⟨-, hs⟩ | ⟨-, hs⟩ := he
    · exact isOver_eq_false_of_stage hs fun _ => RequestStage.noConfusion
    · exact isOver_eq_false_of_stage hs fun _ => RequestStage.noConfusion
  | fill => exact fun hab => nomatch hab

/-- Once queued, a request is queued for good. -/
theorem sent_of (h : r.Change isOpen b e t r') (hs : r.sent = true) : r'.sent = true := by
  by_cases he : e = .request t .queue
  · cases h with
    | move he' hm => cases hm <;> first | exact hs | rfl
    | keep | register | fill => exact hs
    | withdraw he' => rw [he] at he'; cases he'
    | giveUp d he' => rw [he] at he'; cases he'
    | robbed => rwa [sent_abandon]
  · rw [h.sent_eq he, hs]

/-- A queued request that is not abandoned does not come back as if it had been refused. -/
theorem stage_ne_closed (h : r.Change isOpen b e t r') (ht : r.Timely) (hsent : r.sent = true)
    (hslot : r.isOver = false → r.slot ≠ .abandoned) (hst : r.stage ≠ .ended (.error .closed)) :
    r'.stage ≠ .ended (.error .closed) := by
  cases h with
  | keep => exact hst
  | move he hm =>
    have hover := hm.isOver_eq_false
    cases hm with
    | lose hs ha => exact absurd ha (hslot hover)
    | _ => exact fun hend => nomatch hend
  | register => exact fun hend => nomatch hend
  | withdraw he hs =>
    rw [ht.unqueued (by simp [isUnqueued, hs])] at hsent
    cases hsent
  | giveUp d he hs hw hr' =>
    subst hr'
    split
    · rw [stage_abandon]
      exact fun hend => nomatch hend
    · exact fun hend => nomatch hend
  | robbed => rwa [stage_abandon]
  | fill => exact hst

end Change

end Request

namespace Connection

variable {options : ConnectionOptions} {c d : Connection} {e : ConnectionEvent}
  {events : List ConnectionEvent} {t : Ticket} {q : Request}

/-! ## Slots on a closed connection -/

/-- A request whose frame was queued has its slot to itself. -/
structure Holds (c : Connection) (t : Ticket) (q : Request) : Prop where
  request : c.requests[t]? = some q
  sent : q.sent = true
  alone : q.isOver = false → c.books.Alone t q
  slot : q.isOver = false → q.slot ≠ .abandoned
  unrefused : q.stage ≠ .ended (.error .closed)

/-- On a closed connection nobody comes to be in flight. -/
theorem isOver_of_send (hclosed : c.isClosed = true) (hs : c.step e = some d) {u : Ticket}
    {r : Request} (hnone : c.requests[u]? = none) (hr : d.requests[u]? = some r) :
    r.isOver = true := by
  have hstage := ((Shut.refl hclosed).step hs).requests u r (List.getElem?_eq_none_iff.1 hnone) hr
  simp [Request.isOver, Request.result?, hstage]

theorem Holds.step (h : c.Holds t q) (hc : (machine options).Reachable c)
    (hclosed : c.isClosed = true) (hs : c.step e = some d) :
    ∃ q', d.Holds t q' ∧ q'.message = q.message := by
  have hb := step_books hs
  obtain ⟨q', hq', hch⟩ := hb.change h.request
  have hco := coherent hc
  have hover (ho : q'.isOver = false) : q.isOver = false := by
    by_contra hq
    rw [hch.becomes.isOver (Bool.of_not_eq_false hq)] at ho
    cases ho
  refine ⟨q', ⟨hq', hch.sent_of h.sent, fun ho u r hu hr hro => ?_,
    hch.slot_ne_abandoned hco h.request h.alone h.slot,
    hch.stage_ne_closed (timely hc t q h.request) h.sent h.slot h.unrefused⟩, hch.message_eq⟩
  obtain ⟨r₀, hr₀, hchange⟩ | ⟨hnone, -⟩ := hb.origin hr
  · have hr₀o : r₀.isOver = false := by
      by_contra hover₀
      rw [hchange.becomes.isOver (Bool.of_not_eq_false hover₀)] at hro
      cases hro
    rw [hchange.message_eq, hch.message_eq]
    exact h.alone (hover ho) u r₀ hu hr₀ hr₀o
  · rw [isOver_of_send hclosed hs hnone hr] at hro
    cases hro

/-- **On a closed connection a queued request holds on to its slot.** -/
theorem Holds.of_run (h : c.Holds t q) (hc : (machine options).Reachable c)
    (hclosed : c.isClosed = true) (hrun : c.run events = some d) :
    ∃ q', d.Holds t q' ∧ q'.message = q.message := by
  refine (kept_of_run (P := fun d => (machine options).Reachable d ∧ d.isClosed = true ∧
    ∃ q', d.Holds t q' ∧ q'.message = q.message) ?_ ⟨hc, hclosed, q, h, rfl⟩ hrun).2.2
  rintro u e v ⟨hu, huc, q', hq', hm⟩ hs
  obtain ⟨q'', hq'', hm'⟩ := hq'.step hu huc hs
  exact ⟨hu.step hs, ((Shut.refl huc).step hs).closed, q'', hq'', hm'.trans hm⟩

/-- The slot of a queued request, and what it can come to: a response under its id, or the end of its
time. -/
structure Keeps (c : Connection) (t : Ticket) (q : Request) : Prop where
  request : c.requests[t]? = some q
  /-- An empty slot waits under the request's id, unless the reader has it in hand. -/
  vacant : q.isOver = false → q.slot = .vacant →
    c.waiting? q.message.id = some t ∨ ∃ a, c.reader = .claimed a (some t)
  filled : q.isOver = false → ∀ a, q.slot = .filled a → a.message.id = q.message.id
  abandoned : q.isOver = false → q.slot ≠ .abandoned
  result : ∀ result, q.result? = some result →
    (∃ a, result = .ok a ∧ a.message.id = q.message.id) ∨
      ∃ d, result = .error (.timeout q.message.id d)

/-- An empty slot that was registered waits, or the reader has it in hand. -/
theorem slot_of_vacant (hc : (machine options).Reachable c) (hq : c.requests[t]? = some q)
    (hreg : q.isRegistered = true) (hv : q.slot = .vacant) :
    c.waiting? q.message.id = some t ∨ ∃ a, c.reader = .claimed a (some t) := by
  have hco := coherent hc
  obtain hmem | ⟨a, hhand⟩ := hco.vacant t q hq hreg hv
  · exact Or.inl (Books.waiting?_of_mem (b := c.books) hco.keys hmem)
  · refine Or.inr ⟨a, ?_⟩
    change c.reader.hand = _ at hhand
    cases hr : c.reader with
    | claimed a' slot => rw [hr] at hhand; cases hhand; rfl
    | _ => rw [hr] at hhand; cases hhand

theorem Holds.keeps (h : c.Holds t q) (hc : (machine options).Reachable c) : c.Keeps t q where
  request := h.request
  vacant ho hv := by
    refine slot_of_vacant hc h.request (Request.isRegistered_of_stage (fun hst => ?_) ho) hv
    have hsent := h.sent
    rw [(timely hc t q h.request).unqueued (by simp [Request.isUnqueued, hst])] at hsent
    cases hsent
  filled _ a ha := ((coherent hc).filled t q a h.request ha).2.1.symm
  abandoned := h.slot
  result result hres := by
    have hst := Request.stage_of_result hres
    cases result with
    | ok a =>
      have hslot := (coherent hc).answered t q a h.request hst
      exact Or.inl ⟨a, rfl, ((coherent hc).filled t q a h.request hslot).2.1.symm⟩
    | error cause =>
      obtain rfl | ⟨d, rfl⟩ := (timely hc t q h.request).failed cause hst h.sent
      · exact absurd hst h.unrefused
      · exact Or.inr ⟨d, rfl⟩

/-- A request that has not come back can take a step of its own, unless its caller has hold of a full
queue. -/
theorem exists_step_or_full (hr : c.requests[t]? = some q) (ho : q.isOver = false) :
    (∃ x d, c.step (.request t x) = some d) ∨
      q.stage = .holding ∧ c.writer.isServing = true ∧ c.capacity ≤ c.queue.length := by
  have hgo (x : RequestEvent) (h : ∃ d, c.stepRequest t q x = some d) :
      ∃ x d, c.step (.request t x) = some d := by
    obtain ⟨d, hd⟩ := h
    exact ⟨x, d, by rw [Connection.step, hr, Option.bind_some, hd]⟩
  cases hs : q.stage with
  | entered =>
    refine Or.inl (hgo .register ?_)
    simp only [stepRequest, hs]
    split <;> exact ⟨_, rfl⟩
  | registered => exact Or.inl (hgo .reach ⟨_, by simp only [stepRequest, hs]; rfl⟩)
  | holding =>
    by_cases hserving : c.writer.isServing = true
    · by_cases hroom : c.queue.length < c.capacity
      · refine Or.inl (hgo .queue ?_)
        simp only [stepRequest, hs, hserving, Bool.not_true, Bool.false_eq_true, if_false,
          if_pos hroom]
        exact ⟨_, rfl⟩
      · exact Or.inr ⟨rfl, hserving, Nat.le_of_not_lt hroom⟩
    · refine Or.inl (hgo .queue ?_)
      simp only [stepRequest, hs, Bool.eq_false_iff.2 hserving, Bool.not_false, if_true]
      exact ⟨_, rfl⟩
  | refused => exact Or.inl (hgo .withdraw ⟨_, by simp only [stepRequest, hs]; rfl⟩)
  | waiting =>
    cases hslot : q.slot with
    | vacant => exact Or.inl (hgo .timeOut ⟨_, by simp only [stepRequest, hs, hslot]; rfl⟩)
    | filled a => exact Or.inl (hgo .take ⟨_, by simp only [stepRequest, hs, hslot]; rfl⟩)
    | abandoned => exact Or.inl (hgo .take ⟨_, by simp only [stepRequest, hs, hslot]; rfl⟩)
  | overdue =>
    refine Or.inl (hgo .giveUp ?_)
    simp only [stepRequest, hs]
    split <;> exact ⟨_, rfl⟩
  | missed =>
    refine Or.inl (hgo .lookAgain ?_)
    simp only [stepRequest, hs]
    split <;> exact ⟨_, rfl⟩
  | ended => simp [Request.isOver, Request.result?, hs] at ho

/-- A queued request that has not come back can take a step of its own. -/
theorem exists_step_of_sent (hr : c.requests[t]? = some q) (ht : q.Timely) (hsent : q.sent = true)
    (ho : q.isOver = false) : ∃ x d, c.step (.request t x) = some d := by
  refine (exists_step_or_full hr ho).resolve_right ?_
  rintro ⟨hs, -⟩
  rw [ht.unqueued (by simp [Request.isUnqueued, hs])] at hsent
  cases hsent

/-- A queued request comes back whether anybody serves the connection or not. -/
theorem inevitable_over (hc : (machine options).Reachable c) (hr : c.requests[t]? = some q)
    (hsent : q.sent = true) : (machine options).Inevitable (fun e => ∃ x, e = .request t x)
      (fun d => ∃ result, d.result? t = some result) c := by
  refine @Machine.inevitable_of_lowers _ _ (machine options) _ _
    (fun d => (machine options).Reachable d ∧ ∃ q, d.requests[t]? = some q ∧ q.sent = true)
    [ahead] ?_ ?_ c ⟨hc, q, hr, hsent⟩
  · rintro u _ v ⟨hu, q, hq, hqs⟩ ⟨x, rfl⟩ hs
    have hb := step_books (show u.step (.request t x) = some v from hs)
    obtain ⟨q', hq', hch⟩ := hb.change hq
    refine ⟨⟨hu.step hs, q', hq', hch.sent_of hqs⟩, .head ?_⟩
    obtain ⟨r, hr, hs⟩ := Option.bind_eq_some_iff.1 hs
    exact ahead_stepRequest hr hs
  · rintro u ⟨hu, q, hq, hqs⟩ hstuck
    cases ho : q.isOver with
    | true =>
      obtain ⟨result, hresult⟩ := Option.isSome_iff_exists.1 ho
      exact ⟨result, by rw [result?, hq, Option.bind_some, hresult]⟩
    | false =>
      obtain ⟨x, v, hs⟩ := exists_step_of_sent hq (timely hu t q hq) hqs ho
      exact absurd (hs.symm.trans (hstuck _ ⟨x, rfl⟩)) (Option.some_ne_none v)

/-! ## Different ids -/

/-- While the requests in flight have different ids, none of them is abandoned. -/
theorem slot_ne_abandoned_of_distinct (hrun : (new options).run events = some c)
    (hd : (machine options).Along (fun u => u.books.DistinctInFlight) (new options) events)
    (hq : c.requests[t]? = some q) (ho : q.isOver = false) : q.slot ≠ .abandoned := by
  rw [← run_machine options] at hrun
  refine (@Machine.Along.invariant _ _ (machine options) _ (fun u => (machine options).Reachable u ∧
    ∀ (t : Ticket) q, u.requests[t]? = some q → q.isOver = false → q.slot ≠ .abandoned) _ _ _ hd hrun
    ⟨.start, fun t q hq => by cases hq⟩ ?_).2 t q hq ho
  rintro u e v - - - hu - ⟨hreach, ih⟩ hs
  refine ⟨hreach.step hs, fun t q' hq' ho => ?_⟩
  obtain ⟨q, hq, hch⟩ | ⟨-, m, stage, -, -, rfl⟩ := (step_books hs).origin hq'
  · exact hch.slot_ne_abandoned (coherent hreach) hq (hu.alone hq) (ih t q hq) ho
  · exact fun hab => nomatch hab

/-- With different ids in flight, every queued request has its slot to itself. -/
theorem holds_of_distinct (hrun : (new options).run events = some c)
    (hd : (machine options).Along (fun u => u.books.DistinctInFlight) (new options) events)
    (hq : c.requests[t]? = some q) (hqueued : q.isQueued = true) : c.Holds t q := by
  have hc := reachable_of_run .start hrun
  have hall : (machine options).Along (fun u => u.books.DistinctInFlight) (new options)
      (events ++ []) := by rwa [List.append_nil]
  have hlast : c.books.DistinctInFlight := hall.of_append ((run_machine ..).trans hrun)
  refine ⟨hq, (timely hc t q hq).queued hqueued, hlast.alone hq,
    slot_ne_abandoned_of_distinct hrun hd hq, fun hst => ?_⟩
  simp [Request.isQueued, hst] at hqueued

end Connection

end ClusterLink
