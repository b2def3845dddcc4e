import ClusterLink.Proofs.Connection.Progress
/-!
# Open connections

A connection that is open was open all the time. Until then every request that was registered could
be queued, so that a request comes back before the frame that took its slot is put there only because
its time was up.

Results:
* `Connection.isOpen_of_run`: a connection that is open was open before.
* `Books.Attended.step`: what every step on an open connection keeps.
* `Connection.attended`: it holds on every open connection that can be reached.
-/
namespace ClusterLink

namespace Books

variable {isOpen : Bool} {b b' : Books} {e : ConnectionEvent} {t : Ticket} {r : Request}

/-- On an open connection only timeouts leave a frame in the reader's hand without its request. -/
structure Attended (b : Books) : Prop where
  refused : ∀ (t : Ticket) r, b.requests[t]? = some r → r.stage ≠ .refused
  claimed : ∀ a t r, b.hand = some (a, some t) → b.requests[t]? = some r → r.isOver = true →
    r.timedOut = true
  orphaned : ∀ t a, (t, a) ∈ b.orphaned → ∃ r, b.requests[t]? = some r ∧
    r.message.id = a.message.id ∧ r.timedOut = true

/-- The reader's hand holds a slot that it held before, or that has just waited for its frame. -/
theorem Step.hand_cases (hs : b.Step isOpen e b') {a : Arrival}
    (hh : b'.hand = some (a, some t)) :
    b.hand = some (a, some t) ∨
      e = .reader (.arrive a.message) ∧ b.waiting? a.message.id = some t ∧
        b'.requests = b.requests := by
  cases hs with
  | aside | send | move | register => exact Or.inl hh
  | withdraw =>
    rw [hand_withdraw] at hh
    exact Or.inl hh
  | giveUp =>
    rw [hand_giveUp] at hh
    exact Or.inl hh
  | @arrive m hn =>
    obtain ⟨rfl, hw⟩ := Prod.mk.inj (Option.some.inj hh)
    exact Or.inr ⟨rfl, hw, rfl⟩
  | _ => cases hh

theorem Attended.claimed_step (h : b.Attended) (hc : b.Coherent) (hs : b.Step true e b')
    {a : Arrival} (hh : b'.hand = some (a, some t)) (hr : b'.requests[t]? = some r)
    (ho : r.isOver = true) : r.timedOut = true := by
  rcases hs.hand_cases hh with hold | ⟨-, hw, hreq⟩
  · obtain ⟨⟨q, hq, -, hv, hne, -⟩, hp⟩ := hc.claimed a t hold
    obtain ⟨q', hq', hch⟩ := hs.change hq
    cases hr.symm.trans hq'
    cases hch with
    | keep => exact h.claimed a t r hold hq ho
    | move he hm =>
      cases hm <;> simp_all [Request.isOver, Request.result?, Request.timedOut]
    | register he hst hw => exact absurd hst hne
    | withdraw he hst => exact absurd hst (h.refused t q hq)
    | giveUp d he hst hw hr' => subst hr'; split <;> simp [Request.timedOut]
    | robbed hu hq he hw => exact absurd (mem_of_waiting? hw) (hp _)
    | fill he hh' hno => exact absurd ho (by rw [Bool.not_eq_true]; exact hno)
  · obtain ⟨q, hq, -, -, hreg, -⟩ := hc.waiting _ t (mem_of_waiting? hw)
    rw [hreq, hq] at hr
    cases hr
    rw [Request.isOver_of_isRegistered hreg] at ho
    cases ho

theorem Attended.step (h : b.Attended) (hc : b.Coherent) (hs : b.Step true e b') : b'.Attended where
  refused := by
    refine hs.forall_requests (fun t m stage hst => ?_) (fun t r r' hr hch hne => ?_) h.refused
    · rcases hst with rfl | rfl <;> simp
    · cases hch with
      | keep => exact hne
      | move he hm => cases hm <;> simp_all
      | register => simp
      | withdraw he hst hr' => subst hr'; split <;> simp
      | giveUp d he hst hw hr' => subst hr'; split <;> simp
      | robbed => simpa
      | fill => exact hne
  claimed a t r hh hr ho := h.claimed_step hc hs hh hr ho
  orphaned t a hmem := by
    have hold : (t, a) ∈ b.orphaned → ∃ r, b'.requests[t]? = some r ∧
        r.message.id = a.message.id ∧ r.timedOut = true := by
      intro hmem
      obtain ⟨r, hr, hid, hto⟩ := h.orphaned t a hmem
      exact ⟨r, hs.kept_of_isOver hc hr (Request.isOver_of_timedOut hto), hid, hto⟩
    cases hs with
    | withdraw => exact hold (by simpa [setStage, setRequest] using hmem)
    | giveUp => exact hold (by simpa using hmem)
    | @orphan a' u q hh hr ho =>
      rcases List.mem_append.1 hmem with hmem | hmem
      · exact hold hmem
      · cases List.mem_singleton.1 hmem
        obtain ⟨⟨q', hq', hid, -⟩, -⟩ := hc.claimed a t hh
        cases hr.symm.trans hq'
        exact ⟨q, hr, hid, h.claimed a t q hh hr ho⟩
    | _ => exact hold hmem

end Books

namespace Connection

variable {options : ConnectionOptions} {c d : Connection} {e : ConnectionEvent}
  {events : List ConnectionEvent}

theorem beginClose_isOpen (c : Connection) (closer : Closer) :
    (c.beginClose closer).isOpen = false := by
  unfold beginClose
  split
  · next h => simp [isOpen, noteClose, isClosed] at h ⊢; simp [h]
  · rfl

theorem Untouched.isOpen_eq (h : Untouched c d) : d.isOpen = c.isOpen := by
  unfold isOpen isClosed
  rw [h.closing, h.writer]

theorem stepClosing_isOpen {e : ClosingEvent} (h : c.stepClosing e = some d) : d.isOpen = false := by
  unfold stepClosing at h
  split at h <;> cases h <;> rfl

theorem stepWriter_isOpen {e : WriterEvent} (h : c.stepWriter e = some d) (hd : d.isOpen = true) :
    c.isOpen = true := by
  unfold stepWriter at h
  split at h
  · next hw => split at h <;> cases h; simp_all [isOpen, isClosed, Writer.isServing]
  · next hw => split at h <;> cases h; simp_all [isOpen, isClosed, Writer.isServing]
  · next hw => cases h; simp_all [isOpen, isClosed, Writer.isServing]
  · next hw => split at h <;> cases h; simp_all [isOpen, isClosed, Writer.isServing]
  · next hw => split at h <;> cases h; exact hd
  · next hw => split at h <;> cases h; simp_all [isOpen, isClosed, Writer.isServing]
  · next hw => split at h <;> cases h; simp_all [isOpen, isClosed, Writer.isServing]
  · next hw => split at h <;> cases h; simp_all [isOpen, isClosed, Writer.isServing]
  · next hw => cases h; simp_all [isOpen, isClosed, Writer.isServing]
  · next hw => cases h; cases hc : c.isClosed <;> simp_all [isOpen, Writer.isServing]
  · next hw => split at h <;> cases h; simp_all [isOpen, isClosed, Writer.isServing]
  · cases h

theorem stepReader_isOpen {e : ReaderEvent} (h : c.stepReader e = some d) (hd : d.isOpen = true) :
    c.isOpen = true := by
  unfold stepReader at h
  split at h
  · cases h; exact hd
  · cases h; exact hd
  · next a t hc =>
    cases h
    unfold fill at hd
    split at hd
    · exact hd
    · split at hd <;> exact hd
  · cases h
    unfold dispatchUnclaimed at hd
    split at hd <;> exact hd
  · cases h; exact hd
  · cases h; exact hd
  · cases h; exact hd
  · cases h
    have hclosed := c.beginClose_isOpen .reader
    change (c.beginClose .reader).isOpen = true at hd
    rw [hclosed] at hd
    cases hd
  · split at h <;> cases h; exact hd
  · cases h

/-- A connection that is open was open before. -/
theorem isOpen_of_step (h : c.step e = some d) (hd : d.isOpen = true) : c.isOpen = true := by
  cases e with
  | send m => cases h; exact hd
  | request t e =>
    obtain ⟨r, -, hs⟩ := Option.bind_eq_some_iff.1 h
    rwa [(stepRequest_untouched hs).isOpen_eq] at hd
  | write bytes => cases h; exact hd
  | writing n e =>
    obtain ⟨w, -, hs⟩ := Option.bind_eq_some_iff.1 h
    rwa [(stepWrite_untouched hs).isOpen_eq] at hd
  | close =>
    cases h
    rw [c.beginClose_isOpen] at hd
    cases hd
  | closing e =>
    rw [stepClosing_isOpen h] at hd
    cases hd
  | writer e => exact stepWriter_isOpen h hd
  | reader e => exact stepReader_isOpen h hd

theorem isOpen_of_run (h : c.run events = some d) (hd : d.isOpen = true) : c.isOpen = true := by
  induction events generalizing c with
  | nil =>
    cases h
    exact hd
  | cons e later ih =>
    rw [run_cons] at h
    obtain ⟨u, hs, hrun⟩ := Option.bind_eq_some_iff.1 h
    exact isOpen_of_step hs (ih hrun)

theorem attended_new (options : ConnectionOptions) : (new options).books.Attended := by
  constructor <;> intros <;> simp_all [new, books, Reader.hand]

/-- What holds of every open connection that can be reached. -/
theorem attended (hc : (machine options).Reachable c) (ho : c.isOpen = true) :
    c.books.Attended := by
  induction hc with
  | start => exact attended_new options
  | step hr hs ih =>
    have ho' := isOpen_of_step hs ho
    have hb := step_books hs
    rw [ho'] at hb
    exact (ih ho').step (coherent hr) hb

end Connection

end ClusterLink
