import ClusterLink.Proofs.Connection.Open
import ClusterLink.Proofs.Connection.Stalling
/-!
# Requests that are refused

A request comes back without its frame having been queued if it finds the connection closed, its id
taken, or nobody left to queue it for. In the last case it has left a slot, which it takes away by
its id. None of what waited before is lost by that: as long as it waited, the request could not
register.

Results:
* `Connection.isRefused_iff`: what a request that has been refused came to.
* `Connection.run_stalled`: a connection is what it would be if a refused caller had not moved.
* `Connection.spares_of_unsent`: no step of such a caller takes away what waited before.
* `Connection.Occupies.of_run`, `Connection.getsNext_of_mem`: a slot waits on, whoever else uses its
  id, and gets the next frame.
* `Connection.refused_requests_leave_no_trace`: all of it.
-/
namespace ClusterLink

namespace Request

variable {isOpen : Bool} {b : Books} {e : ConnectionEvent} {t : Ticket} {r r' : Request}

/-- Whether the request has come back without its frame having been queued. -/
def isRefused (r : Request) : Bool := r.isOver && !r.sent

/-- Whether a request that has been refused says why. -/
def SaysWhy (r : Request) : Prop :=
  r.sent = false → ∀ result, r.stage = .ended result →
    result = .error .closed ∨ result = .error (.duplicateId r.message.id)

theorem Move.saysWhy {waiting : Option Ticket} {x : RequestEvent}
    (h : r.Move isOpen waiting x r') (ht : r.Timely) : r'.SaysWhy := by
  intro hsent result hst
  have hqueued : r.isQueued = true → r'.sent = r.sent → False := by
    intro hq heq
    rw [heq, ht.queued hq] at hsent
    cases hsent
  cases h with
  | duplicate =>
    cases hst
    exact Or.inr rfl
  | take hs | lose hs | lookAgain hs | vain hs => exact (hqueued (by simp [isQueued, hs]) rfl).elim
  | _ => cases hst

theorem Change.saysWhy (h : r.Change isOpen b e t r') (ht : r.Timely) (hr : r.SaysWhy) :
    r'.SaysWhy := by
  cases h with
  | keep => exact hr
  | move he hm => exact hm.saysWhy ht
  | register => exact fun _ _ hst => nomatch hst
  | withdraw he hs hr' =>
    subst hr'
    intro _ result hst
    have hresult : RequestStage.ended (.error .closed) = .ended result := by
      split at hst
      · rwa [stage_abandon] at hst
      · exact hst
    cases hresult
    exact Or.inl rfl
  | giveUp d he hs hw hr' =>
    subst hr'
    intro hsent
    have hsame : r.sent = false := by
      split at hsent
      · rwa [sent_abandon] at hsent
      · exact hsent
    rw [ht.queued (by simp [isQueued, hs])] at hsame
    cases hsame
  | robbed =>
    intro hsent result hst
    rw [message_abandon]
    exact hr (by rwa [sent_abandon] at hsent) result (by rwa [stage_abandon] at hst)
  | fill => exact hr

theorem isOver_abandoned_if {p : Prop} [Decidable p] (h : r.isOver = true) :
    (if p then r.abandon else r).isOver = true := by
  split
  · rwa [isOver_abandon]
  · exact h

/-- A request comes to have a slot only by registering it. -/
theorem Change.isRegistered_of (h : r.Change isOpen b e t r') (hr' : r'.isRegistered = true) :
    r.isRegistered = true ∨ e = .request t .register ∧ b.waiting? r.message.id = none := by
  have hover := isOver_of_isRegistered hr'
  cases h with
  | keep => exact Or.inl hr'
  | move he hm => exact Or.inl (hm.isRegistered_of hr')
  | register he hs hw => exact Or.inr ⟨he, hw⟩
  | withdraw he hs hr =>
    rw [isOver_abandoned_if (by rw [hr]; rfl)] at hover
    cases hover
  | giveUp d he hs hw hr =>
    rw [isOver_abandoned_if (by rw [hr]; rfl)] at hover
    cases hover
  | robbed => exact Or.inl (by rwa [isRegistered_abandon] at hr')
  | fill => exact Or.inl hr'

end Request

namespace Books

variable {isOpen : Bool} {b b' : Books} {e : ConnectionEvent} {id : MessageId} {s : Ticket}

/-- A slot that waits after a step waited before, or its request has just registered it. -/
theorem Step.pending_cases (h : b.Step isOpen e b') (hp : (id, s) ∈ b'.pending) :
    (id, s) ∈ b.pending ∨
      e = .request s .register ∧ ∃ r, b.requests[s]? = some r ∧ r.stage = .entered := by
  cases h with
  | register hr hs hw =>
    rcases List.mem_append.1 hp with hold | hnew
    · exact Or.inl hold
    · cases List.mem_singleton.1 hnew
      exact Or.inr ⟨rfl, _, hr, hs⟩
  | withdraw => exact Or.inl (mem_pending_withdraw.1 hp).1
  | giveUp => exact Or.inl (mem_pending_giveUp.1 hp).1
  | arrive => exact Or.inl (List.mem_filter.1 hp).1
  | _ => exact Or.inl hp

/-- A slot that waits does so after a step too, unless a frame under its id comes in, or the caller
of a request under its id takes it away. -/
theorem Step.still_pending (h : b.Step isOpen e b') (hp : (id, s) ∈ b.pending)
    (harrive : ∀ m, e = .reader (.arrive m) → m.id ≠ id)
    (htaken : ∀ u r, e = .request u .giveUp ∧ r.stage = .overdue ∨
      e = .request u .withdraw ∧ r.stage = .refused → b.requests[u]? = some r → r.message.id ≠ id) :
    (id, s) ∈ b'.pending := by
  cases h with
  | register => exact List.mem_append_left _ hp
  | withdraw hr hs =>
    exact mem_pending_withdraw.2 ⟨hp, (htaken _ _ (Or.inr ⟨rfl, hs⟩) hr).symm⟩
  | giveUp hr hs hw =>
    exact mem_pending_giveUp.2 ⟨hp, (htaken _ _ (Or.inl ⟨rfl, hs⟩) hr).symm⟩
  | arrive hh =>
    exact List.mem_filter.2 ⟨hp, by simpa using (harrive _ rfl).symm⟩
  | _ => exact hp

end Books

/-- Whether a step is the caller's of a request. -/
def ConnectionEvent.isOf (t : Ticket) : ConnectionEvent → Bool
  | request s _ => s == t
  | _ => false

namespace Connection

variable {options : ConnectionOptions} {c d u v : Connection} {e : ConnectionEvent}
  {events : List ConnectionEvent} {s t : Ticket} {q r : Request} {m : Message} {id : MessageId}

theorem keyed (h : (machine options).Reachable c) : c.Keyed := (coherent h).keys

theorem saysWhy (h : (machine options).Reachable c) :
    ∀ (t : Ticket) r, c.requests[t]? = some r → r.SaysWhy := by
  induction h with
  | start =>
    intro t r hr
    cases hr
  | @step c d e hc hs ih =>
    refine (step_books hs).forall_requests (fun t m stage hstage hsent result hst => ?_)
      (fun t r r' hr hch hwhy => hch.saysWhy (timely hc t r hr) hwhy) ih
    rcases hstage with rfl | rfl
    · cases hst
    · cases hst
      exact Or.inl rfl

/-- A request has been refused if its id was taken, or if it came back closed without its frame. -/
theorem isRefused_iff (hc : (machine options).Reachable c) (hq : c.requests[t]? = some q) :
    q.isRefused = true ↔ q.result? = some (.error (.duplicateId q.message.id)) ∨
      q.result? = some (.error .closed) ∧ q.sent = false := by
  rw [Request.isRefused, Bool.and_eq_true, Bool.not_eq_true']
  constructor
  · rintro ⟨hover, hunsent⟩
    obtain ⟨result, hresult⟩ := Option.isSome_iff_exists.1 hover
    rcases saysWhy hc t q hq hunsent result (Request.stage_of_result hresult) with rfl | rfl
    · exact Or.inr ⟨hresult, hunsent⟩
    · exact Or.inl hresult
  · rintro (hresult | ⟨hresult, hunsent⟩)
    · refine ⟨by rw [Request.isOver, hresult, Option.isSome_some], ?_⟩
      by_contra hsent
      rcases (timely hc t q hq).failed _ (Request.stage_of_result hresult)
        (Bool.of_not_eq_false hsent) with h | ⟨_, h⟩ <;> cases h
    · exact ⟨by rw [Request.isOver, hresult, Option.isSome_some], hunsent⟩

/-- Once queued, a request is queued for good. -/
theorem still_sent_of_run (hrun : c.run events = some d) (hr : c.requests[t]? = some r)
    (hsent : r.sent = true) : ∃ r', d.requests[t]? = some r' ∧ r'.sent = true := by
  refine kept_of_run (P := fun d => ∃ r', d.requests[t]? = some r' ∧ r'.sent = true) ?_
    ⟨r, hr, hsent⟩ hrun
  rintro u e v ⟨r, hr, hsent⟩ hs
  obtain ⟨r', hr', hch⟩ := (step_books hs).change hr
  exact ⟨r', hr', hch.sent_of hsent⟩

theorem unsent_of_run (hrun : c.run events = some d) (hr : c.requests[t]? = some r)
    (hq : d.requests[t]? = some q) (hunsent : q.sent = false) : r.sent = false := by
  by_contra hsent
  obtain ⟨q', hq', hsent'⟩ := still_sent_of_run hrun hr (Bool.of_not_eq_false hsent)
  cases hq.symm.trans hq'
  rw [hunsent] at hsent'
  cases hsent'

/-! ## Making a request -/

/-- The request that `send` makes. -/
def made (c : Connection) (m : Message) : Request :=
  { message := m, stage := if c.isClosed then .ended (.error .closed) else .entered }

theorem requests_send (c : Connection) (m : Message) :
    (c.send m).requests = c.requests ++ [c.made m] := rfl

theorem requests_send_self (c : Connection) (m : Message) :
    (c.send m).requests[c.requests.length]? = some (c.made m) := by
  rw [requests_send, List.getElem?_concat_length]

theorem requests_send_of_some (hr : c.requests[t]? = some r) (m : Message) :
    (c.send m).requests[t]? = some r := by
  rw [requests_send, List.getElem?_append_left (List.getElem?_eq_some_iff.1 hr).1, hr]

theorem stage_made (c : Connection) (m : Message) :
    (c.made m).stage = .entered ∨ (c.made m).stage = .ended (.error .closed) := by
  rw [made]
  cases c.isClosed
  · exact Or.inl rfl
  · exact Or.inr rfl

theorem isRegistered_made (c : Connection) (m : Message) : (c.made m).isRegistered = false := by
  rcases c.stage_made m with hs | hs <;> simp [Request.isRegistered, hs]

theorem isHolding_made (c : Connection) (m : Message) : (c.made m).isHolding = false := by
  rcases c.stage_made m with hs | hs <;> simp [Request.isHolding, hs]

theorem message_of_run (hc : (machine options).Reachable c) (hrun : (c.send m).run events = some d)
    (hq : d.requests[c.requests.length]? = some q) : q.message = m := by
  have hsend : (machine options).Reachable (c.send m) := hc.step (e := .send m) rfl
  obtain ⟨q', hq', hbec⟩ := (later_of_run (timely hsend) hrun).kept _ _ (requests_send_self c m)
  cases hq.symm.trans hq'
  exact hbec.message

/-! ## If the caller had not moved -/

/-- Whether nobody else looks for an id in the course of some events while a request's slot waits
under it. -/
def Unsought (t : Ticket) : Connection → List ConnectionEvent → Prop
  | _, [] => True
  | c, e :: later =>
    (e.isOf t = false → ∀ id, e.soughtId? c = some id → c.waiting? id ≠ some t) ∧
      ∀ d, c.step e = some d → d.Unsought t later

/-- A request whose slot nobody has filled or taken. -/
structure Unanswered (c : Connection) (t : Ticket) : Prop where
  slot : ∃ r, c.requests[t]? = some r ∧ (r.isOver = false → r.slot = .vacant)
  hand : ∀ a, c.books.hand ≠ some (a, some t)

theorem Unanswered.waits (h : c.Unanswered t) (hc : (machine options).Reachable c)
    (hr : c.requests[t]? = some r) (hreg : r.isRegistered = true) :
    c.waiting? r.message.id = some t := by
  obtain ⟨r₀, hr₀, hslot⟩ := h.slot
  cases hr.symm.trans hr₀
  have hco := coherent hc
  rcases hco.vacant t r hr hreg (hslot (Request.isOver_of_isRegistered hreg)) with hp | ⟨a, ha⟩
  · exact Books.waiting?_of_mem hco.keys hp
  · exact absurd ha (h.hand a)

theorem Unanswered.step (h : c.Unanswered t) (hs : c.step e = some d)
    (hsought : e.isOf t = false → ∀ id, e.soughtId? c = some id → c.waiting? id ≠ some t) :
    d.Unanswered t := by
  obtain ⟨r, hr, hslot⟩ := h.slot
  have hb := step_books hs
  constructor
  · obtain ⟨r', hr', hch⟩ := hb.change hr
    refine ⟨r', hr', fun hover => ?_⟩
    have hover₀ : r.isOver = false := by
      by_contra ho
      rw [hch.becomes.isOver (Bool.of_not_eq_false ho)] at hover
      cases hover
    cases hch with
    | keep | register => exact hslot hover₀
    | move he hm =>
      rw [hm.slot_eq]
      exact hslot hover₀
    | withdraw he hst hend =>
      rw [Request.isOver_abandoned_if (by rw [hend]; rfl)] at hover
      cases hover
    | giveUp d he hst hw hend =>
      rw [Request.isOver_abandoned_if (by rw [hend]; rfl)] at hover
      cases hover
    | @robbed u q hu hq he hw =>
      have hq' : c.requests[u]? = some q := hq
      refine absurd hw (hsought ?_ q.message.id ?_)
      · rcases he with ⟨rfl, -⟩ | ⟨rfl, -⟩ <;> exact beq_false_of_ne hu
      · rcases he with ⟨rfl, -⟩ | ⟨rfl, -⟩ <;> simp [ConnectionEvent.soughtId?, hq']
    | fill he hh => exact absurd hh (h.hand _)
  · intro a hh
    rcases hb.hand_cases hh with hold | ⟨rfl, hw, -⟩
    · exact h.hand a hold
    · exact hsought rfl _ rfl hw

/-- **A connection is what it would be if a refused caller had not moved**, unless somebody else has
looked for the id while the caller's slot waited under it. -/
theorem run_stalled (hc : (machine options).Reachable c) (hun : c.Unanswered t)
    (hrun : c.run events = some d) (hr : d.requests[t]? = some r) (hunsent : r.sent = false)
    (hunsought : c.Unsought t events) (hq : q.isHolding = false) :
    (c.stalled t q).run (events.filter (!·.isOf t)) = some (d.stalled t q) := by
  induction events generalizing c with
  | nil =>
    cases hrun
    rfl
  | cons e later ih =>
    rw [run_cons] at hrun
    obtain ⟨v, hs, hlater⟩ := Option.bind_eq_some_iff.1 hrun
    obtain ⟨hsought, hrest⟩ := hunsought
    have hrec := ih (hc.step hs) (hun.step hs hsought) hlater (hrest v hs)
    obtain ⟨r₀, hr₀, -⟩ := hun.slot
    -- The caller's own steps leave no difference, and those of others are the same without it.
    cases hof : e.isOf t with
    | true =>
      obtain ⟨x, rfl⟩ : ∃ x, e = .request t x := by
        cases e with
        | request s x =>
          rw [ConnectionEvent.isOf, beq_iff_eq] at hof
          exact ⟨x, by rw [hof]⟩
        | _ => cases hof
      obtain ⟨r₁, hr₁, -⟩ := (step_books hs).change hr₀
      have hmove := unqueued_of_unsent hr₀ (timely hc t r₀ hr₀) hs hr₁
        (unsent_of_run hlater hr₁ hr hunsent)
      rw [hmove.stalled_eq (keyed hc) (hun.waits hc hr₀)] at hrec
      rwa [List.filter_cons_of_neg (by simp [hof])]
    | false =>
      have hown : ∀ x, e ≠ .request t x := by
        rintro x rfl
        simp [ConnectionEvent.isOf] at hof
      have hlt := (List.getElem?_eq_some_iff.1 hr₀).1
      have hsame := step_stalled (keyed hc) hq hlt hun.hand hown (hsought hof) hs
      rw [List.filter_cons_of_pos (by simp [hof]), run_cons, hsame]
      exact hrec

theorem not_mem_pending_of_isOver (hc : (machine options).Reachable c)
    (hq : c.requests[t]? = some q) (ho : q.isOver = true) (id : MessageId) :
    (id, t) ∉ c.pending := by
  intro hp
  obtain ⟨q', hq', -, -, hreg, -⟩ := (coherent hc).waiting id t hp
  cases hq.symm.trans hq'
  rw [Request.isOver_of_isRegistered hreg] at ho
  cases ho

theorem stalled_of_not_mem (h : ∀ id, (id, t) ∉ c.pending) (q : Request) :
    c.stalled t q = { c with requests := c.requests.set t q } := by
  have hall : c.pending.filter (·.2 ≠ t) = c.pending := by
    refine List.filter_eq_self.2 fun p hp => ?_
    have hne : p.2 ≠ t := by
      rintro rfl
      exact h p.1 hp
    simpa using hne
  rw [stalled, hall]

theorem stalled_send (hc : (machine options).Reachable c) (m : Message) :
    (c.send m).stalled c.requests.length (c.made m) = c.send m := by
  have hnew : ∀ id, (id, c.requests.length) ∉ (c.send m).pending := by
    intro id hp
    obtain ⟨r, hr, -⟩ := (coherent hc).waiting id _ hp
    exact Nat.lt_irrefl _ (List.getElem?_eq_some_iff.1 hr).1
  rw [stalled_of_not_mem hnew, requests_send, List.set_append_right _ _ (Nat.le_refl _),
    Nat.sub_self]
  rfl

theorem unanswered_send (hc : (machine options).Reachable c) (m : Message) :
    (c.send m).Unanswered c.requests.length := by
  refine ⟨⟨_, requests_send_self c m, fun _ => rfl⟩, fun a hh => ?_⟩
  obtain ⟨⟨r, hr, -⟩, -⟩ := (coherent hc).claimed a _ hh
  exact Nat.lt_irrefl _ (List.getElem?_eq_some_iff.1 hr).1

theorem run_without (hc : (machine options).Reachable c) (hrun : (c.send m).run events = some d)
    (hq : d.requests[c.requests.length]? = some q) (ho : q.isOver = true) (hunsent : q.sent = false)
    (hunsought : (c.send m).Unsought c.requests.length events) :
    (c.send m).run (events.filter (!·.isOf c.requests.length)) =
      some { d with requests := d.requests.set c.requests.length (c.made m) } := by
  have hsend : (machine options).Reachable (c.send m) := hc.step (e := .send m) rfl
  have hgone := not_mem_pending_of_isOver (reachable_of_run hsend hrun) hq ho
  have hrest := run_stalled hsend (unanswered_send hc m) hrun hq hunsent hunsought
    (isHolding_made c m)
  rwa [stalled_send hc, stalled_of_not_mem hgone] at hrest

theorem unsought_of_forall
    (h : ∀ e ∈ events, e.isOf t = false → ∀ c, e.soughtId? c = none) : c.Unsought t events := by
  induction events generalizing c with
  | nil => trivial
  | cons e later ih =>
    refine ⟨fun hother id hid => ?_, fun d _ => ih fun e' he => h e' (List.mem_cons_of_mem _ he)⟩
    rw [h e (List.mem_cons_self ..) hother c] at hid
    cases hid

theorem eq_of_set (hq : d.requests[t]? = some q)
    (h : c = { d with requests := d.requests.set t r }) :
    d = { c with requests := c.requests.set t q } := by
  obtain ⟨hlt, rfl⟩ := List.getElem?_eq_some_iff.1 hq
  subst h
  simp only [List.set_set, List.set_getElem_self]

theorem eq_of_uninterrupted (hc : (machine options).Reachable c)
    (hrun : (c.send m).run events = some d) (hq : d.requests[c.requests.length]? = some q)
    (ho : q.isOver = true) (hunsent : q.sent = false)
    (hown : ∀ e ∈ events, e.isOf c.requests.length = true) :
    d = { c with requests := c.requests ++ [q] } := by
  have hunsought : (c.send m).Unsought c.requests.length events := by
    refine unsought_of_forall fun e he hother => ?_
    rw [hown e he] at hother
    cases hother
  have hsame := run_without hc hrun hq ho hunsent hunsought
  rw [List.filter_eq_nil_iff.2 fun e he => by simp [hown e he]] at hsame
  rw [eq_of_set hq (Option.some.inj hsame), requests_send,
    List.set_append_right _ _ (Nat.le_refl _), Nat.sub_self]
  rfl

/-! ## What waited before -/

/-- Whether a step queues no frame, leaves the expired ids as they are, takes none of some slots
away and adds no slot but one. -/
structure Spares (slots : List (MessageId × Ticket)) (own : MessageId × Ticket) (c d : Connection) :
    Prop where
  queue : d.queue = c.queue
  queued : d.history.queued = c.history.queued
  expired : d.expired = c.expired
  kept : ∀ p ∈ slots, p ∈ c.pending → p ∈ d.pending
  added : ∀ p ∈ d.pending, p ∈ c.pending ∨ p = own

theorem mem_pending_withdraw {p : MessageId × Ticket} :
    p ∈ (c.withdraw id).pending ↔ p ∈ c.pending ∧ p.1 ≠ id := by
  have hp : (c.withdraw id).pending = (c.books.withdraw id).pending := by
    rw [← books_withdraw]
    rfl
  rw [hp, Books.mem_pending_withdraw]
  rfl

theorem Unqueued.spares {x : RequestEvent} (h : c.Unqueued t r x d)
    (slots : List (MessageId × Ticket))
    (hslots : r.isRegistered = true → ∀ p ∈ slots, p ∈ c.pending → p.1 ≠ r.message.id) :
    Spares slots (r.message.id, t) c d := by
  cases h with
  | move => exact ⟨rfl, rfl, rfl, fun p _ hp => hp, fun p hp => Or.inl hp⟩
  | register =>
    refine ⟨rfl, rfl, rfl, fun p _ hp => List.mem_append_left _ hp, fun p hp => ?_⟩
    rcases List.mem_append.1 hp with hold | hnew
    · exact Or.inl hold
    · exact Or.inr (List.mem_singleton.1 hnew)
  | withdraw hs =>
    have hreg : r.isRegistered = true := by simp [Request.isRegistered, hs]
    refine ⟨?_, ?_, ?_, fun p hslot hp => mem_pending_withdraw.2 ⟨hp, hslots hreg p hslot hp⟩,
      fun p hp => Or.inl (mem_pending_withdraw.1 hp).1⟩
    all_goals
      unfold Connection.withdraw
      split <;> rfl

/-- A request under an id that was made after some slots had been left there. -/
structure Latecomer (slots : List (MessageId × Ticket)) (t : Ticket) (id : MessageId)
    (c : Connection) : Prop where
  request : ∃ r, c.requests[t]? = some r ∧ r.message.id = id
  /-- It gets a slot only when none of them waits any more. -/
  last : ∀ r, c.requests[t]? = some r → r.isRegistered = true → ∀ s, (id, s) ∈ slots →
    (id, s) ∉ c.pending
  /-- Those who have left them do not come again. -/
  first : ∀ s, (id, s) ∈ slots → ∃ r, c.requests[s]? = some r ∧ r.stage ≠ .entered

theorem Latecomer.step {slots : List (MessageId × Ticket)} (h : Latecomer slots t id c)
    (hs : c.step e = some d) : Latecomer slots t id d := by
  have hb := step_books hs
  obtain ⟨r, hr, hid⟩ := h.request
  obtain ⟨r', hr', hch⟩ := hb.change hr
  refine ⟨⟨r', hr', by rw [hch.message_eq, hid]⟩, fun q hq hreg s hslot hp => ?_,
    fun s hslot => ?_⟩
  · cases hq.symm.trans hr'
    -- It could not have registered while a slot from before was waiting under its id.
    have hold : (id, s) ∉ c.pending := by
      rcases hch.isRegistered_of hreg with hreg | ⟨-, hw⟩
      · exact h.last r hr hreg s hslot
      · rw [hid] at hw
        exact Books.not_mem_of_waiting?_eq_none hw
    rcases hb.pending_cases hp with hmem | ⟨-, q, hq, hentered⟩
    · exact hold hmem
    · obtain ⟨q', hq', hne⟩ := h.first s hslot
      cases hq'.symm.trans hq
      exact hne hentered
  · obtain ⟨q, hq, hne⟩ := h.first s hslot
    obtain ⟨q', hq', hch⟩ := hb.change hq
    exact ⟨q', hq', hch.stage_ne_entered hne⟩

/-- A request that is made now comes after all slots that wait. -/
theorem latecomer (hc : (machine options).Reachable c) (m : Message) :
    Latecomer c.pending c.requests.length m.id (c.send m) := by
  refine ⟨⟨_, requests_send_self c m, rfl⟩, fun r hr hreg => ?_, fun s hslot => ?_⟩
  · cases hr.symm.trans (requests_send_self c m)
    rw [isRegistered_made] at hreg
    cases hreg
  · obtain ⟨r, hr, -, -, hreg, -⟩ := (coherent hc).waiting _ _ hslot
    refine ⟨r, requests_send_of_some hr m, fun hentered => ?_⟩
    simp [Request.isRegistered, hentered] at hreg

/-- A caller whose frame is never queued spares what waited before its request was made. -/
theorem spares_of_unsent (hc : (machine options).Reachable c)
    {before after : List ConnectionEvent} {x : RequestEvent}
    (hrun : (c.send m).run (before ++ .request c.requests.length x :: after) = some d)
    (hq : d.requests[c.requests.length]? = some q) (hunsent : q.sent = false)
    (hu : (c.send m).run before = some u) (hs : u.step (.request c.requests.length x) = some v) :
    Spares c.pending (m.id, c.requests.length) u v := by
  obtain ⟨v', hs', hafter⟩ := split_of_run hrun hu
  cases hs.symm.trans hs'
  have hreach := reachable_of_run (hc.step (e := .send m) rfl) hu
  have hlate : Latecomer c.pending c.requests.length m.id u :=
    kept_of_run (fun _ _ _ hl hs => hl.step hs) (latecomer hc m) hu
  obtain ⟨r, hr, hid⟩ := hlate.request
  obtain ⟨r', hr', -⟩ := (step_books hs).change hr
  have hmove := unqueued_of_unsent hr (timely hreach _ r hr) hs hr'
    (unsent_of_run hafter hr' hq hunsent)
  rw [← hid]
  refine hmove.spares c.pending ?_
  rintro hreg ⟨id, s⟩ hslot hp hown
  obtain rfl : id = m.id := hown.trans hid
  exact hlate.last r hr hreg s hslot hp

/-! ## What waits on -/

/-- A slot waits under an id, and no other request under the id has left one. -/
structure Occupies (c : Connection) (id : MessageId) (s : Ticket) : Prop where
  waits : (id, s) ∈ c.pending
  alone : ∀ (u : Ticket) r, u ≠ s → c.requests[u]? = some r → r.message.id = id →
    r.isRegistered = false

theorem Occupies.step (h : c.Occupies id s) (hs : c.step e = some d)
    (harrive : ∀ m, e = .reader (.arrive m) → m.id ≠ id) (hgiveUp : e ≠ .request s .giveUp)
    (hwithdraw : e ≠ .request s .withdraw) : d.Occupies id s := by
  have hb := step_books hs
  constructor
  · -- Only a caller who has left a slot takes one away, and `s` is the only one under the id.
    refine hb.still_pending h.waits harrive fun u r htaker hr hid => ?_
    have hus : u ≠ s := by
      rintro rfl
      rcases htaker with ⟨he, -⟩ | ⟨he, -⟩
      · exact hgiveUp he
      · exact hwithdraw he
    have hreg := h.alone u r hus hr hid
    rcases htaker with ⟨-, hst⟩ | ⟨-, hst⟩ <;> simp [Request.isRegistered, hst] at hreg
  · intro u r' hus hr' hid
    obtain ⟨r, hr, hch⟩ | ⟨-, m, stage, -, hstage, rfl⟩ := hb.origin hr'
    · rw [hch.message_eq] at hid
      have hunregistered := h.alone u r hus hr hid
      by_contra hreg
      rcases hch.isRegistered_of (Bool.of_not_eq_false hreg) with hreg | ⟨-, hw⟩
      · rw [hunregistered] at hreg
        cases hreg
      · rw [hid] at hw
        exact Books.not_mem_of_waiting?_eq_none hw h.waits
    · rcases hstage with rfl | rfl <;> rfl

/-- **A slot waits on for the next frame**, whoever else makes requests under its id. -/
theorem Occupies.of_run (h : c.Occupies id s) (hrun : c.run events = some d)
    (harrive : ∀ m, .reader (.arrive m) ∈ events → m.id ≠ id)
    (hgiveUp : .request s .giveUp ∉ events) (hwithdraw : .request s .withdraw ∉ events) :
    d.Occupies id s := by
  refine kept_of_run_mem (P := fun d => d.Occupies id s) (fun u e v he hu hs => ?_) h hrun
  refine hu.step hs ?_ ?_ ?_
  · rintro m rfl
    exact harrive m he
  · rintro rfl
    exact hgiveUp he
  · rintro rfl
    exact hwithdraw he

/-- Whether the next frame under an id becomes the response to a request, unless the request has
come back by the time at which the frame is put into its slot. -/
def GetsNext (c : Connection) (id : MessageId) (s : Ticket) : Prop :=
  ∀ m between u v, m.id = id → c.step (.reader (.arrive m)) = some u → u.run between = some v →
    .reader .dispatch ∉ between →
    ∃ z r, v.step (.reader .dispatch) = some z ∧ z.requests[s]? = some r ∧ (r.isOver = false →
      r.slot = .filled ⟨c.history.arrivals.length, m⟩ ∧ (r.stage = .waiting →
        ∃ y, z.step (.request s .take) = some y ∧
          y.result? s = some (.ok ⟨c.history.arrivals.length, m⟩)))

theorem hand_of_run {x : Arrival × Option Ticket} (hh : c.reader.hand = some x)
    (hrun : c.run events = some d) (hnot : .reader .dispatch ∉ events) :
    d.reader.hand = some x := by
  refine kept_of_run_mem (P := fun d => d.reader.hand = some x) (fun u e v he hu hs => ?_) hh hrun
  refine (step_books hs).hand_of_ne hu ?_
  rintro rfl
  exact hnot he

theorem reader_of_hand {a : Arrival} {slot : Option Ticket}
    (h : c.reader.hand = some (a, slot)) : c.reader = .claimed a slot := by
  cases hreader : c.reader with
  | claimed a' slot' =>
    rw [hreader] at h
    cases h
    rfl
  | _ =>
    rw [hreader] at h
    cases h

/-- What the reader's hand holds is put into the slot, unless the request has come back. -/
theorem filled_of_dispatch {a : Arrival} (hh : c.reader.hand = some (a, some s))
    (hr : c.requests[s]? = some r) : ∃ d r', c.step (.reader .dispatch) = some d ∧
      d.requests[s]? = some r' ∧ (r'.isOver = false → r'.slot = .filled a) := by
  have hlt := (List.getElem?_eq_some_iff.1 hr).1
  refine ⟨{ c.fill s a with reader := .reading }, ?_⟩
  simp only [Connection.step, stepReader, reader_of_hand hh, fill, hr]
  split
  · next hover =>
    refine ⟨r, trivial, hr, fun hnot => ?_⟩
    rw [hover] at hnot
    cases hnot
  · exact ⟨_, trivial, List.getElem?_set_self hlt, fun _ => rfl⟩

/-- A caller that waits takes the frame in its slot. -/
theorem takes_of_filled {a : Arrival} (hr : c.requests[s]? = some r) (hs : r.stage = .waiting)
    (ha : r.slot = .filled a) :
    ∃ d, c.step (.request s .take) = some d ∧ d.result? s = some (.ok a) := by
  have hlt := (List.getElem?_eq_some_iff.1 hr).1
  refine ⟨c.setStage s r (.ended (.ok a)), ?_, ?_⟩
  · simp [Connection.step, hr, stepRequest, hs, ha]
  · simp [result?, setStage, setRequest, hlt, Request.result?]

/-- A slot that waits gets the next frame. -/
theorem getsNext_of_mem (hc : (machine options).Reachable c) (hmem : (id, s) ∈ c.pending) :
    c.GetsNext id s := by
  rintro m between u v rfl harrive hbetween hnot
  have hw : c.waiting? m.id = some s := Books.waiting?_of_mem (coherent hc).keys hmem
  have hu : u.reader.hand = some (⟨c.history.arrivals.length, m⟩, some s) := by
    rw [(eq_of_arrive harrive).2, arrive, hw]
    rfl
  have hv := hand_of_run hu hbetween hnot
  have hreach := reachable_of_run (hc.step (e := .reader (.arrive m)) harrive) hbetween
  obtain ⟨⟨r, hr, -⟩, -⟩ := (coherent hreach).claimed _ _ hv
  obtain ⟨z, r', hz, hr', hslot⟩ := filled_of_dispatch hv hr
  exact ⟨z, r', hz, hr', fun ho => ⟨hslot ho, fun hst => takes_of_filled hr' hst (hslot ho)⟩⟩

/-! ## All of it -/

/-- What is left of a request that is made of a connection `c`, if it has been refused after some
events, with the connection `d`. -/
structure LeavesNoTrace (c : Connection) (m : Message) (events : List ConnectionEvent)
    (d : Connection) : Prop where
  /-- None of its caller's steps queues a frame, remembers or forgets an expired id, or takes away a
  slot that waited before, and the only slot it ever adds is its own. -/
  own : ∀ before x after u v, events = before ++ .request c.requests.length x :: after →
    (c.send m).run before = some u → u.step (.request c.requests.length x) = some v →
    Spares c.pending (m.id, c.requests.length) u v
  /-- Its slot does not wait any more. -/
  gone : ∀ id, (id, c.requests.length) ∉ d.pending
  /-- If nobody else does anything, the connection is what it was. -/
  uninterrupted : (∀ e ∈ events, e.isOf c.requests.length = true) →
    ∃ q, d = { c with requests := c.requests ++ [q] }
  /-- Whatever others do, the connection is what they would have made of it alone, unless one of
  them looks for the id while the request's slot waits under it. -/
  unseen : (c.send m).Unsought c.requests.length events →
    (c.send m).run (events.filter (!·.isOf c.requests.length)) =
      some { d with requests := d.requests.set c.requests.length (c.made m) }
  /-- What waits under the id goes on waiting for the next frame, until its own caller takes it
  away. -/
  next : ∀ s, c.Occupies m.id s → (∀ m', .reader (.arrive m') ∈ events → m'.id ≠ m.id) →
    .request s .giveUp ∉ events → .request s .withdraw ∉ events →
    (m.id, s) ∈ d.pending ∧ d.GetsNext m.id s

/-- **Refused requests leave no trace.** From every reachable state and whatever others do, a
request whose id is taken, or that comes back closed without its frame having been queued, leaves
everything else as it is. What it takes away by its id is its own slot, or one that was left there
after the reader had taken its own: never one that waited before. -/
theorem refused_requests_leave_no_trace (hc : (machine options).Reachable c)
    (hrun : (c.send m).run events = some d) (hq : d.requests[c.requests.length]? = some q) :
    (q.isRefused = true ↔ q.result? = some (.error (.duplicateId m.id)) ∨
      q.result? = some (.error .closed) ∧ q.sent = false) ∧
    (q.isRefused = true → c.LeavesNoTrace m events d) := by
  have hsend : (machine options).Reachable (c.send m) := hc.step (e := .send m) rfl
  have hd := reachable_of_run hsend hrun
  refine ⟨by rw [isRefused_iff hd hq, message_of_run hc hrun hq], fun hrefused => ?_⟩
  rw [Request.isRefused, Bool.and_eq_true, Bool.not_eq_true'] at hrefused
  obtain ⟨ho, hunsent⟩ := hrefused
  refine ⟨?_, not_mem_pending_of_isOver hd hq ho,
    fun hown => ⟨q, eq_of_uninterrupted hc hrun hq ho hunsent hown⟩,
    run_without hc hrun hq ho hunsent, ?_⟩
  · rintro before x after u v rfl hu hs
    exact spares_of_unsent hc hrun hq hunsent hu hs
  · intro s hs harrive hgiveUp hwithdraw
    have hs' : (c.send m).Occupies m.id s :=
      hs.step (e := .send m) rfl (by simp) (by simp) (by simp)
    have hwaits := (hs'.of_run hrun harrive hgiveUp hwithdraw).waits
    exact ⟨hwaits, getsNext_of_mem hd hwaits⟩

/-! ## Two that are refused -/

private def pressing : Message := .bare (.ofNat 1) .select

private def hopeless : Message := .bare (.ofNat 2) .select

/-- A request waits for its response. -/
private def waitingCall : List ConnectionEvent :=
  [.reader (.start true), .send pressing, .request 0 .register, .request 0 .reach,
    .request 0 .queue]

private def busy : Connection := ((new {}).run waitingCall).getD (new {})

/-- Another is made under its id. -/
private def repeated : Connection := ((busy.send pressing).run [.request 1 .register]).getD busy

private def closingDown : List ConnectionEvent := [.close, .closing .announce, .closing .detach]

/-- Another leaves a slot before the connection is closed, and cannot get hold of the queue. -/
private def shutOut : List ConnectionEvent :=
  .request 1 .register :: closingDown ++ [.request 1 .reach, .request 1 .withdraw]

private def shutDown : Connection := ((busy.send hopeless).run shutOut).getD busy

private theorem busy_reachable : (machine {}).Reachable busy := by
  have hrun : (new {}).run waitingCall = some busy := by rfl
  exact Machine.Reachable.start.run hrun

private theorem busy_occupies : busy.Occupies pressing.id 0 := by
  refine ⟨by decide, fun u r hu hr => ?_⟩
  have hlt := (List.getElem?_eq_some_iff.1 hr).1
  exact absurd (Nat.lt_one_iff.1 hlt) hu

theorem the_first_request_waits_on :
    (repeated.result? 1 = some (.error (.duplicateId pressing.id)) ∧
      (∃ q, repeated = { busy with requests := busy.requests ++ [q] }) ∧
      repeated.GetsNext pressing.id 0) ∧
    shutDown.result? 1 = some (.error .closed) ∧ shutDown.pending = busy.pending ∧
      (busy.send hopeless).run closingDown =
        some { shutDown with requests := shutDown.requests.set 1 (busy.made hopeless) } := by
  have hrepeated : (busy.send pressing).run [.request 1 .register] = some repeated := by rfl
  have hshutOut : (busy.send hopeless).run shutOut = some shutDown := by rfl
  have hcalm : ∀ e ∈ shutOut, e.isOf 1 = false → ∀ c, e.soughtId? c = none := by
    intro e he hother c
    simp only [shutOut, closingDown, List.cons_append, List.nil_append, List.mem_cons,
      List.not_mem_nil, or_false] at he
    rcases he with rfl | rfl | rfl | rfl | rfl | rfl <;> first | rfl | cases hother
  have h₁ := (refused_requests_leave_no_trace busy_reachable hrepeated (by rfl)).2 (by rfl)
  have h₂ := (refused_requests_leave_no_trace busy_reachable hshutOut (by rfl)).2 (by rfl)
  refine ⟨⟨by rfl, h₁.uninterrupted (by decide), ?_⟩, by rfl, by rfl, ?_⟩
  · exact (h₁.next 0 busy_occupies (by simp) (by simp) (by simp)).2
  · exact h₂.unseen (unsought_of_forall hcalm)

end Connection

end ClusterLink
