import ClusterLink.Proofs.Connection.Outliving
/-!
# If a caller had not moved

What a connection is after some steps is compared with what it would be if the caller of one request
had made none of its own. As long as nobody else asks for what waits under an id while it is that
caller's slot, everyone else can take the same steps with the same outcome.

Results:
* `Connection.step_stalled`: the steps of all others are the same if the caller has not moved.
* `Connection.Unqueued.stalled_eq`: the steps of a caller whose frame is never queued leave no
  difference.
-/
namespace ClusterLink

/-- The id that a step looks for among what waits. -/
def ConnectionEvent.soughtId? (c : Connection) : ConnectionEvent → Option MessageId
  | request s _ => (c.requests[s]?).map (·.message.id)
  | reader (.arrive m) => some m.id
  | _ => none

namespace Connection

variable {c d : Connection} {s t : Ticket} {q r : Request} {id : MessageId}

/-- The connection if the caller of a request had not moved: the request is as it was made, and its
slot does not wait. -/
def stalled (c : Connection) (t : Ticket) (q : Request) : Connection :=
  { c with requests := c.requests.set t q, pending := c.pending.filter (·.2 ≠ t) }

/-- No two slots wait under one id. -/
def Keyed (c : Connection) : Prop := (c.pending.map Prod.fst).Nodup

@[simp] theorem writes_stalled : (c.stalled t q).writes = c.writes := rfl

@[simp] theorem expired_stalled : (c.stalled t q).expired = c.expired := rfl

@[simp] theorem queue_stalled : (c.stalled t q).queue = c.queue := rfl

@[simp] theorem closing_stalled : (c.stalled t q).closing = c.closing := rfl

@[simp] theorem writer_stalled : (c.stalled t q).writer = c.writer := rfl

@[simp] theorem reader_stalled : (c.stalled t q).reader = c.reader := rfl

@[simp] theorem isClosed_stalled : (c.stalled t q).isClosed = c.isClosed := rfl

@[simp] theorem capacity_stalled : (c.stalled t q).capacity = c.capacity := rfl

theorem lookup_filter {α β : Type} [BEq α] [LawfulBEq α] {p : α × β → Bool} {k : α}
    {l : List (α × β)} (h : ∀ b, (k, b) ∈ l → p (k, b) = true) :
    (l.filter p).lookup k = l.lookup k := by
  induction l with
  | nil => rfl
  | cons x l ih =>
    obtain ⟨k', b⟩ := x
    have hrest := ih fun b' hb' => h b' (List.mem_cons_of_mem _ hb')
    by_cases hk : k = k'
    · subst hk
      simp [h b (List.mem_cons_self ..)]
    · cases hp : p (k', b) <;> simp [hp, List.lookup_cons, beq_false_of_ne hk, hrest]

theorem waiting?_stalled (hk : c.Keyed) (q : Request) (h : c.waiting? id ≠ some t) :
    (c.stalled t q).waiting? id = c.waiting? id := by
  refine lookup_filter fun u hu => ?_
  have hw := Books.waiting?_of_mem (b := c.books) hk hu
  have hut : u ≠ t := by
    rintro rfl
    exact h hw
  simpa using hut

theorem setRequest_stalled (h : s ≠ t) (q r : Request) :
    (c.stalled t q).setRequest s r = (c.setRequest s r).stalled t q := by
  simp only [stalled, setRequest, List.set_comm _ _ h]

theorem getElem?_stalled (h : s ≠ t) (q : Request) :
    (c.stalled t q).requests[s]? = c.requests[s]? := by
  simp [stalled, List.getElem?_set_ne (Ne.symm h)]

theorem unregister_stalled (id : MessageId) (q : Request) :
    (c.stalled t q).unregister id = (c.unregister id).stalled t q := by
  simp only [stalled, unregister, List.filter_filter, Bool.and_comm]

theorem modify_set_comm {α : Type} {s t : Nat} (h : s ≠ t) (l : List α) (f : α → α) (x : α) :
    (l.set t x).modify s f = (l.modify s f).set t x := by
  refine List.ext_getElem? fun n => ?_
  simp only [List.getElem?_modify, List.getElem?_set, List.length_modify]
  by_cases hn : t = n
  · subst hn
    simp [h]
  · simp [hn]

theorem abandon_stalled (h : s ≠ t) (q : Request) :
    (c.stalled t q).abandon s = (c.abandon s).stalled t q := by
  simp only [stalled, abandon, modify_set_comm h]

theorem withdraw_stalled (hk : c.Keyed) (q : Request) (h : c.waiting? id ≠ some t) :
    (c.stalled t q).withdraw id = (c.withdraw id).stalled t q := by
  unfold withdraw
  rw [waiting?_stalled hk q h]
  cases hw : c.waiting? id with
  | none => rfl
  | some s =>
    rw [hw] at h
    simp only
    rw [unregister_stalled, abandon_stalled (fun hst => h (congrArg some hst))]

theorem fill_stalled (h : s ≠ t) (q : Request) (a : Arrival) :
    (c.stalled t q).fill s a = (c.fill s a).stalled t q := by
  unfold fill
  rw [getElem?_stalled h]
  cases c.requests[s]? with
  | none => rfl
  | some r =>
    simp only
    split
    · rfl
    · rw [setRequest_stalled h]
      rfl

theorem dispatchUnclaimed_stalled (a : Arrival) :
    (c.stalled t q).dispatchUnclaimed a = (c.dispatchUnclaimed a).stalled t q := by
  by_cases h : a.message.id ∈ c.expired
  · rw [dispatchUnclaimed, dispatchUnclaimed, if_pos h, expired_stalled, if_pos h]
    rfl
  · rw [dispatchUnclaimed, dispatchUnclaimed, if_neg h, expired_stalled, if_neg h]
    rfl

theorem beginClose_stalled (closer : Closer) :
    (c.stalled t q).beginClose closer = (c.beginClose closer).stalled t q := by
  rw [beginClose, beginClose, isClosed_stalled]
  split <;> rfl

theorem send_stalled (h : t < c.requests.length) (q : Request) (m : Message) :
    (c.stalled t q).send m = (c.send m).stalled t q := by
  rw [send, send, isClosed_stalled]
  simp only [stalled, List.set_append_left _ _ h]

/-! ## The steps of others -/

theorem stepRequest_stalled (hk : c.Keyed) (q : Request) (hst : s ≠ t) {x : RequestEvent}
    (h : c.waiting? r.message.id ≠ some t) :
    (c.stalled t q).stepRequest s r x = (c.stepRequest s r x).map (·.stalled t q) := by
  have hw := waiting?_stalled hk q h
  have hset : ∀ r, (c.stalled t q).setRequest s r = (c.setRequest s r).stalled t q :=
    fun r => setRequest_stalled hst q r
  have hwithdraw : ∀ r', ((c.setRequest s r').stalled t q).withdraw r.message.id =
      ((c.setRequest s r').withdraw r.message.id).stalled t q :=
    fun r' => withdraw_stalled (c := c.setRequest s r') hk q h
  unfold stepRequest
  split
  · rw [hw]
    split
    · simp only [setStage, hset, Option.map_some]
    · simp only [stalled, setRequest, Option.map_some, List.set_comm _ _ (Ne.symm hst)]
      simp [hst]
  · simp only [setStage, hset, closing_stalled, Option.map_some]
    rfl
  · simp only [setStage, hset, writer_stalled, queue_stalled, capacity_stalled]
    split
    · rfl
    · split
      · rfl
      · rfl
  · simp only [setStage, hset, hwithdraw, Option.map_some]
  · split <;> simp only [setStage, hset, Option.map_some, Option.map_none]
  · split <;> simp only [setStage, hset, Option.map_some, Option.map_none]
  · rw [hw]
    split
    · simp only [setStage, hset, hwithdraw, Option.map_some]
      rfl
    · simp only [setStage, hset, Option.map_some]
  · split <;> simp only [setStage, hset, Option.map_some]
    rfl
  · rfl

theorem stepReader_stalled (hk : c.Keyed) (q : Request) {x : ReaderEvent}
    (hhand : ∀ a, c.reader.hand ≠ some (a, some t))
    (h : ∀ m, x = .arrive m → c.waiting? m.id ≠ some t) :
    (c.stalled t q).stepReader x = (c.stepReader x).map (·.stalled t q) := by
  unfold stepReader
  rw [reader_stalled]
  split
  · rfl
  · next m _ =>
    simp only [Option.map_some, arrive, waiting?_stalled hk q (h m rfl), unregister_stalled]
    rfl
  · next a s hreader =>
    have hst : s ≠ t := by
      rintro rfl
      exact hhand a (by rw [hreader]; rfl)
    simp only [Option.map_some, fill_stalled hst]
    rfl
  · rw [dispatchUnclaimed_stalled, Option.map_some]
  · rfl
  · rfl
  · rfl
  · rw [beginClose_stalled, Option.map_some]
    rfl
  · rw [closing_stalled]
    cases c.closing.isOver <;> rfl
  · rfl

/-- A caller who does not move keeps nobody from finding that no frame will come any more. -/
theorem isQueueHeld_stalled (hq : q.isHolding = false) (h : c.isQueueHeld = false) :
    (c.stalled t q).isQueueHeld = false := by
  simp only [isQueueHeld, Bool.or_eq_false_iff, List.any_eq_false, writes_stalled] at h ⊢
  refine ⟨fun r hr => ?_, h.2⟩
  rcases List.mem_or_eq_of_mem_set hr with hr | rfl
  · exact h.1 r hr
  · simp [hq]

theorem stepWriter_stalled (hq : q.isHolding = false) {x : WriterEvent}
    (h : c.stepWriter x = some d) : (c.stalled t q).stepWriter x = some (d.stalled t q) := by
  unfold stepWriter at h ⊢
  rw [writer_stalled]
  split at h
  · rw [queue_stalled]
    split at h <;> cases h
    rfl
  · split at h <;> cases h
    next hdry =>
    have hheld : (c.stalled t q).isQueueHeld = false := isQueueHeld_stalled hq (by simp_all)
    exact if_pos (by simp_all)
  · cases h
    rfl
  · split at h <;> cases h
    next hroom => exact if_pos hroom
  · split at h <;> cases h
    next hleft => exact if_pos hleft
  · split at h <;> cases h
    next hleft => exact if_pos hleft
  · split at h <;> cases h
    next hall => exact if_pos hall
  · split at h <;> cases h
    next hall => exact if_pos hall
  · cases h
    rfl
  · cases h
    rw [beginClose_stalled]
    rfl
  · split at h <;> cases h
    next hover => exact if_pos hover
  · cases h

theorem stepWrite_stalled (q : Request) (n : Nat) (w : Write) (x : WriteEvent) :
    (c.stalled t q).stepWrite n w x = (c.stepWrite n w x).map (·.stalled t q) := by
  unfold stepWrite
  split
  · rfl
  · rw [writer_stalled, queue_stalled, capacity_stalled]
    cases c.writer.isServing with
    | false => rfl
    | true =>
      by_cases hroom : c.queue.length < c.capacity
      · simp only [hroom]
        rfl
      · simp only [hroom]
        rfl
  · rfl

theorem stepClosing_stalled (q : Request) (x : ClosingEvent) :
    (c.stalled t q).stepClosing x = (c.stepClosing x).map (·.stalled t q) := by
  unfold stepClosing
  rw [closing_stalled]
  split <;> rfl

/-- **The steps of all others are the same if a caller has not moved**, unless they look for the id
under which that caller's slot waits. -/
theorem step_stalled (hk : c.Keyed) (hq : q.isHolding = false) (ht : t < c.requests.length)
    (hhand : ∀ a, c.reader.hand ≠ some (a, some t)) {e : ConnectionEvent}
    (hown : ∀ x, e ≠ .request t x)
    (hsought : ∀ id, e.soughtId? c = some id → c.waiting? id ≠ some t) (h : c.step e = some d) :
    (c.stalled t q).step e = some (d.stalled t q) := by
  have hmap : ∀ {o : Option Connection}, o = some d →
      o.map (·.stalled t q) = some (d.stalled t q) := by
    rintro _ rfl
    rfl
  cases e with
  | send m =>
    cases h
    rw [step, send_stalled ht]
  | request s x =>
    have hst : s ≠ t := by
      rintro rfl
      exact hown x rfl
    obtain ⟨r, hr, hs⟩ := Option.bind_eq_some_iff.1 h
    have hw := hsought r.message.id (by rw [ConnectionEvent.soughtId?, hr, Option.map_some])
    rw [step, getElem?_stalled hst, hr, Option.bind_some, stepRequest_stalled hk q hst hw]
    exact hmap hs
  | write bytes =>
    cases h
    rfl
  | writing n x =>
    obtain ⟨w, hw, hs⟩ := Option.bind_eq_some_iff.1 h
    rw [step, writes_stalled, hw, Option.bind_some, stepWrite_stalled]
    exact hmap hs
  | close =>
    cases h
    rw [step, beginClose_stalled]
  | closing x =>
    rw [step, stepClosing_stalled]
    exact hmap h
  | writer x => exact stepWriter_stalled hq h
  | reader x =>
    have hw : ∀ m, x = .arrive m → c.waiting? m.id ≠ some t := by
      rintro m rfl
      exact hsought m.id rfl
    rw [step, stepReader_stalled hk q hhand hw]
    exact hmap h

/-! ## The caller's own steps -/

theorem stalled_setRequest (q r : Request) : (c.setRequest t r).stalled t q = c.stalled t q := by
  simp only [stalled, setRequest, List.set_set]

theorem set_modify {α : Type} (l : List α) (t : Nat) (f : α → α) (x : α) :
    (l.modify t f).set t x = l.set t x := by
  refine List.ext_getElem? fun n => ?_
  simp only [List.getElem?_modify, List.getElem?_set, List.length_modify]
  by_cases hn : t = n
  · simp [hn]
  · simp [hn]

/-- A caller that takes its own slot away leaves what was there without it. -/
theorem stalled_withdraw (hk : c.Keyed) (h : c.waiting? id = some t) (q : Request) :
    (c.withdraw id).stalled t q = c.stalled t q := by
  have hpending : (c.pending.filter (·.1 ≠ id)).filter (·.2 ≠ t) = c.pending.filter (·.2 ≠ t) := by
    rw [List.filter_filter]
    refine List.filter_congr fun p hp => ?_
    by_cases hid : p.1 = id
    · have hw := Books.waiting?_of_mem (b := c.books) hk hp
      rw [hid] at hw
      cases hw.symm.trans h
      simp
    · simp [hid]
  rw [withdraw, h]
  simp only [stalled, abandon, unregister, set_modify, hpending]

/-- What a caller does whose frame is never queued. -/
inductive Unqueued (c : Connection) (t : Ticket) (r : Request) : RequestEvent → Connection → Prop
  | move {x : RequestEvent} (stage : RequestStage) (hx : x ≠ .withdraw) :
    Unqueued c t r x (c.setStage t r stage)
  | register (hs : r.stage = .entered) (hw : c.waiting? r.message.id = none) :
    Unqueued c t r .register
      { c.setRequest t { r with stage := .registered, since := c.history.arrivals.length } with
        pending := c.pending ++ [(r.message.id, t)] }
  | withdraw (hs : r.stage = .refused) :
    Unqueued c t r .withdraw ((c.setStage t r (.ended (.error .closed))).withdraw r.message.id)

theorem unqueued_of_unsent {r' : Request} {x : RequestEvent} (hr : c.requests[t]? = some r)
    (ht : r.Timely) (hs : c.step (.request t x) = some d) (hr' : d.requests[t]? = some r')
    (hunsent : r'.sent = false) : c.Unqueued t r x d := by
  have hqueued : r.isQueued = false := by
    by_contra hq
    obtain ⟨r'', hr'', hch⟩ := (step_books hs).change hr
    cases hr'.symm.trans hr''
    rw [hch.sent_of (ht.queued (Bool.of_not_eq_false hq))] at hunsent
    cases hunsent
  obtain ⟨r₀, hr₀, h⟩ := Option.bind_eq_some_iff.1 hs
  cases hr.symm.trans hr₀
  have hlt := (List.getElem?_eq_some_iff.1 hr).1
  unfold stepRequest at h
  split at h
  · next hst =>
    split at h
    · cases h
      exact .move _ RequestEvent.noConfusion
    · next hw =>
      cases h
      exact .register hst (by simpa using hw)
  · cases h
    exact .move _ RequestEvent.noConfusion
  · split at h
    · cases h
      exact .move _ RequestEvent.noConfusion
    · split at h
      · cases h
        rw [enqueue, setRequest, List.getElem?_set_self hlt, Option.some.injEq] at hr'
        rw [← hr'] at hunsent
        cases hunsent
      · cases h
  · next hst =>
    cases h
    exact .withdraw hst
  · next hst => simp [Request.isQueued, hst] at hqueued
  · next hst => simp [Request.isQueued, hst] at hqueued
  · next hst => simp [Request.isQueued, hst] at hqueued
  · next hst => simp [Request.isQueued, hst] at hqueued
  · cases h

/-- **The steps of a caller whose frame is never queued leave no difference**, if nobody but the
caller has taken its slot. -/
theorem Unqueued.stalled_eq {x : RequestEvent} (h : c.Unqueued t r x d) (hk : c.Keyed)
    (hwaits : r.isRegistered = true → c.waiting? r.message.id = some t) (q : Request) :
    d.stalled t q = c.stalled t q := by
  cases h with
  | move => exact stalled_setRequest ..
  | register => simp [stalled, setRequest]
  | withdraw hs =>
    rw [stalled_withdraw (c := c.setStage t r (.ended (.error .closed))) hk
      (hwaits (by simp [Request.isRegistered, hs])), setStage, stalled_setRequest]

end Connection

end ClusterLink
