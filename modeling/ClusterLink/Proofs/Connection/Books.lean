import ClusterLink.Connection.Step
/-!
# The books of a connection

What a connection knows of its requests, of the ids that wait and of the frames that came in are its
books. Only the callers of requests and the reader write in them; closing, writes and the writer
leave them alone. `Books.Step` says everything that one step can do to the books, so that an
invariant of them has to look at no more than that.

Results:
* `Books.Step.change`: what a step does to a single request.
* `Connection.step_books`: every step of a connection is a step of its books.
* `Connection.stepRequest_untouched`: callers of requests leave those alone who serve a connection.
-/
namespace ClusterLink

/-- The frame in the reader's hand, with the slot that it took. -/
def Reader.hand : Reader → Option (Arrival × Option Ticket)
  | claimed a slot => some (a, slot)
  | _ => none

/-- Whether nobody has begun to close the connection and its writer is at work. -/
def Connection.isOpen (c : Connection) : Bool := !c.isClosed && c.writer.isServing

/-- Requests, waiting ids and frames. -/
structure Books where
  requests : List Request
  pending : List (MessageId × Ticket)
  expired : List MessageId
  hand : Option (Arrival × Option Ticket)
  arrivals : List Message
  expirations : List MessageId
  delivered : List (Ticket × Arrival)
  orphaned : List (Ticket × Arrival)
  late : List Arrival
  unasked : List Arrival

def Connection.books (c : Connection) : Books where
  requests := c.requests
  pending := c.pending
  expired := c.expired
  hand := c.reader.hand
  arrivals := c.history.arrivals
  expirations := c.history.expirations
  delivered := c.history.delivered
  orphaned := c.history.orphaned
  late := c.history.late
  unasked := c.history.unasked

/-- The request when nobody will fill its slot any more. -/
def Request.abandon (r : Request) : Request :=
  if r.slot = .vacant then { r with slot := .abandoned } else r

/-- A step of a request's caller that touches no other part of the books. `waiting` is the slot that
waits for the request's id. -/
inductive Request.Move (isOpen : Bool) (waiting : Option Ticket) (r : Request) :
    RequestEvent → Request → Prop
  | duplicate (hs : r.stage = .entered) (hw : waiting.isSome = true) :
    Move isOpen waiting r .register { r with stage := .ended (.error (.duplicateId r.message.id)) }
  | reach (hs : r.stage = .registered) : Move isOpen waiting r .reach { r with stage := .holding }
  | shutOut (hs : r.stage = .registered) (ho : isOpen = false) :
    Move isOpen waiting r .reach { r with stage := .refused }
  | refuse (hs : r.stage = .holding) (ho : isOpen = false) :
    Move isOpen waiting r .queue { r with stage := .refused }
  | queue (hs : r.stage = .holding) :
    Move isOpen waiting r .queue { r with stage := .waiting, sent := true }
  | take {a : Arrival} (hs : r.stage = .waiting) (ha : r.slot = .filled a) :
    Move isOpen waiting r .take { r with stage := .ended (.ok a) }
  | lose (hs : r.stage = .waiting) (ha : r.slot = .abandoned) :
    Move isOpen waiting r .take { r with stage := .ended (.error .closed) }
  | timeOut (hs : r.stage = .waiting) (ha : r.slot = .vacant) :
    Move isOpen waiting r .timeOut { r with stage := .overdue }
  | miss (hs : r.stage = .overdue) (hw : waiting = none) :
    Move isOpen waiting r .giveUp { r with stage := .missed }
  | lookAgain {a : Arrival} (hs : r.stage = .missed) (ha : r.slot = .filled a) :
    Move isOpen waiting r .lookAgain { r with stage := .ended (.ok a) }
  | vain {d : Duration} (hs : r.stage = .missed) (ha : ∀ a, r.slot ≠ .filled a) :
    Move isOpen waiting r .lookAgain { r with stage := .ended (.error (.timeout r.message.id d)) }

namespace Books

/-- The slot that waits for an id. -/
def waiting? (b : Books) (id : MessageId) : Option Ticket := b.pending.lookup id

def setRequest (b : Books) (t : Ticket) (r : Request) : Books :=
  { b with requests := b.requests.set t r }

def setStage (b : Books) (t : Ticket) (r : Request) (stage : RequestStage) : Books :=
  b.setRequest t { r with stage }

/-- Takes away the slot that waits for an id, so that nobody will fill it. -/
def withdraw (b : Books) (id : MessageId) : Books :=
  match b.waiting? id with
  | some t => { b with
      pending := b.pending.filter (·.1 ≠ id)
      requests := b.requests.modify t Request.abandon }
  | none => b

/-- Remembers that responses to an id are late. -/
def expire (b : Books) (id : MessageId) : Books :=
  { b with
    expired := (if b.expired.length = expiredCapacity then b.expired.drop 1 else b.expired) ++ [id]
    expirations := b.expirations ++ [id] }

/-- A request comes back as its time is up, and takes away what waits for its id. -/
def giveUp (b : Books) (t : Ticket) (r : Request) (d : Duration) : Books :=
  ((b.setStage t r (.ended (.error (.timeout r.message.id d)))).withdraw r.message.id).expire
    r.message.id

/-- A frame comes in and takes the slot that waits for its id. -/
def arrive (b : Books) (m : Message) : Books :=
  { b with
    pending := b.pending.filter (·.1 ≠ m.id)
    hand := some (⟨b.arrivals.length, m⟩, b.waiting? m.id)
    arrivals := b.arrivals ++ [m] }

/-- What one step does to the books. -/
inductive Step (isOpen : Bool) (b : Books) : ConnectionEvent → Books → Prop
  | aside (e : ConnectionEvent) : Step isOpen b e b
  | send {m : Message} {stage : RequestStage}
      (hs : stage = .entered ∨ stage = .ended (.error .closed)) :
    Step isOpen b (.send m) { b with requests := b.requests ++ [{ message := m, stage }] }
  | move {t : Ticket} {r r' : Request} {e : RequestEvent} (hr : b.requests[t]? = some r)
      (hm : r.Move isOpen (b.waiting? r.message.id) e r') :
    Step isOpen b (.request t e) (b.setRequest t r')
  | register {t : Ticket} {r : Request} (hr : b.requests[t]? = some r) (hs : r.stage = .entered)
      (hw : b.waiting? r.message.id = none) :
    Step isOpen b (.request t .register)
      { b.setRequest t { r with stage := .registered, since := b.arrivals.length } with
        pending := b.pending ++ [(r.message.id, t)] }
  | withdraw {t : Ticket} {r : Request} (hr : b.requests[t]? = some r) (hs : r.stage = .refused) :
    Step isOpen b (.request t .withdraw)
      ((b.setStage t r (.ended (.error .closed))).withdraw r.message.id)
  | giveUp {t : Ticket} {r : Request} {d : Duration} (hr : b.requests[t]? = some r)
      (hs : r.stage = .overdue) (hw : (b.waiting? r.message.id).isSome = true) :
    Step isOpen b (.request t .giveUp) (b.giveUp t r d)
  | arrive {m : Message} (hh : b.hand = none) : Step isOpen b (.reader (.arrive m)) (b.arrive m)
  | deliver {a : Arrival} {t : Ticket} {r : Request} (hh : b.hand = some (a, some t))
      (hr : b.requests[t]? = some r) (ho : r.isOver = false) :
    Step isOpen b (.reader .dispatch)
      { b.setRequest t { r with slot := .filled a } with
        hand := none
        delivered := b.delivered ++ [(t, a)] }
  | orphan {a : Arrival} {t : Ticket} {r : Request} (hh : b.hand = some (a, some t))
      (hr : b.requests[t]? = some r) (ho : r.isOver = true) :
    Step isOpen b (.reader .dispatch)
      { b with hand := none, orphaned := b.orphaned ++ [(t, a)] }
  | stray {a : Arrival} {t : Ticket} (hh : b.hand = some (a, some t)) (hr : b.requests[t]? = none) :
    Step isOpen b (.reader .dispatch) { b with hand := none }
  | late {a : Arrival} (hh : b.hand = some (a, none)) (he : a.message.id ∈ b.expired) :
    Step isOpen b (.reader .dispatch)
      { b with hand := none, expired := b.expired.erase a.message.id, late := b.late ++ [a] }
  | pass {a : Arrival} (hh : b.hand = some (a, none)) (he : a.message.id ∉ b.expired) :
    Step isOpen b (.reader .dispatch) { b with hand := none, unasked := b.unasked ++ [a] }

theorem getElem?_withdraw (b : Books) (id : MessageId) (t : Ticket) :
    (b.withdraw id).requests[t]? =
      if b.waiting? id = some t then (b.requests[t]?).map Request.abandon else b.requests[t]? := by
  unfold withdraw
  cases hw : b.waiting? id with
  | none => simp
  | some u =>
    simp only [List.getElem?_modify, Option.some.injEq]
    by_cases hu : u = t
    · subst hu; simp
    · simp [hu]

theorem getElem?_setRequest (b : Books) (u t : Ticket) (q : Request) (r : Request)
    (hr : b.requests[t]? = some r) :
    (b.setRequest u q).requests[t]? = some (if u = t then q else r) := by
  have hlt := (List.getElem?_eq_some_iff.1 hr).1
  simp only [setRequest, List.getElem?_set]
  by_cases hu : u = t
  · subst hu; simp [hlt]
  · simp [hu, hr]

end Books

/-- What a step can do to the request with a ticket. -/
inductive Request.Change (isOpen : Bool) (b : Books) (e : ConnectionEvent) (t : Ticket)
    (r : Request) : Request → Prop
  | keep : Change isOpen b e t r r
  | move {e' : RequestEvent} {r' : Request} (he : e = .request t e')
      (hm : r.Move isOpen (b.waiting? r.message.id) e' r') : Change isOpen b e t r r'
  | register (he : e = .request t .register) (hs : r.stage = .entered)
      (hw : b.waiting? r.message.id = none) :
    Change isOpen b e t r { r with stage := .registered, since := b.arrivals.length }
  | withdraw {r' : Request} (he : e = .request t .withdraw) (hs : r.stage = .refused)
      (hr' : r' = { r with stage := .ended (.error .closed) }) :
    Change isOpen b e t r (if b.waiting? r.message.id = some t then r'.abandon else r')
  | giveUp {r' : Request} (d : Duration) (he : e = .request t .giveUp) (hs : r.stage = .overdue)
      (hw : (b.waiting? r.message.id).isSome = true)
      (hr' : r' = { r with stage := .ended (.error (.timeout r.message.id d)) }) :
    Change isOpen b e t r (if b.waiting? r.message.id = some t then r'.abandon else r')
  | robbed {u : Ticket} {q : Request} (hu : u ≠ t) (hq : b.requests[u]? = some q)
      (he : e = .request u .giveUp ∧ q.stage = .overdue ∨
        e = .request u .withdraw ∧ q.stage = .refused)
      (hw : b.waiting? q.message.id = some t) : Change isOpen b e t r r.abandon
  | fill {a : Arrival} (he : e = .reader .dispatch) (hh : b.hand = some (a, some t))
      (ho : r.isOver = false) : Change isOpen b e t r { r with slot := .filled a }

/-- What a step does to a single request. -/
theorem Books.Step.change {isOpen : Bool} {b b' : Books} {e : ConnectionEvent}
    (h : b.Step isOpen e b') {t : Ticket} {r : Request} (hr : b.requests[t]? = some r) :
    ∃ r', b'.requests[t]? = some r' ∧ r.Change isOpen b e t r' := by
  have hlt := (List.getElem?_eq_some_iff.1 hr).1
  cases h with
  | aside => exact ⟨r, hr, .keep⟩
  | send => exact ⟨r, by simp [List.getElem?_append_left hlt, hr], .keep⟩
  | @move u q q' e hq hm =>
    refine ⟨_, b.getElem?_setRequest u t q' r hr, ?_⟩
    split
    · next hu => subst hu; cases hr.symm.trans hq; exact .move rfl hm
    · exact .keep
  | @register u q hq hs hw =>
    refine ⟨_, b.getElem?_setRequest u t _ r hr, ?_⟩
    split
    · next hu => subst hu; cases hr.symm.trans hq; exact .register rfl hs hw
    · exact .keep
  | @withdraw u q hq hs =>
    rw [getElem?_withdraw, setStage, b.getElem?_setRequest u t _ r hr]
    have hw : (b.setRequest u { q with stage := .ended (.error .closed) }).waiting? q.message.id =
      b.waiting? q.message.id := rfl
    rw [hw]
    by_cases hu : u = t
    · subst hu
      cases hr.symm.trans hq
      refine ⟨_, ?_, .withdraw rfl hs rfl⟩
      simp only [if_true, Option.map_some]
      split <;> rfl
    · simp only [if_neg hu, Option.map_some]
      split
      · next hw => exact ⟨_, rfl, .robbed hu hq (Or.inr ⟨rfl, hs⟩) hw⟩
      · exact ⟨_, rfl, .keep⟩
  | @giveUp u q d hq hs hsome =>
    have hreq : (b.giveUp u q d).requests = ((b.setStage u q
        (.ended (.error (.timeout q.message.id d)))).withdraw q.message.id).requests := rfl
    rw [hreq, getElem?_withdraw, setStage, b.getElem?_setRequest u t _ r hr]
    have hw : (b.setRequest u { q with stage := .ended (.error (.timeout q.message.id d)) }).waiting?
      q.message.id = b.waiting? q.message.id := rfl
    rw [hw]
    by_cases hu : u = t
    · subst hu
      cases hr.symm.trans hq
      refine ⟨_, ?_, .giveUp d rfl hs hsome rfl⟩
      simp only [if_true, Option.map_some]
      split <;> rfl
    · simp only [if_neg hu, Option.map_some]
      split
      · next hw => exact ⟨_, rfl, .robbed hu hq (Or.inl ⟨rfl, hs⟩) hw⟩
      · exact ⟨_, rfl, .keep⟩
  | arrive => exact ⟨r, hr, .keep⟩
  | @deliver a u q hh hq ho =>
    refine ⟨_, b.getElem?_setRequest u t _ r hr, ?_⟩
    split
    · next hu => subst hu; cases hr.symm.trans hq; exact .fill rfl hh ho
    · exact .keep
  | orphan => exact ⟨r, hr, .keep⟩
  | stray => exact ⟨r, hr, .keep⟩
  | late => exact ⟨r, hr, .keep⟩
  | pass => exact ⟨r, hr, .keep⟩

namespace Connection

variable {c d : Connection}

/-- A run does not depend on where its machine would start. -/
theorem run_machine (options : ConnectionOptions) (c : Connection) (events : List ConnectionEvent) :
    (machine options).run c events = c.run events := by
  have hsame : ∀ o : ConnectionOptions, ∀ c : Connection,
      (machine o).run c events = (machine options).run c events := by
    intro o
    induction events with
    | nil => intro c; rfl
    | cons e later ih =>
      intro c
      simp only [Machine.run_cons]
      exact congrArg _ (funext ih)
  exact (hsame c.options c).symm

theorem run_cons (c : Connection) (e : ConnectionEvent) (later : List ConnectionEvent) :
    c.run (e :: later) = (c.step e).bind fun d => d.run later := by
  rw [← run_machine c.options, Machine.run_cons]
  exact congrArg _ (funext fun d => run_machine c.options d later)

/-- A run goes on from where its beginning leads. -/
theorem run_append_eq {first : List ConnectionEvent} (hfirst : c.run first = some d)
    (later : List ConnectionEvent) : c.run (first ++ later) = d.run later := by
  rw [← run_machine c.options, Machine.run_append, run_machine, hfirst, Option.bind_some,
    run_machine]

theorem run_append {z : Connection} {first later : List ConnectionEvent}
    (hfirst : c.run first = some d) (hlater : d.run later = some z) :
    c.run (first ++ later) = some z :=
  (run_append_eq hfirst later).trans hlater

theorem run_concat {z : Connection} {events : List ConnectionEvent} {e : ConnectionEvent}
    (hrun : c.run events = some d) (hs : d.step e = some z) : c.run (events ++ [e]) = some z :=
  run_append hrun (by rw [run_cons, hs]; rfl)

theorem split_of_run {z : Connection} {first later : List ConnectionEvent} {e : ConnectionEvent}
    (hrun : c.run (first ++ e :: later) = some z) (hfirst : c.run first = some d) :
    ∃ v, d.step e = some v ∧ v.run later = some z := by
  rw [run_append_eq hfirst, run_cons] at hrun
  exact Option.bind_eq_some_iff.1 hrun

theorem reachable_of_run {options : ConnectionOptions} {events : List ConnectionEvent}
    (hc : (machine options).Reachable c) (h : c.run events = some d) :
    (machine options).Reachable d :=
  hc.run ((run_machine options c events).trans h)

/-- What each step of a run keeps holds after it. -/
theorem kept_of_run_mem {P : Connection → Prop} {events : List ConnectionEvent}
    (hstep : ∀ c e d, e ∈ events → P c → c.step e = some d → P d) (hc : P c)
    (h : c.run events = some d) : P d := by
  induction events generalizing c with
  | nil =>
    cases h
    exact hc
  | cons e later ih =>
    rw [run_cons] at h
    obtain ⟨u, hs, hlater⟩ := Option.bind_eq_some_iff.1 h
    exact ih (fun c e' d he => hstep c e' d (List.mem_cons_of_mem _ he))
      (hstep c e u (List.mem_cons_self ..) hc hs) hlater

/-- What every step keeps holds after a run. -/
theorem kept_of_run {P : Connection → Prop} (hstep : ∀ c e d, P c → c.step e = some d → P d)
    {events : List ConnectionEvent} (hc : P c) (h : c.run events = some d) : P d :=
  kept_of_run_mem (fun c e d _ => hstep c e d) hc h

theorem books_withdraw (c : Connection) (id : MessageId) :
    (c.withdraw id).books = c.books.withdraw id := by
  have hw : c.books.waiting? id = c.waiting? id := rfl
  unfold withdraw Books.withdraw
  rw [hw]
  cases c.waiting? id <;> rfl

theorem books_expire (c : Connection) (id : MessageId) :
    (c.expire id).books = c.books.expire id := rfl

theorem isOpen_eq_false_of_hasQueue (h : c.closing.hasQueue = false) : c.isOpen = false := by
  unfold isOpen isClosed
  cases hc : c.closing <;> simp_all [Closing.hasQueue, Closing.isFlagged]

theorem isOpen_eq_false_of_isServing (h : c.writer.isServing = false) : c.isOpen = false := by
  simp [isOpen, h]

theorem stepRequest_books {t : Ticket} {r : Request} {e : RequestEvent}
    (hr : c.requests[t]? = some r) (h : c.stepRequest t r e = some d) :
    c.books.Step c.isOpen (.request t e) d.books := by
  have hr' : c.books.requests[t]? = some r := hr
  unfold stepRequest at h
  split at h
  · next hs =>
    split at h
    · next hw => cases h; exact .move hr' (.duplicate hs hw)
    · next hw =>
      cases h
      have hw' : c.waiting? r.message.id = none := by simpa using hw
      exact .register hr' hs hw'
  · next hs =>
    cases h
    cases hq : c.closing.hasQueue with
    | true => exact .move hr' (.reach hs)
    | false => exact .move hr' (.shutOut hs (isOpen_eq_false_of_hasQueue hq))
  · next hs =>
    split at h
    · next hw =>
      cases h
      exact .move hr' (.refuse hs (isOpen_eq_false_of_isServing (by simpa using hw)))
    split at h
    · cases h; exact .move hr' (.queue hs)
    · cases h
  · next hs =>
    cases h
    rw [books_withdraw]
    exact .withdraw hr' hs
  · next hs =>
    split at h
    · cases h
    · next a ha => cases h; exact .move hr' (.take hs ha)
    · next ha => cases h; exact .move hr' (.lose hs ha)
  · next hs =>
    split at h
    · next ha => cases h; exact .move hr' (.timeOut hs ha)
    · cases h
  · next hs =>
    split at h
    · next hw =>
      cases h
      rw [books_expire, books_withdraw]
      exact .giveUp hr' hs hw
    · next hw =>
      cases h
      have hw' : c.waiting? r.message.id = none := by simpa using hw
      exact .move hr' (.miss hs hw')
  · next hs =>
    split at h
    · next a ha => cases h; exact .move hr' (.lookAgain hs ha)
    · next ha => cases h; exact .move hr' (.vain hs ha)
  · cases h

/-- A step of the reader that leaves its hand empty and the rest of the books as they are. -/
theorem step_aside {e : ConnectionEvent} (h : d.books = c.books) :
    c.books.Step c.isOpen e d.books := by
  rw [h]
  exact .aside e

theorem books_beginClose (c : Connection) (closer : Closer) :
    (c.beginClose closer).books = c.books := by
  unfold beginClose
  split <;> rfl

theorem stepReader_books {e : ReaderEvent} (h : c.stepReader e = some d) :
    c.books.Step c.isOpen (.reader e) d.books := by
  unfold stepReader at h
  split at h
  · next hc => cases h; exact step_aside (by simp [books, hc, Reader.hand])
  · next m hc => cases h; exact .arrive (by simp [books, hc, Reader.hand])
  · next a t hc =>
    cases h
    have hh : c.books.hand = some (a, some t) := by simp [books, hc, Reader.hand]
    unfold fill
    split
    · next hr => exact .stray hh hr
    · next r hr =>
      split
      · next ho => exact .orphan hh hr ho
      · next ho => exact .deliver hh hr (by simpa using ho)
  · next a hc =>
    cases h
    have hh : c.books.hand = some (a, none) := by simp [books, hc, Reader.hand]
    unfold dispatchUnclaimed
    split
    · next he => exact .late hh he
    · next he =>
      cases c.hasCallback <;> exact .pass hh he
  · next hc => cases h; exact step_aside (by simp [books, hc, Reader.hand])
  · next hc => cases h; exact step_aside (by simp [books, hc, Reader.hand])
  · next hc => cases h; exact step_aside (by simp [books, hc, Reader.hand])
  · next hc =>
    cases h
    refine step_aside ?_
    have hb := books_beginClose c .reader
    simp only [books, Books.mk.injEq] at hb ⊢
    cases c.isClosed <;> simp_all [Reader.hand]
  · next hc =>
    split at h
    · cases h; exact step_aside (by simp [books, hc, Reader.hand])
    · cases h
  · cases h

theorem stepWriter_books {e : WriterEvent} (h : c.stepWriter e = some d) : d.books = c.books := by
  unfold stepWriter at h
  split at h
  all_goals first
    | (cases h <;> rfl)
    | (split at h <;> cases h <;> rfl)
    | (cases h; exact books_beginClose c .writer)

theorem stepClosing_books {e : ClosingEvent} (h : c.stepClosing e = some d) : d.books = c.books := by
  unfold stepClosing at h
  split at h <;> cases h <;> rfl

theorem stepWrite_books {n : Nat} {w : Write} {e : WriteEvent} (h : c.stepWrite n w e = some d) :
    d.books = c.books := by
  unfold stepWrite at h
  split at h
  · cases h; rfl
  · split at h
    · cases h; rfl
    · split at h <;> cases h
      rfl
  · cases h

/-- **Every step of a connection is a step of its books.** -/
theorem step_books {e : ConnectionEvent} (h : c.step e = some d) :
    c.books.Step c.isOpen e d.books := by
  cases e with
  | send m =>
    cases h
    refine .send ?_
    cases c.isClosed <;> simp
  | request t e =>
    obtain ⟨r, hr, hs⟩ := Option.bind_eq_some_iff.1 h
    exact stepRequest_books hr hs
  | write bytes => cases h; exact step_aside rfl
  | writing n e =>
    obtain ⟨w, -, hs⟩ := Option.bind_eq_some_iff.1 h
    exact step_aside (stepWrite_books hs)
  | close => cases h; exact step_aside (books_beginClose c .caller)
  | closing e => exact step_aside (stepClosing_books h)
  | writer e => exact step_aside (stepWriter_books h)
  | reader e => exact stepReader_books h

/-- Those who serve the connection are where they were, and nothing was passed on. -/
structure Untouched (c d : Connection) : Prop where
  reader : d.reader = c.reader
  hasCallback : d.hasCallback = c.hasCallback
  unasked : d.history.unasked = c.history.unasked
  closing : d.closing = c.closing
  writer : d.writer = c.writer

theorem withdraw_untouched (c : Connection) (id : MessageId) : Untouched c (c.withdraw id) := by
  unfold withdraw
  split <;> exact ⟨rfl, rfl, rfl, rfl, rfl⟩

theorem stepRequest_untouched {t : Ticket} {r : Request} {e : RequestEvent}
    (h : c.stepRequest t r e = some d) : Untouched c d := by
  unfold stepRequest at h
  split at h
  · split at h <;> cases h <;> exact ⟨rfl, rfl, rfl, rfl, rfl⟩
  · cases h; exact ⟨rfl, rfl, rfl, rfl, rfl⟩
  · split at h
    · cases h; exact ⟨rfl, rfl, rfl, rfl, rfl⟩
    · split at h <;> cases h; exact ⟨rfl, rfl, rfl, rfl, rfl⟩
  · cases h
    have hw := withdraw_untouched (c.setStage t r (.ended (.error .closed))) r.message.id
    exact ⟨hw.reader, hw.hasCallback, hw.unasked, hw.closing, hw.writer⟩
  · split at h <;> cases h <;> exact ⟨rfl, rfl, rfl, rfl, rfl⟩
  · split at h <;> cases h; exact ⟨rfl, rfl, rfl, rfl, rfl⟩
  · split at h
    · cases h
      have hw :=
        withdraw_untouched (c.setStage t r (.ended (.error (c.timeoutError r)))) r.message.id
      exact ⟨hw.reader, hw.hasCallback, hw.unasked, hw.closing, hw.writer⟩
    · cases h; exact ⟨rfl, rfl, rfl, rfl, rfl⟩
  · split at h <;> cases h <;> exact ⟨rfl, rfl, rfl, rfl, rfl⟩
  · cases h

theorem stepWrite_untouched {n : Nat} {w : Write} {e : WriteEvent}
    (h : c.stepWrite n w e = some d) : Untouched c d := by
  unfold stepWrite at h
  split at h
  · cases h; exact ⟨rfl, rfl, rfl, rfl, rfl⟩
  · split at h
    · cases h; exact ⟨rfl, rfl, rfl, rfl, rfl⟩
    · split at h <;> cases h; exact ⟨rfl, rfl, rfl, rfl, rfl⟩
  · cases h

end Connection

end ClusterLink
