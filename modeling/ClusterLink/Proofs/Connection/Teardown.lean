import ClusterLink.Proofs.Connection.Deprivation
import ClusterLink.Proofs.Connection.Outliving
import ClusterLink.Proofs.Connection.Wire
/-!
# Closing once and for good

Any number of callers, the writer and the reader may close a connection, in any order. The first of
them marks it as closed, tells those who wait for the end, drops the queue and shuts down the socket,
one after the other; the others find it closed and come back. What others do in between does not
change that, and what they begin afterwards comes to nothing.

The requests that wait outlive all this, with one exception. A request that has hold of the queue when
the writer fails is refused by it, and then takes away what waits under its id. If the reader has
taken its own slot, that can be the slot of a request that waits.

Results:
* `Connection.step_teardown`: what a step does to what the closing leaves behind.
* `Teardown.Sound.step`: the socket is shut down once, and what the calls to close come to.
* `Connection.turnsAway_of_run`: what becomes of those who begin when the first call is over.
* `Connection.standsBy_of_run`: what becomes of the requests that wait.
* `Connection.closing_is_one_way_and_total`: all of it for any run.
* `Connection.a_refused_request_takes_the_slot_of_another`: a run with the exception.
-/
namespace ClusterLink

/-- No two requests that wait have the same id. -/
def Books.DistinctQueued (b : Books) : Prop :=
  ((b.requests.filter (·.isQueued)).map (·.message.id)).Nodup

instance (b : Books) : Decidable b.DistinctQueued :=
  inferInstanceAs (Decidable (List.Nodup _))

/-- What closing leaves behind. -/
structure Teardown where
  closing : Closing
  closes : List (Except ConnectionError Unit)
  shutdowns : Nat

def Connection.teardown (c : Connection) : Teardown :=
  ⟨c.closing, c.history.closes, c.history.shutdowns⟩

/-- Whether a step is one of the closing. -/
def ConnectionEvent.isClosing : ConnectionEvent → Bool
  | closing _ => true
  | _ => false

/-- What the first call to close comes to, if it is over. -/
def Closing.outcome : Closing → List (Except ConnectionError Unit)
  | settled _ result => [result.mapError .io]
  | _ => []

/-- What a step can do to what closing leaves behind. -/
inductive Teardown.Step (x : Teardown) (e : ConnectionEvent) : Teardown → Prop
  | rest (he : e.closer? = none) : Step x e x
  | flag {closer : Closer} (he : e.closer? = some closer) (hk : x.closing = .notYet) :
    Step x e { x with closing := .flagged closer }
  | find {closer : Closer} (he : e.closer? = some closer) (hk : x.closing.isFlagged = true) :
    Step x e { x with closes := x.closes ++ [.ok ()] }
  | announce {closer : Closer} (he : e.closer? = none) (hk : x.closing = .flagged closer) :
    Step x e { x with closing := .announced closer }
  | detach {closer : Closer} (he : e.closer? = none) (hk : x.closing = .announced closer) :
    Step x e { x with closing := .detached closer }
  | shutDown {closer : Closer} (result : Except IoError Unit) (he : e.closer? = none)
      (hk : x.closing = .detached closer) :
    Step x e ⟨.settled closer result, x.closes ++ [result.mapError .io], x.shutdowns + 1⟩

namespace Connection

variable {options : ConnectionOptions} {c d : Connection} {e : ConnectionEvent}
  {events : List ConnectionEvent}

/-! ## What one step does -/

theorem teardown_withdraw (c : Connection) (id : MessageId) :
    (c.withdraw id).teardown = c.teardown := by
  unfold withdraw
  split <;> rfl

theorem teardown_stepRequest {t : Ticket} {r : Request} {x : RequestEvent}
    (h : c.stepRequest t r x = some d) : d.teardown = c.teardown := by
  unfold stepRequest at h
  split at h
  · split at h <;> cases h <;> rfl
  · cases h; rfl
  · split at h
    · cases h; rfl
    · split at h <;> cases h; rfl
  · cases h; exact teardown_withdraw _ _
  · split at h <;> cases h <;> rfl
  · split at h <;> cases h; rfl
  · split at h
    · cases h; exact teardown_withdraw (c.setStage t r _) r.message.id
    · cases h; rfl
  · split at h <;> cases h <;> rfl
  · cases h

theorem teardown_stepWrite {n : Nat} {w : Write} {x : WriteEvent} (h : c.stepWrite n w x = some d) :
    d.teardown = c.teardown := by
  unfold stepWrite at h
  split at h
  · cases h; rfl
  · split at h
    · cases h; rfl
    · split at h <;> cases h; rfl
  · cases h

/-- Whoever closes a connection begins to, or finds it closed. -/
theorem teardown_beginClose {closer : Closer} (he : e.closer? = some closer) (c : Connection) :
    c.teardown.Step e (c.beginClose closer).teardown := by
  unfold beginClose
  split
  · next hclosed => exact .find he hclosed
  · next hopen =>
    exact .flag he (Closing.eq_notYet (Bool.eq_false_iff.2 hopen))

theorem stepClosing_teardown {x : ClosingEvent} (h : c.stepClosing x = some d) :
    c.teardown.Step (.closing x) d.teardown := by
  unfold stepClosing at h
  split at h
  · next hk => cases h; exact .announce rfl hk
  · next hk => cases h; exact .detach rfl hk
  · next hk => cases h; exact .shutDown _ rfl hk
  · cases h

theorem stepWriter_teardown {x : WriterEvent} (h : c.stepWriter x = some d) :
    c.teardown.Step (.writer x) d.teardown := by
  unfold stepWriter at h
  split at h
  all_goals first
    | (cases h; done)
    | (cases h; exact teardown_beginClose rfl c)
    | (cases h; exact .rest rfl)
    | (split at h <;> cases h; exact .rest rfl)

theorem teardown_fill (c : Connection) (t : Ticket) (a : Arrival) :
    (c.fill t a).teardown = c.teardown := by
  unfold fill
  split
  · rfl
  · split <;> rfl

theorem stepReader_teardown {x : ReaderEvent} (h : c.stepReader x = some d) :
    c.teardown.Step (.reader x) d.teardown := by
  unfold stepReader at h
  split at h
  · cases h; exact .rest rfl
  · cases h; exact .rest rfl
  · next a t hr =>
    cases h
    change c.teardown.Step _ (c.fill t a).teardown
    rw [teardown_fill]
    exact .rest rfl
  · cases h
    unfold dispatchUnclaimed
    split <;> exact .rest rfl
  · cases h; exact .rest rfl
  · cases h; exact .rest rfl
  · cases h; exact .rest rfl
  · cases h; exact teardown_beginClose rfl c
  · split at h <;> cases h; exact .rest rfl
  · cases h

/-- **What a step does to what closing leaves behind.** -/
theorem step_teardown (h : c.step e = some d) : c.teardown.Step e d.teardown := by
  cases e with
  | send m => cases h; exact .rest rfl
  | request t x =>
    obtain ⟨r, -, hs⟩ := Option.bind_eq_some_iff.1 h
    rw [teardown_stepRequest hs]
    exact .rest rfl
  | write bytes => cases h; exact .rest rfl
  | writing n x =>
    obtain ⟨w, -, hs⟩ := Option.bind_eq_some_iff.1 h
    rw [teardown_stepWrite hs]
    exact .rest rfl
  | close => cases h; exact teardown_beginClose rfl c
  | closing x => exact stepClosing_teardown h
  | writer x => exact stepWriter_teardown h
  | reader x => exact stepReader_teardown h

end Connection

/-! ## The calls to close -/

/-- What closing has left behind after some `calls` to close. -/
structure Teardown.Sound (x : Teardown) (calls : Nat) : Prop where
  /-- The socket is shut down once, and last of all. -/
  shutdowns : x.shutdowns = if x.closing.isOver then 1 else 0
  /-- Every call but the first comes back without an error, some of them before the first. -/
  closes : ∃ before after, x.closes = before ++ x.closing.outcome ++ after ∧
    ∀ result ∈ before ++ after, result = .ok ()
  /-- Every call has come back, except the first as long as it is at work. -/
  returned : x.closes.length + (if x.closing.isFlagged && !x.closing.isOver then 1 else 0) = calls

theorem Teardown.Sound.step {x y : Teardown} {e : ConnectionEvent} {calls : Nat}
    (h : x.Sound calls) (hs : x.Step e y) :
    y.Sound (calls + if e.closer?.isSome then 1 else 0) := by
  obtain ⟨hshut, ⟨before, after, hcloses, hall⟩, hreturned⟩ := h
  have hclose {closer : Closer} (he : e.closer? = some closer) :
      calls + (if e.closer?.isSome then 1 else 0) = calls + 1 := by rw [he]; rfl
  have hother (he : e.closer? = none) : calls + (if e.closer?.isSome then 1 else 0) = calls := by
    rw [he]; rfl
  cases hs with
  | rest he =>
    rw [hother he]
    exact ⟨hshut, ⟨before, after, hcloses, hall⟩, hreturned⟩
  | flag he hk =>
    rw [hclose he]
    rw [hk] at hshut hcloses hreturned
    exact ⟨hshut, ⟨before, after, hcloses, hall⟩, by rw [← hreturned]; rfl⟩
  | find he hk =>
    rw [hclose he]
    refine ⟨hshut, ⟨before, after ++ [.ok ()], by simp [hcloses], fun result hmem => ?_⟩, ?_⟩
    · rw [← List.append_assoc, List.mem_append] at hmem
      exact hmem.elim (hall result) List.mem_singleton.1
    · change (x.closes ++ [Except.ok ()]).length +
        (if x.closing.isFlagged && !x.closing.isOver then 1 else 0) = calls + 1
      rw [List.length_append, List.length_singleton, Nat.add_right_comm, hreturned]
  | announce he hk =>
    rw [hother he]
    rw [hk] at hshut hcloses hreturned
    exact ⟨hshut, ⟨before, after, hcloses, hall⟩, hreturned⟩
  | detach he hk =>
    rw [hother he]
    rw [hk] at hshut hcloses hreturned
    exact ⟨hshut, ⟨before, after, hcloses, hall⟩, hreturned⟩
  | shutDown result he hk =>
    rw [hother he]
    rw [hk] at hshut hcloses hreturned
    refine ⟨by rw [hshut]; rfl, ⟨before ++ after, [], ?_, by simpa using hall⟩, ?_⟩
    · simp [hcloses, Closing.outcome]
    · rw [← hreturned, List.length_append]
      rfl

namespace Connection

variable {options : ConnectionOptions} {c d u : Connection} {e : ConnectionEvent}
  {events : List ConnectionEvent}

/-- How many calls to close there are among some events. -/
def closeCalls (events : List ConnectionEvent) : Nat := events.countP (·.closer?.isSome)

theorem sound_of_run (hrun : (new options).run events = some c) :
    c.teardown.Sound (closeCalls events) := by
  refine @Machine.run_induction _ _ (machine options) (fun events c =>
    c.teardown.Sound (closeCalls events)) (new options) c
    ⟨rfl, ⟨[], [], rfl, by simp⟩, rfl⟩ (fun events u e v _ ih hs => ?_) events hrun
  have h := ih.step (step_teardown hs)
  unfold closeCalls
  rwa [List.countP_append, List.countP_singleton]

/-- The first call to close goes on until it is over. -/
theorem inevitable_isOver (h : c.isClosed = true) :
    (machine options).Inevitable (fun e => e.isClosing = true) (fun d => d.closing.isOver = true)
      c := by
  refine @Machine.inevitable_of_lowers _ _ (machine options) _ _ (fun d => d.isClosed = true)
    [fun d => d.closing.toGo] ?_ ?_ c h
  · intro u e v hu he hs
    refine ⟨(step_closing hs).isFlagged_of hu, ?_⟩
    cases e with
    | closing x => exact .head (toGo_stepClosing hs).2
    | _ => cases he
  · intro u hu hstuck
    by_contra hnot
    obtain ⟨x, v, hx⟩ := exists_closing_step hu (Bool.eq_false_iff.2 hnot)
    exact absurd (hx.symm.trans (hstuck (.closing x) rfl)) (Option.some_ne_none v)

/-! ## Turned away -/

/-- Whether an event belongs to a request or a write that was begun after a connection was `c`. -/
def BegunSince (c : Connection) : ConnectionEvent → Prop
  | .send _ | .write _ => True
  | .request t _ => c.requests.length ≤ t
  | .writing n _ => c.writes.length ≤ n
  | _ => False

/-- What a connection is at a time `d` after the first call to close was over at a time `c`. -/
structure TurnsAway (c d : Connection) : Prop where
  isOver : d.closing.isOver = true
  /-- Whoever waits for the end is told at once, unless the deadline itself is out of reach. -/
  done : ∀ (now timeout : Duration) pauses, now.nanos + timeout.nanos < clockLimit →
    d.waitClosed now timeout pauses = .ok (some true)
  detached : d.closing.hasQueue = false
  /-- A request that was begun since has ended, and a write has or will. -/
  shut : Shut c d
  request : ∀ m, (d.request m).2.result? (d.request m).1 = some (.error .closed)
  write : ∀ bytes, ∃ u, d.write bytes = some (.error .closed, u)
  /-- None of those begun since waits for a response. -/
  pending : ∀ id t, (id, t) ∈ d.pending → t < c.requests.length
  /-- None of their steps adds anything. -/
  unchanged : ∀ e u, c.BegunSince e → d.step e = some u → u.pending = d.pending ∧
    u.expired = d.expired ∧ u.queue = d.queue ∧ u.history.queued = d.history.queued

theorem unchanged_of_shut (h : Shut c d) (hq : c.closing.hasQueue = false) (he : c.BegunSince e)
    (hs : d.step e = some u) : u.pending = d.pending ∧ u.expired = d.expired ∧
      u.queue = d.queue ∧ u.history.queued = d.history.queued := by
  cases e with
  | send m => cases hs; exact ⟨rfl, rfl, rfl, rfl⟩
  | write bytes => cases hs; exact ⟨rfl, rfl, rfl, rfl⟩
  | request t x =>
    obtain ⟨r, hr, hx⟩ := Option.bind_eq_some_iff.1 hs
    have hst := h.requests t r he hr
    cases x <;> simp [stepRequest, hst] at hx
  | writing n x =>
    obtain ⟨w, hw, hx⟩ := Option.bind_eq_some_iff.1 hs
    obtain hst | hst := (h.writes hq).2 n w he hw
    · cases x with
      | reach =>
        simp only [stepWrite, hst] at hx
        cases hx
        exact ⟨rfl, rfl, rfl, rfl⟩
      | queue => simp [stepWrite, hst] at hx
    · cases x <;> simp [stepWrite, hst] at hx
  | _ => exact he.elim

theorem awaitDone_of_isDone (h : c.isDone = true) (pauses : List (Wake × Connection)) :
    c.awaitDone pauses = some true := by
  cases pauses with
  | nil => exact if_pos h
  | cons pause later => exact if_pos h

/-- **When the first call to close is over, whoever begins anything is turned away.** -/
theorem turnsAway_of_run (hc : (machine options).Reachable c) (hover : c.closing.isOver = true)
    (hrun : c.run events = some d) : TurnsAway c d := by
  have hshut := shut_of_run (Closing.isFlagged_of_isOver hover) hrun
  have hdover : d.closing.isOver = true :=
    kept_of_run (P := fun u => u.closing.isOver = true)
      (fun _ _ _ hu hs => (step_closing hs).isOver_of hu) hover hrun
  have hqueue := Closing.hasQueue_of_isOver hover
  have hdqueue := Closing.hasQueue_of_isOver hdover
  refine ⟨hdover, fun now timeout pauses hclock => ?_, hdqueue, hshut,
    request_of_isClosed hshut.closed, write_of_detached hdqueue, fun id t hmem => ?_,
    fun e u he hs => unchanged_of_shut hshut hqueue he hs⟩
  · rw [waitClosed, if_pos hclock, awaitDone_of_isDone (Closing.isAnnounced_of_isOver hdover)]
  obtain ⟨r, hr, -, -, hreg, -⟩ := (coherent (reachable_of_run hc hrun)).waiting id t hmem
  by_contra hge
  have hst := hshut.requests t r (Nat.le_of_not_lt hge) hr
  simp [Request.isRegistered, hst] at hreg

/-! ## Those who wait -/

/-- What is to be said of a request whose frame was queued, whoever has closed the connection by the
end of some events. -/
structure StandsBy (options : ConnectionOptions) (events : List ConnectionEvent) (c : Connection)
    (t : Ticket) (q : Request) : Prop where
  /-- It comes back by its own steps. -/
  ends : (machine options).Inevitable (fun e => ∃ x, e = .request t x)
    (fun u => ∃ result, u.result? t = some result) c
  /-- As long as it waits and was not deprived, its slot is under its id, in the reader's hand, or
  holds a response. -/
  kept : q.stage = .waiting → ¬DeprivedDuring options events t →
    c.waiting? q.message.id = some t ∨ (∃ a, c.reader = .claimed a (some t)) ∨
      ∃ a, q.slot = .filled a ∧ a.message.id = q.message.id
  /-- It comes back with a response, when its time is up, or closed; and closed exactly if it was
  deprived. -/
  result : ∀ result, q.result? = some result →
    ((∃ a, result = .ok a ∧ a.message.id = q.message.id) ∨
      (∃ d, result = .error (.timeout q.message.id d)) ∨ result = .error .closed) ∧
    (result = .error .closed ↔ DeprivedDuring options events t)

/-- **Those who wait outlive the connection unless they are deprived.** -/
theorem standsBy_of_run (hrun : (new options).run events = some c) {t : Ticket} {q : Request}
    (hq : c.requests[t]? = some q) (hsent : q.sent = true) : StandsBy options events c t q := by
  have hc := reachable_of_run .start hrun
  refine ⟨inevitable_over hc hq hsent, fun hst hdep => ?_,
    fun result hres => closed_iff_deprived hrun hq hsent hres⟩
  cases hslot : q.slot with
  | vacant =>
    have hreg : q.isRegistered = true := by simp [Request.isRegistered, hst]
    exact (slot_of_vacant hc hq hreg hslot).imp_right Or.inl
  | filled a => exact Or.inr (Or.inr ⟨a, rfl, ((coherent hc).filled t q a hq hslot).2.1.symm⟩)
  | abandoned =>
    rcases (showsLosses_of_run hrun t q hq).abandoned hslot with h | h | h | ⟨h, -⟩ | h
    · cases hst.symm.trans h
    · cases hst.symm.trans h
    · simp [Request.timedOut, hst] at h
    · cases hsent.symm.trans h
    · exact absurd h hdep

/-! ## Any run -/

/-- **Closing is one-way and total, but for those who are deprived.** In the course of any events a
connection is closed by anybody at any time. Once closed it stays so, and the first call to close goes
on until the socket is shut down, which happens once. All other calls come back at once without an
error.

When the first call is over, everybody who waits for the end is told, the queue is gone, and whatever
is sent or written from then on comes back closed and leaves no trace. The requests whose frames were
queued keep their slots, and come back with their response or when their time is up, except those of
whom another request takes the slot away: one under the same id whose frame was refused or whose time
is up. These come back closed. It does not happen to a request that is alone under its id when the
connection is closed, nor to any as long as the ids in flight are different. -/
theorem closing_is_one_way_and_total (hrun : (new options).run events = some c) :
    c.teardown.Sound (closeCalls events) ∧
    (c.isClosed = true →
      c.step .close = some (c.noteClose (.ok ())) ∧
      (∀ later d, c.run later = some d → d.isClosed = true) ∧
      (machine options).Inevitable (fun e => e.isClosing = true) (fun d => d.closing.isOver = true)
        c ∧
      ∀ t q, c.Holds t q → ∀ later d, c.run later = some d → ∃ q', q'.message = q.message ∧
        d.Keeps t q' ∧ (machine options).Inevitable (fun e => ∃ x, e = .request t x)
          (fun u => ∃ result, u.result? t = some result) d) ∧
    (c.closing.isOver = true → ∀ later d, c.run later = some d → TurnsAway c d) ∧
    (∀ (t : Ticket) q, c.requests[t]? = some q → q.sent = true → StandsBy options events c t q) ∧
    ((machine options).Along (fun u => u.books.DistinctInFlight) (new options) events →
      ∀ (t : Ticket) q, c.requests[t]? = some q →
        ¬DeprivedDuring options events t ∧ (q.isQueued = true → c.Holds t q)) := by
  have hc := reachable_of_run .start hrun
  refine ⟨sound_of_run hrun, fun hclosed => ⟨congrArg some (if_pos hclosed),
    fun later d hl => (shut_of_run hclosed hl).closed, inevitable_isOver hclosed, ?_⟩,
    fun hover later d hl => turnsAway_of_run hc hover hl,
    fun t q hq hsent => standsBy_of_run hrun hq hsent,
    fun hd t q hq => ⟨not_deprivedDuring_of_distinct hrun hd, holds_of_distinct hrun hd hq⟩⟩
  intro t q hq later d hl
  obtain ⟨q', hq', hm⟩ := hq.of_run hc hclosed hl
  have hd := reachable_of_run hc hl
  exact ⟨q', hm, hq'.keeps hd, inevitable_over hd hq'.request hq'.sent⟩

/-! ### Three who close -/

private def firstAsked : Message := .bare (.ofNat 1) .select

private def secondAsked : Message := .bare (.ofNat 2) .insert

private def answer : Message := ⟨.ofNat 1, .select, [5], by decide⟩

private def broken : IoError := { kind := .brokenPipe, message := "broken pipe" }

/-- Two requests wait, and the reader has the answer to one of them in hand. The writer fails and is
the first to close. The caller and the reader find the connection closed while the closing is under
way, and the socket cannot be shut down any more. -/
private def threeClose : List ConnectionEvent :=
  [.reader (.start false),
    .send firstAsked, .request 0 .register, .request 0 .reach, .request 0 .queue,
    .send secondAsked, .request 1 .register, .request 1 .reach, .request 1 .queue,
    .reader (.arrive answer), .writer .fetch, .writer .look, .writer (.fail broken),
    .writer .lookAfterFailure, .writer .close, .closing .announce, .close, .reader .dispatch,
    .closing .detach, .reader (.stop .ended), .reader .close,
    .closing (.shutDown (.error broken)), .writer .leave]

/-- Both requests come back, and others are begun. -/
private def aftermath : List ConnectionEvent :=
  [.send secondAsked, .request 0 .take, .request 1 .timeOut, .write [1], .request 1 .giveUp,
    .writing 0 .reach]

private def closedByThree : Connection := ((new {}).run threeClose).getD (new {})

private def afterwards : Connection := (closedByThree.run aftermath).getD (new {})

/-! ### A request that is refused -/

/-- The reader takes the slot of a request that has hold of the queue, so that another one can
register the same id, and its frame is queued. The writer fails and closes the connection. -/
private def brokenOff : List ConnectionEvent :=
  [.reader (.start false), .send firstAsked, .request 0 .register, .request 0 .reach,
    .reader (.arrive answer), .reader .dispatch,
    .send firstAsked, .request 1 .register, .request 1 .reach, .request 1 .queue,
    .writer .fetch, .writer .look, .writer (.fail broken), .writer .lookAfterFailure, .writer .close,
    .closing .announce, .closing .detach, .closing (.shutDown (.ok ())), .writer .leave]

/-- The first request is refused, and the second looks for its response. -/
private def refusal : List ConnectionEvent :=
  [.request 0 .queue, .request 0 .withdraw, .request 1 .take]

private def brokenOffConnection : Connection := ((new {}).run brokenOff).getD (new {})

private def afterRefusal : Connection := (brokenOffConnection.run refusal).getD (new {})

private theorem run_brokenOff : (new {}).run brokenOff = some brokenOffConnection := by rfl

private theorem run_refusal : brokenOffConnection.run refusal = some afterRefusal := by rfl

theorem waiting_requests_outlive_a_failed_writer :
    (closedByThree.history.shutdowns = 1 ∧
      closedByThree.history.closes = [.ok (), .ok (), .error (.io broken)] ∧
      TurnsAway closedByThree afterwards ∧
      afterwards.result? 0 = some (.ok ⟨0, answer⟩) ∧
      (∃ d, afterwards.result? 1 = some (.error (.timeout (.ofNat 2) d))) ∧
      afterwards.result? 2 = some (.error .closed)) ∧
    afterRefusal.result? 1 = some (.error .closed) ∧
      DeprivedDuring {} (brokenOff ++ refusal) 1 := by
  have hrun : (new {}).run threeClose = some closedByThree := by rfl
  have hlater : closedByThree.run aftermath = some afterwards := by rfl
  have hdistinct : (machine {}).Along (fun u => u.books.DistinctInFlight) (new {}) threeClose := by
    decide +kernel
  obtain ⟨hsound, hclosed, hover, -, hholds⟩ := closing_is_one_way_and_total hrun
  obtain ⟨-, -, -, hkept⟩ := hclosed rfl
  have hturned := hover rfl aftermath afterwards hlater
  refine ⟨⟨hsound.shutdowns, rfl, hturned, rfl, ?_, rfl⟩, rfl, ?_⟩
  · have hheld := (hholds hdistinct 1 _ rfl).2 rfl
    obtain ⟨q', -, hkeeps, -⟩ := hkept 1 _ hheld aftermath afterwards hlater
    cases hkeeps.request
    obtain ⟨a, h, -⟩ | ⟨d, h⟩ := hkeeps.result _ rfl
    · cases h
    · exact ⟨d, congrArg some h⟩
  · obtain ⟨-, -, -, hstands, -⟩ :=
      closing_is_one_way_and_total (run_append run_brokenOff run_refusal)
    exact ((hstands 1 _ rfl rfl).result _ rfl).2.1 rfl

/-- When the first call to close is over, a single request waits, and none that waits ever has the id
of another. It comes back closed all the same. -/
theorem a_refused_request_takes_the_slot_of_another :
    ¬∀ (options : ConnectionOptions) (events later : List ConnectionEvent) (c d : Connection),
      (new options).run events = some c → c.closing.isOver = true → c.run later = some d →
      (machine options).Along (fun u => u.books.DistinctQueued) (new options) (events ++ later) →
      ∀ (t : Ticket) (q : Request) (result : Except ConnectionError Arrival),
        c.requests[t]? = some q → q.isQueued = true → d.result? t = some result →
        (∃ a, result = .ok a ∧ a.message.id = q.message.id) ∨
          ∃ e, result = .error (.timeout q.message.id e) := by
  intro hall
  have hdistinct : (machine {}).Along (fun u => u.books.DistinctQueued) (new {})
      (brokenOff ++ refusal) := by
    decide +kernel
  obtain ⟨a, h, -⟩ | ⟨e, h⟩ := hall {} brokenOff refusal _ _ run_brokenOff rfl run_refusal hdistinct 1
    _ (.error .closed) rfl rfl rfl
  · cases h
  · cases h

end Connection

end ClusterLink
