import ClusterLink.Proofs.Connection.Quiet
/-!
# What a callback writes back

A write on an open connection whose writer is at work always succeeds: while the queue is full, the
writer makes room. So the replies of a callback are queued in the order in which it was handed the
frames. If nobody makes a request, it is handed all frames that come in.

Results:
* `Connection.push_of_able`: a write on an open connection comes to its bytes in the queue.
* `Books.Unasked.step`: without requests, all frames are passed on.
* `Connection.queued_serve`: what a callback writes back in the course of a read loop.
-/
namespace ClusterLink

namespace Books

variable {isOpen : Bool} {b b' : Books} {e : ConnectionEvent}

/-- Nobody has made a request, and every frame that came in is one that nobody asked for. -/
structure Unasked (b : Books) : Prop where
  requests : b.requests = []
  pending : b.pending = []
  expired : b.expired = []
  hand : ∀ a slot, b.hand = some (a, slot) → slot = none
  passed : b.unasked.map Arrival.message ++ (b.hand.map fun h => h.1.message).toList = b.arrivals

theorem Unasked.step (h : b.Unasked) (he : ∀ m, e ≠ .send m) (hs : b.Step isOpen e b') :
    b'.Unasked := by
  have hnone (t : Ticket) : b.requests[t]? = none := by rw [h.requests]; rfl
  cases hs with
  | aside => exact h
  | send => exact absurd rfl (he _)
  | move hr => cases (hnone _).symm.trans hr
  | register hr => cases (hnone _).symm.trans hr
  | withdraw hr => cases (hnone _).symm.trans hr
  | giveUp hr => cases (hnone _).symm.trans hr
  | @arrive m hh =>
    have hwait : b.waiting? m.id = none := by simp [waiting?, h.pending]
    have hpassed := h.passed
    simp only [hh, Option.map_none, Option.toList_none, List.append_nil] at hpassed
    refine ⟨h.requests, by simp [arrive, h.pending], h.expired, fun a slot hslot => ?_, ?_⟩
    · simp only [arrive, hwait, Option.some.injEq, Prod.mk.injEq] at hslot
      exact hslot.2.symm
    · simp [arrive, hpassed]
  | deliver hh => cases h.hand _ _ hh
  | orphan hh => cases h.hand _ _ hh
  | stray hh => cases h.hand _ _ hh
  | late hh hexpired => rw [h.expired] at hexpired; cases hexpired
  | @pass a hh hexpired =>
    refine ⟨h.requests, h.pending, h.expired, fun _ _ hslot => (by cases hslot), ?_⟩
    have hpassed := h.passed
    simp only [hh, Option.map_some, Option.toList_some] at hpassed
    simp [hpassed]

end Books

theorem Reader.of_takes {r : Reader} (h : r.takes = true) :
    r.isLeaving = false ∧ r.hasClosed = false ∧ ∀ cause, r ≠ .panicked cause := by
  cases r <;> simp_all [Reader.takes, Reader.isLeaving, Reader.hasClosed]

namespace Connection

variable {options : ConnectionOptions} {c d : Connection} {e : ConnectionEvent}
  {callback : Option Callback}

/-- Without requests, every frame that a reader has put where it belongs is one that nobody asked
for. -/
theorem unasked_of_run {l l' : ReadLoop} (hl : l.connection.books.Unasked)
    {events : List ReadLoopEvent} (hevents : ∀ m, .connection (.send m) ∉ events)
    (hrun : l.run events = some l') : l'.connection.books.Unasked := by
  refine ReadLoop.kept_of_run (P := fun l => l.connection.books.Unasked)
    (Q := fun e => ∀ m, e ≠ .connection (.send m)) ?_ (fun e he m hm => hevents m (hm ▸ he)) hl hrun
  intro l e l' he hl hs
  obtain ⟨taken, -, -, hstep⟩ | ⟨x, rfl, -, hstep, -⟩ := ReadLoop.step_cases hs
  · exact hl.step (fun m hm => by cases hm) (step_books hstep)
  · exact hl.step (fun m hm => he m (congrArg _ hm)) (step_books hstep)

/-! ## Writing on an open connection -/

/-- An open connection whose writer is at work and whose reader stays. -/
structure Able (options : ConnectionOptions) (c : Connection) : Prop where
  reachable : (machine options).Reachable c
  notYet : c.closing = .notYet
  working : c.writer.IsAtWork
  staying : c.reader.takes = true

theorem Quietly.unharmed (h : Quietly c d) (hc : c.Unharmed) : d.Unharmed := by
  obtain ⟨events, hquiet, hrun⟩ := h.run {}
  exact unharmed_of_run (l := ⟨c, {}⟩) hc (fun e he => e.disturbs_of_isQuiet (hquiet e he)) hrun

theorem Quietly.reachable (h : Quietly c d) (hc : (machine options).Reachable c) :
    (machine options).Reachable d := by
  obtain ⟨events, -, hrun⟩ := h
  exact reachable_of_run hc hrun

theorem Quietly.unasked (h : Quietly c d) (hc : c.books.Unasked) : d.books.Unasked := by
  obtain ⟨events, hquiet, hrun⟩ := h.run {}
  exact unasked_of_run (l := ⟨c, {}⟩) hc (fun m hm => by cases hquiet _ hm) hrun

namespace Able

theorem unharmed (h : c.Able options) : c.Unharmed where
  closer closer hcloser := by rw [h.notYet] at hcloser; cases hcloser
  reader := (Reader.of_takes h.staying).2.2
  working _ := h.working

/-- Quiet steps leave a connection open as long as the reader stays. -/
theorem of_quietly (h : c.Able options) (hd : Quietly c d) (hr : d.reader.takes = true) :
    d.Able options := by
  have hreach := hd.reachable h.reachable
  have hu := hd.unharmed h.unharmed
  have hopen : d.isClosed = false := by
    rw [isClosed_eq]
    cases hk : d.closing.closer? with
    | none => rfl
    | some closer =>
      have hnot := (readerCloses hreach).before (Reader.of_takes hr).2.1
      exact absurd (hk.trans (congrArg some (hu.closer closer hk))) hnot
  exact ⟨hreach, Closing.eq_notYet hopen, hu.working hopen, hr⟩

theorem settle (h : c.Able options) : c.settle.Able options ∧ c.settle.reader = c.reader := by
  have hreader := (settle_aside c).reader (Reader.of_takes h.staying).1
  exact ⟨h.of_quietly (settle_quietly c) (hreader ▸ h.staying), hreader⟩

end Able

/-- The writer and the closing queue nothing. -/
theorem queued_stepWriter {x : WriterEvent} (h : c.stepWriter x = some d) :
    d.history.queued = c.history.queued := by
  have hs : c.outgoing.Step c.isClosed (.writer x) d.outgoing := step_sending (e := .writer x) h
  generalize hp : d.outgoing = p at hs
  have hqueued : p.queued = c.outgoing.queued := by
    cases hs with
    | rest hx => rfl
    | queue _ hx => exact absurd rfl (hx x)
    | write hs => exact Outgoing.queued_writerStep hs
    | _ => rfl
  rw [← hp] at hqueued
  exact hqueued

theorem queued_stepClosing {x : ClosingEvent} (h : c.stepClosing x = some d) :
    d.history.queued = c.history.queued := by
  unfold stepClosing at h
  split at h <;> cases h <;> rfl

/-- Those who serve a connection queue nothing. -/
theorem queued_settle (c : Connection) : c.settle.history.queued = c.history.queued := by
  refine settle_induction (P := fun d => d.history.queued = c.history.queued) ?_ rfl
  intro u e v hn hs hu
  refine Eq.trans ?_ hu
  obtain ⟨x, -, rfl⟩ | ⟨x, -, rfl⟩ | ⟨x, -, rfl⟩ := next?_cases hn
  · exact queued_stepClosing hs
  · exact queued_stepWriter hs
  · exact congrArg Outgoing.queued (outgoing_stepReader hs)

/-- Where everybody waits, a writer at work has taken all frames off the queue. -/
theorem queue_of_waiting (hw : c.writer.IsAtWork) (hn : c.next? = none) (hopen : c.closing = .notYet) :
    c.queue = [] := by
  have hnone : c.nextOfWriter? = none := by
    cases h : c.nextOfWriter? with
    | none => rfl
    | some x => simp [next?, hopen, Closing.next?, h] at hn
  cases hwr : c.writer with
  | idle =>
    by_contra hq
    simp [nextOfWriter?, hwr, hq] at hnone
  | holding frame => simp [nextOfWriter?, hwr] at hnone
  | writing frame done => simp [nextOfWriter?, hwr] at hnone
  | _ => rw [hwr] at hw; exact hw.elim

theorem capacity_pos (c : Connection) : 0 < c.capacity :=
  Nat.lt_of_lt_of_le Nat.one_pos (Nat.le_max_right ..)

/-- **A write on an open connection succeeds.** -/
theorem push_of_able (h : c.Able options) (bytes : Bytes) :
    (c.push bytes).1 = .ok bytes.length ∧
      (c.push bytes).2.history.queued = c.history.queued ++ [bytes] := by
  unfold push
  rw [write_of_open h.notYet h.working.isServing]
  by_cases hroom : c.queue.length < c.capacity
  · rw [if_pos hroom]
    exact ⟨rfl, rfl⟩
  · -- The writer makes room.
    obtain ⟨hs, -⟩ := h.settle
    have hqueue := queue_of_waiting hs.working (next?_settle h.reachable) hs.notYet
    have hroom' : c.settle.queue.length < c.settle.capacity := by
      rw [hqueue]
      exact c.settle.capacity_pos
    rw [if_neg hroom, write_of_open hs.notYet hs.working.isServing, if_pos hroom']
    refine ⟨rfl, ?_⟩
    change c.settle.history.queued ++ [bytes] = _
    rw [queued_settle]

theorem Able.push (h : c.Able options) (bytes : Bytes) :
    (c.push bytes).2.Able options ∧ (c.push bytes).2.reader = c.reader := by
  have hreader := (push_aside c bytes).reader (Reader.of_takes h.staying).1
  exact ⟨h.of_quietly (push_quietly c bytes) (hreader ▸ h.staying), hreader⟩

theorem pushAll_of_able (messages : List Message) (h : c.Able options) :
    (c.pushAll messages).history.queued = c.history.queued ++ messages.map Message.encode ∧
      (c.pushAll messages).Able options ∧ (c.pushAll messages).reader = c.reader := by
  induction messages generalizing c with
  | nil => exact ⟨(List.append_nil _).symm, h, rfl⟩
  | cons m later ih =>
    obtain ⟨hable, hreader⟩ := h.push m.encode
    obtain ⟨hqueued, hable', hreader'⟩ := ih hable
    refine ⟨?_, hable', hreader'.trans hreader⟩
    change ((c.push m.encode).2.pushAll later).history.queued = _
    rw [hqueued, (push_of_able h m.encode).2, List.append_assoc]
    rfl

/-! ## The callback's replies -/

theorem queued_react {a : Arrival} {r : Reaction} (h : c.Able options) (hr : c.reader = .calling a)
    (hcloses : r.closes = false) (hpanic : r.panic = none) :
    (c.react r).history.queued = c.history.queued ++ r.replies.map Message.encode := by
  obtain ⟨hqueued, -, hreader⟩ := pushAll_of_able r.replies h
  have hs : (c.pushAll r.replies).step (.reader .comeBack) =
      some { c.pushAll r.replies with reader := .reading } := by
    simp only [step, stepReader, hreader, hr]
  simp only [react, hcloses, hpanic, Bool.false_eq_true, if_false, hs, Option.getD_some]
  exact hqueued

/-- An open connection whose reader waits for frames, all of which go to the callback. -/
structure Listens (options : ConnectionOptions) (c : Connection) : Prop extends Able options c where
  reading : c.reader = .reading
  hasCallback : c.hasCallback = true
  unasked : c.books.Unasked

/-- A frame that comes in without requests is handed to the callback. -/
theorem Listens.dispatch (h : c.Listens options) (m : Message) :
    ∃ d, c.run [.reader (.arrive m), .reader .dispatch] = some d ∧ d.Able options ∧
      d.reader = .calling ⟨c.history.arrivals.length, m⟩ ∧
      d.history.queued = c.history.queued := by
  have harrive : c.step (.reader (.arrive m)) = some (c.arrive m) := by
    simp only [step, stepReader, h.reading]
  have hwait : c.waiting? m.id = none := by
    rw [waiting?, show c.pending = [] from h.unasked.pending]
    rfl
  have hreader : (c.arrive m).reader = .claimed ⟨c.history.arrivals.length, m⟩ none := by
    rw [← hwait]
    rfl
  have hdispatch : (c.arrive m).step (.reader .dispatch) =
      some ((c.arrive m).dispatchUnclaimed ⟨c.history.arrivals.length, m⟩) := by
    simp only [step, stepReader, hreader]
  have hexpired : m.id ∉ (c.arrive m).expired := by
    rw [show (c.arrive m).expired = [] from h.unasked.expired]
    exact List.not_mem_nil
  have hcall : (c.arrive m).hasCallback = true := h.hasCallback
  have hd : (c.arrive m).dispatchUnclaimed ⟨c.history.arrivals.length, m⟩ =
      { c.arrive m with
        reader := .calling ⟨c.history.arrivals.length, m⟩
        history := { (c.arrive m).history with
          unasked := (c.arrive m).history.unasked ++ [⟨c.history.arrivals.length, m⟩] } } := by
    simp only [dispatchUnclaimed, if_neg hexpired, hcall, if_true]
  have hrun : c.run [.reader (.arrive m), .reader .dispatch] =
      some ((c.arrive m).dispatchUnclaimed ⟨c.history.arrivals.length, m⟩) := by
    rw [run_cons, harrive, Option.bind_some, run_cons, hdispatch]
    rfl
  rw [hd] at hrun
  exact ⟨_, hrun, ⟨reachable_of_run h.reachable hrun, h.notYet, h.working, rfl⟩, rfl, rfl⟩

/-- What a quiet callback writes back on a frame that comes in. -/
theorem Listens.queued_receive {f : Callback} (h : c.Listens options) (hf : f.IsQuiet)
    (m : Message) : (c.receive (some f) m).history.queued =
      c.history.queued ++ (f m).replies.map Message.encode := by
  obtain ⟨d, hrun, hable, hcalling, hqueued⟩ := h.dispatch m
  simp only [receive, hrun, hcalling]
  rw [queued_settle, queued_react hable hcalling (hf m).1 (hf m).2, hqueued]

/-- The reader goes on listening behind a frame. -/
theorem Listens.receive {f : Callback} (h : c.Listens options) (hf : f.IsQuiet) (m : Message) :
    (c.receive (some f) m).Listens options := by
  have hcall : c.hasCallback = (some f).isSome := h.hasCallback
  obtain ⟨u, hs, hd, hreading⟩ :=
    receive_quietly h.reading hcall (by rintro _ ⟨⟩; exact hf) m
  obtain ⟨-, ⟨m', hm, hu⟩ | ⟨_, hno, -⟩⟩ := @taken_cases c u (.ok m) hs
  · cases hm
    have hable : u.Able options := by
      rw [hu]
      exact ⟨hu ▸ reachable_of_step h.reachable hs, h.notYet, h.working, rfl⟩
    obtain ⟨events, hevents⟩ := (received h.reading hcall m).run
    obtain ⟨_, -, -, hstarted⟩ := run_handed hevents
    refine ⟨hable.of_quietly hd (by rw [hreading]; rfl), hreading, ?_, ?_⟩
    · exact (hstarted (by rw [h.reading]; rfl)).2.trans h.hasCallback
    · exact hd.unasked (h.unasked.step (fun _ he => by cases he) (step_books hs))
  · cases hno

/-- Without requests, a read loop with a quiet callback queues the replies to all frames. -/
theorem Listens.queued_serveFrom {f : Callback} (h : c.Listens options) (hf : f.IsQuiet)
    (s : Frame.Source) : (c.serveFrom (some f) s).1.history.queued =
      c.history.queued ++ ((Frame.readAll s).1.flatMap fun m => (f m).replies).map Message.encode := by
  fun_induction serveFrom (some f) c s with
  | case1 c s e t hread =>
    have hs : c.step (.reader (.stop e)) = some { c with reader := .leaving (c.verdict e) } := by
      simp only [step, stepReader, h.reading]
    rw [endReading, hs, Option.getD_some, queued_settle, Frame.readAll_nil hread]
    exact (List.append_nil _).symm
  | case2 c s m t hread d hover =>
    have hreading : d.reader = .reading := (h.receive hf m).reading
    simp [hreading, Reader.isOver] at hover
  | case3 c s m t hread d hover ih =>
    rw [ih (h.receive hf m), h.queued_receive hf m, Frame.readAll_cons hread]
    simp

/-- **Without requests, what the callback writes back on all frames is queued in their order.** -/
theorem queued_serve {f : Callback} (h : c.Able options) (hr : c.reader = .notStarted)
    (hu : c.books.Unasked) (hf : f.IsQuiet) (s : Frame.Source) :
    (c.serve (some f) s).1.history.queued = c.history.queued ++
      ((Frame.readAll s).1.flatMap fun m => (f m).replies).map Message.encode := by
  have hs : c.step (.reader (.start true)) =
      some { c with reader := .reading, hasCallback := true } := by
    simp only [step, stepReader, hr]
  have hlistens : Listens options { c with reader := .reading, hasCallback := true } :=
    ⟨⟨reachable_of_step h.reachable hs, h.notYet, h.working, rfl⟩, rfl, rfl,
      hu.step (fun _ he => by cases he) (step_books hs)⟩
  rw [serve, startReading, Option.isSome_some, hs, Option.getD_some]
  exact hlistens.queued_serveFrom hf s

end Connection
end ClusterLink
