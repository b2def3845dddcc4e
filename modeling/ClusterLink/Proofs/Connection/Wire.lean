import ClusterLink.Proofs.Connection.Serving
import ClusterLink.Proofs.Machine.Inevitable
/-!
# What the socket takes

Any number of callers put frames into the queue while one writer puts them on the socket, and
anybody may close the connection at any time. The writer begins a frame after it is through with the
one before, and stops for good at the first failure or when it finds the connection closed. So the
socket takes whole frames in the order in which they were queued, and part of a further one only if
writing this one failed.

Results:
* `Connection.step_sending`: what a step, of whomever, does to what is sent.
* `Outgoing.Sent.step`: the socket has taken whole frames and what is written of one more.
* `Connection.wire_of_stops`: nothing is written after a failure, or once the closing was seen.
* `Connection.inevitable_ended`: a writer that stops closes the connection, whoever else does.
* `Connection.frames_are_whole_and_in_order`: all of it for any run.
-/
namespace ClusterLink

namespace Writer

/-- Whether the writer writes no more. -/
def isStopped : Writer → Bool
  | failed _ | leaving _ | closing _ | ended _ => true
  | idle | holding _ | writing .. => false

/-- Whether the writer has called to close. -/
def hasClosed : Writer → Bool
  | closing _ | ended _ => true
  | _ => false

end Writer

/-- Whether a step is a failure of the socket, or the writer's look at a connection that is
`closed`. -/
def ConnectionEvent.stops (closed : Bool) : ConnectionEvent → Bool
  | writer (.fail _) | writer (.failFlush _) => true
  | writer .look | writer .lookAfterFailure => closed
  | _ => false

/-- Whether a step is the writer's, or one of the closing. -/
def ConnectionEvent.winds : ConnectionEvent → Bool
  | writer _ | closing _ => true
  | _ => false

namespace Outgoing

variable {o p : Outgoing}

/-- What a step can do to what is sent, if the connection is `closed` before it or not. -/
inductive Step (closed : Bool) (o : Outgoing) : ConnectionEvent → Outgoing → Prop
  | rest {e : ConnectionEvent} (h : ∀ x, e ≠ .writer x) : Step closed o e o
  | queue {e : ConnectionEvent} (frame : Bytes) (h : ∀ x, e ≠ .writer x) :
    Step closed o e (o.enqueue frame)
  | write {x : WriterEvent} {p : Outgoing} (h : o.WriterStep x p)
      (hopen : x = .look → closed = false) : Step closed o (.writer x) p
  | runDry (hw : o.writer = .idle) :
    Step closed o (.writer .runDry) { o with writer := .leaving (.ok ()) }
  | discard {frame : Bytes} (hw : o.writer = .holding frame) (hclosed : closed = true) :
    Step closed o (.writer .look) { o with writer := .leaving (.ok ()) }
  | fail {frame : Bytes} {done : Nat} {cause : IoError} (hw : o.writer = .writing frame done)
      (hlt : done < frame.length) :
    Step closed o (.writer (.fail cause)) { o with writer := .failed cause }
  | failFlush {frame : Bytes} {cause : IoError} (hw : o.writer = .writing frame frame.length) :
    Step closed o (.writer (.failFlush cause)) { o with writer := .failed cause }
  | wind {x : WriterEvent} {w : Writer} (hw : o.writer.isStopped = true)
      (hw' : w.isStopped = true) : Step closed o (.writer x) { o with writer := w }

/-- What is left of the frames that were queued, and what the socket has of the first of them. -/
inductive Stage (torn : Bytes → Nat → Prop) (queue : List Bytes) :
    Writer → List Bytes → Bytes → Prop
  | idle : Stage torn queue .idle queue []
  | holding (frame : Bytes) : Stage torn queue (.holding frame) (frame :: queue) []
  | writing {frame : Bytes} {done : Nat} (hle : done ≤ frame.length) :
    Stage torn queue (.writing frame done) (frame :: queue) (frame.take done)
  | whole {w : Writer} {rest : List Bytes} (hw : w.isStopped = true) : Stage torn queue w rest []
  | torn {w : Writer} {frame : Bytes} {done : Nat} {later : List Bytes} (hw : w.isStopped = true)
      (hlt : done < frame.length) (ht : torn frame done) :
    Stage torn queue w (frame :: later) (frame.take done)

/-- Whether the socket took the frames that were `sent` and a `part` of the next one. -/
structure Sent (torn : Bytes → Nat → Prop) (o : Outgoing) (sent rest : List Bytes) (part : Bytes) :
    Prop where
  queued : o.queued = sent ++ rest
  wire : o.wire = sent.flatten ++ part
  stage : Stage torn o.queue o.writer rest part

variable {torn torn' : Bytes → Nat → Prop} {queue sent rest : List Bytes} {frame part : Bytes}
  {done : Nat} {w : Writer} {closed : Bool} {e : ConnectionEvent}

namespace Stage

theorem of_idle (h : Stage torn queue .idle rest part) : rest = queue ∧ part = [] := by
  cases h with
  | idle => exact ⟨rfl, rfl⟩
  | whole hw => cases hw
  | torn hw => cases hw

theorem of_holding (h : Stage torn queue (.holding frame) rest part) :
    rest = frame :: queue ∧ part = [] := by
  cases h with
  | holding => exact ⟨rfl, rfl⟩
  | whole hw => cases hw
  | torn hw => cases hw

theorem of_writing (h : Stage torn queue (.writing frame done) rest part) :
    rest = frame :: queue ∧ part = frame.take done ∧ done ≤ frame.length := by
  cases h with
  | writing hle => exact ⟨rfl, rfl, hle⟩
  | whole hw => cases hw
  | torn hw => cases hw

theorem mono (h : Stage torn queue w rest part)
    (hsub : ∀ frame done, torn frame done → torn' frame done) : Stage torn' queue w rest part := by
  cases h with
  | idle => exact .idle
  | holding frame => exact .holding frame
  | writing hle => exact .writing hle
  | whole hw => exact .whole hw
  | torn hw hlt ht => exact .torn hw hlt (hsub _ _ ht)

theorem enqueue (h : Stage torn queue w rest part) (frame : Bytes) :
    Stage torn (queue ++ [frame]) w (rest ++ [frame]) part := by
  cases h with
  | idle => exact .idle
  | holding _ => exact .holding _
  | writing hle => exact .writing hle
  | whole hw => exact .whole hw
  | torn hw hlt ht => exact .torn hw hlt ht

/-- A writer that has stopped leaves the socket with what it has. -/
theorem wind {v : Writer} (h : Stage torn queue w rest part) (hw : w.isStopped = true)
    (hv : v.isStopped = true) : Stage torn queue v rest part := by
  cases h with
  | idle => cases hw
  | holding _ => cases hw
  | writing _ => cases hw
  | whole _ => exact .whole hv
  | torn _ hlt ht => exact .torn hv hlt ht

end Stage

/-- A frame that was written to its end is one of those that were sent. -/
theorem Sent.through (h : o.Sent torn sent rest part) (hw : o.writer = .writing frame frame.length) :
    o.queued = (sent ++ [frame]) ++ o.queue ∧ o.wire = (sent ++ [frame]).flatten ++ [] := by
  obtain ⟨hqueued, hwire, hstage⟩ := h
  rw [hw] at hstage
  obtain ⟨rfl, rfl, -⟩ := hstage.of_writing
  constructor
  · rw [hqueued, List.append_assoc]
    rfl
  · rw [hwire, List.take_length, List.flatten_append, List.flatten_singleton, List.append_nil]

/-- What the writer puts on the socket is what the frames have next. -/
theorem Sent.writerStep {x : WriterEvent} (h : o.Sent torn sent rest part) (hs : o.WriterStep x p) :
    ∃ sent rest part, p.Sent torn sent rest part := by
  obtain ⟨hqueued, hwire, hstage⟩ := id h
  cases hs with
  | @fetch frame later hw hq =>
    rw [hw] at hstage
    obtain ⟨rfl, rfl⟩ := hstage.of_idle
    rw [hq] at hqueued
    exact ⟨sent, _, [], hqueued, hwire, .holding frame⟩
  | @look frame hw =>
    rw [hw] at hstage
    obtain ⟨rfl, rfl⟩ := hstage.of_holding
    exact ⟨sent, _, _, hqueued, hwire, .writing (Nat.zero_le _)⟩
  | @accept frame done n hw hn hle =>
    rw [hw] at hstage
    obtain ⟨rfl, rfl, -⟩ := hstage.of_writing
    refine ⟨sent, _, _, hqueued, ?_, .writing hle⟩
    rw [hwire, List.append_assoc, ← List.take_add]
  | interrupted => exact ⟨_, _, _, hqueued, hwire, hstage⟩
  | flush hw =>
    obtain ⟨hqueued, hwire⟩ := h.through hw
    exact ⟨_, _, [], hqueued, hwire, .idle⟩

/-- The socket has whole frames and a part of one more after every step, and what it has of the one
is left behind only by a failure. -/
theorem Sent.step (h : o.Sent torn sent rest part) (hs : o.Step closed e p)
    (hsub : ∀ frame done, torn frame done → torn' frame done)
    (htorn : ∀ cause frame done, e = .writer (.fail cause) → o.writer = .writing frame done →
      torn' frame done) : ∃ sent rest part, p.Sent torn' sent rest part := by
  replace h : o.Sent torn' sent rest part := ⟨h.queued, h.wire, h.stage.mono hsub⟩
  obtain ⟨hqueued, hwire, hstage⟩ := id h
  cases hs with
  | rest _ => exact ⟨_, _, _, hqueued, hwire, hstage⟩
  | queue frame _ =>
    refine ⟨sent, rest ++ [frame], part, ?_, hwire, hstage.enqueue frame⟩
    rw [← List.append_assoc, ← hqueued]
    rfl
  | write hs _ => exact h.writerStep hs
  | runDry hw =>
    rw [hw] at hstage
    obtain ⟨rfl, rfl⟩ := hstage.of_idle
    exact ⟨sent, _, [], hqueued, hwire, .whole rfl⟩
  | discard hw _ =>
    rw [hw] at hstage
    obtain ⟨rfl, rfl⟩ := hstage.of_holding
    exact ⟨sent, _, [], hqueued, hwire, .whole rfl⟩
  | @fail frame done cause hw hlt =>
    rw [hw] at hstage
    obtain ⟨rfl, rfl, -⟩ := hstage.of_writing
    exact ⟨sent, _, _, hqueued, hwire, .torn rfl hlt (htorn cause frame done rfl hw)⟩
  | failFlush hw =>
    obtain ⟨hqueued, hwire⟩ := h.through hw
    exact ⟨_, _, [], hqueued, hwire, .whole rfl⟩
  | wind hw hw' => exact ⟨_, _, _, hqueued, hwire, hstage.wind hw hw'⟩

/-- The part of a frame is one that the writer is writing, or failed to write. -/
theorem Sent.of_part (h : o.Sent torn sent rest part) :
    part = [] ∨ ∃ frame later, rest = frame :: later ∧ part <+: frame ∧
      (o.writer = .writing frame part.length ∨ part ≠ frame ∧ torn frame part.length) := by
  have hstage := h.stage
  generalize o.writer = w at hstage ⊢
  cases hstage with
  | idle => exact Or.inl rfl
  | holding _ => exact Or.inl rfl
  | whole _ => exact Or.inl rfl
  | @writing frame done hle =>
    have hlen : (frame.take done).length = done := List.length_take_of_le hle
    exact Or.inr ⟨frame, _, rfl, List.take_prefix .., Or.inl (by rw [hlen])⟩
  | @torn w frame done later _ hlt ht =>
    have hlen : (frame.take done).length = done := List.length_take_of_le (Nat.le_of_lt hlt)
    refine Or.inr ⟨frame, later, rfl, List.take_prefix .., Or.inr ⟨fun heq => ?_, by rwa [hlen]⟩⟩
    rw [heq] at hlen
    omega

/-- A writer that has stopped puts nothing on the socket. -/
theorem Step.of_stopped (hs : o.Step closed e p) (h : o.writer.isStopped = true) :
    p.wire = o.wire ∧ p.writer.isStopped = true := by
  cases hs with
  | rest _ => exact ⟨rfl, h⟩
  | queue _ _ => exact ⟨rfl, h⟩
  | write hs _ =>
    cases hs with
    | interrupted => exact ⟨rfl, h⟩
    | fetch hw | look hw | accept hw | flush hw => rw [hw] at h; cases h
  | wind _ hw' => exact ⟨rfl, hw'⟩
  | _ => exact ⟨rfl, rfl⟩

/-- A failure of the socket stops the writer, as does its look at a connection that is closed. -/
theorem Step.of_stops (hs : o.Step closed e p) (h : e.stops closed = true) :
    p.wire = o.wire ∧ p.writer.isStopped = true := by
  cases hs with
  | rest hx =>
    cases e with
    | writer x => exact absurd rfl (hx x)
    | _ => cases h
  | queue _ hx =>
    cases e with
    | writer x => exact absurd rfl (hx x)
    | _ => cases h
  | write hs hopen =>
    cases hs with
    | look => rw [hopen rfl] at h; cases h
    | _ => cases h
  | wind _ hw' => exact ⟨rfl, hw'⟩
  | _ => exact ⟨rfl, rfl⟩

end Outgoing

namespace Connection

variable {options : ConnectionOptions} {c d : Connection} {e : ConnectionEvent}
  {events : List ConnectionEvent}

/-- What a step of the writer does to what is sent. -/
theorem stepWriter_sending {x : WriterEvent} (h : c.stepWriter x = some d) :
    c.outgoing.Step c.isClosed (.writer x) d.outgoing := by
  unfold stepWriter at h
  split at h
  · next hw =>
    split at h
    · next hq => cases h; exact .write (.fetch hw hq) fun hx => by cases hx
    · cases h
  · next hw =>
    split at h <;> cases h
    exact .runDry hw
  · next frame hw =>
    cases h
    cases hclosed : c.isClosed with
    | true => exact .discard hw rfl
    | false => exact .write (.look hw) fun _ => rfl
  · next hw =>
    split at h <;> cases h
    next hn => exact .write (.accept hw hn.1 hn.2) fun hx => by cases hx
  · split at h <;> cases h
    exact .write .interrupted fun hx => by cases hx
  · next hw =>
    split at h <;> cases h
    next hlt => exact .fail hw hlt.1
  · next hw =>
    split at h <;> cases h
    next hall => subst hall; exact .write (.flush hw) fun hx => by cases hx
  · next hw =>
    split at h <;> cases h
    next hall => subst hall; exact .failFlush hw
  · next hw =>
    cases h
    exact .wind (by rw [outgoing, hw]; rfl) rfl
  · next hw =>
    cases h
    have hsame : ∀ w, ({ c.beginClose .writer with writer := w } : Connection).outgoing =
        { c.outgoing with writer := w } := by
      intro w
      unfold beginClose
      split <;> rfl
    rw [hsame]
    refine .wind (by rw [outgoing, hw]; rfl) ?_
    cases c.isClosed <;> rfl
  · next hw =>
    split at h <;> cases h
    exact .wind (by rw [outgoing, hw]; rfl) rfl
  · cases h

/-- Queueing puts one frame into the queue, if anything. -/
theorem queue_sending {t : Ticket} {r : Request} (h : c.stepRequest t r .queue = some d) :
    d.outgoing = c.outgoing ∨ d.outgoing = c.outgoing.enqueue r.message.encode := by
  cases hs : r.stage with
  | holding =>
    simp only [stepRequest, hs] at h
    split at h
    · cases h; exact Or.inl rfl
    · split at h
      · cases h; exact Or.inr rfl
      · cases h
  | _ => simp only [stepRequest, hs] at h; cases h

theorem stepWrite_sending {n : Nat} {w : Write} {x : WriteEvent} (h : c.stepWrite n w x = some d) :
    d.outgoing = c.outgoing ∨ d.outgoing = c.outgoing.enqueue w.bytes := by
  unfold stepWrite at h
  split at h
  · cases h; exact Or.inl rfl
  · split at h
    · cases h; exact Or.inl rfl
    · split at h
      · cases h; exact Or.inr rfl
      · cases h
  · cases h

/-- What a step, of whomever, does to what is sent. -/
theorem step_sending (h : c.step e = some d) : c.outgoing.Step c.isClosed e d.outgoing := by
  have hkept : (∀ x, e ≠ .writer x) →
      (d.outgoing = c.outgoing ∨ ∃ frame, d.outgoing = c.outgoing.enqueue frame) →
      c.outgoing.Step c.isClosed e d.outgoing := by
    rintro he (heq | ⟨frame, heq⟩)
    · exact heq ▸ .rest he
    · exact heq ▸ .queue frame he
  cases e with
  | writer x => exact stepWriter_sending h
  | send m => cases h; exact .rest fun x hx => by cases hx
  | write bytes => cases h; exact .rest fun x hx => by cases hx
  | request t x =>
    obtain ⟨r, -, hs⟩ := Option.bind_eq_some_iff.1 h
    refine hkept (fun x hx => by cases hx) ?_
    by_cases hx : x = .queue
    · exact (queue_sending (hx ▸ hs)).imp id fun heq => ⟨_, heq⟩
    · exact Or.inl (outgoing_stepRequest hs hx)
  | writing n x =>
    obtain ⟨w, -, hs⟩ := Option.bind_eq_some_iff.1 h
    exact hkept (fun x hx => by cases hx) ((stepWrite_sending hs).imp id fun heq => ⟨_, heq⟩)
  | close =>
    cases h
    refine hkept (fun x hx => by cases hx) (Or.inl ?_)
    unfold beginClose
    split <;> rfl
  | closing x =>
    refine hkept (fun x hx => by cases hx) (Or.inl ?_)
    change c.stepClosing x = some d at h
    unfold stepClosing at h
    split at h <;> cases h <;> rfl
  | reader x => exact hkept (fun x hx => by cases hx) (Or.inl (outgoing_stepReader h))

/-! ## What a run has sent -/

/-- Whether a run failed while the writer was writing a frame of which the socket had taken `done`
bytes. -/
def FailedWriting (options : ConnectionOptions) (events : List ConnectionEvent) (frame : Bytes)
    (done : Nat) : Prop :=
  ∃ before cause after u, events = before ++ .writer (.fail cause) :: after ∧
    (new options).run before = some u ∧ u.writer = .writing frame done

theorem sent_of_run (hrun : (new options).run events = some c) :
    ∃ sent rest part, c.outgoing.Sent (FailedWriting options events) sent rest part := by
  refine @Machine.run_induction _ _ (machine options) (fun events c =>
    ∃ sent rest part, c.outgoing.Sent (FailedWriting options events) sent rest part) _ _
    ⟨[], [], [], rfl, rfl, .idle⟩ (fun events u e v hdone ih hs => ?_) _ hrun
  obtain ⟨sent, rest, part, h⟩ := ih
  refine h.step (step_sending hs) ?_ ?_
  · rintro frame done ⟨before, cause, after, u, rfl, hu, hw⟩
    exact ⟨before, cause, after ++ [e], u, by simp, hu, hw⟩
  · rintro cause frame done rfl hw
    exact ⟨events, cause, [], u, rfl, hdone, hw⟩

/-! ## After the writer has stopped -/

theorem wire_of_stopped (h : c.writer.isStopped = true) (hrun : c.run events = some d) :
    d.wire = c.wire :=
  (kept_of_run (P := fun u => u.wire = c.wire ∧ u.writer.isStopped = true)
    (fun _ _ _ hu hs =>
      have hstopped := (step_sending hs).of_stopped hu.2
      ⟨hstopped.1.trans hu.1, hstopped.2⟩) ⟨rfl, h⟩ hrun).1

/-- Once the writer has stopped, or has a reason to, the socket gets no more. -/
theorem wire_of_stops (hs : c.step e = some d) (h : e.stops c.isClosed = true) {z : Connection}
    (hrun : d.run events = some z) : z.wire = c.wire := by
  obtain ⟨hwire, hstopped⟩ := (step_sending hs).of_stops h
  exact (wire_of_stopped hstopped hrun).trans hwire

/-! ## The writer closes the connection -/

theorem isClosed_beginClose (c : Connection) (closer : Closer) :
    (c.beginClose closer).isClosed = true := by
  unfold beginClose
  split
  · next hclosed => exact hclosed
  · rfl

/-- A connection whose writer has called to close is closed. -/
theorem isClosed_of_hasClosed (h : (machine options).Reachable c) :
    c.writer.hasClosed = true → c.isClosed = true := by
  refine @Machine.invariant _ _ (machine options)
    (fun c => c.writer.hasClosed = true → c.isClosed = true) (fun hw => by cases hw)
    (fun c e d ih hs hd => ?_) c h
  by_cases hc : c.writer.hasClosed = true
  · exact (step_closing hs).isFlagged_of (ih hc)
  rcases step_writer hs with heq | ⟨x, rfl, hx⟩
  · rw [heq] at hd
    exact absurd hd hc
  · unfold stepWriter at hx
    split at hx
    · split at hx <;> cases hx; cases hd
    · split at hx <;> cases hx; cases hd
    · cases hx
      change (if c.isClosed then Writer.leaving (.ok ()) else _).hasClosed = true at hd
      split at hd <;> cases hd
    · split at hx <;> cases hx; cases hd
    · split at hx <;> cases hx; exact absurd hd hc
    · split at hx <;> cases hx; cases hd
    · split at hx <;> cases hx; cases hd
    · split at hx <;> cases hx; cases hd
    · cases hx; cases hd
    · cases hx; exact isClosed_beginClose c .writer
    · next hw => exact absurd (by rw [hw]; rfl) hc
    · cases hx

/-- Every step of a writer that has stopped brings it closer to its end. -/
theorem toGo_of_stopped {x : WriterEvent} (h : c.stepWriter x = some d)
    (hw : c.writer.isStopped = true) : d.writer.toGo < c.writer.toGo := by
  unfold stepWriter at h
  split at h
  case h_9 hf => cases h; rw [hf]; exact Nat.lt_succ_self 2
  case h_10 hl =>
    cases h
    rw [hl]
    cases hc : c.isClosed <;> simp [Writer.toGo]
  case h_11 hk => split at h <;> cases h; rw [hk]; exact Nat.one_pos
  case h_12 => cases h
  all_goals
    next hs => rw [hs] at hw; cases hw

theorem toGo_stepClosing {x : ClosingEvent} (h : c.stepClosing x = some d) :
    d.writer = c.writer ∧ d.closing.toGo < c.closing.toGo := by
  unfold stepClosing at h
  split at h
  · next hk => cases h; exact ⟨rfl, by rw [hk]; exact Nat.lt_succ_self 2⟩
  · next hk => cases h; exact ⟨rfl, by rw [hk]; exact Nat.lt_succ_self 1⟩
  · next hk => cases h; exact ⟨rfl, by rw [hk]; exact Nat.one_pos⟩
  · cases h

/-- Closing that has begun can go on until it is over. -/
theorem exists_closing_step (h : c.isClosed = true) (ho : c.closing.isOver = false) :
    ∃ x d, c.stepClosing x = some d := by
  cases hk : c.closing with
  | notYet => rw [isClosed, hk] at h; cases h
  | flagged k => exact ⟨.announce, _, by simp only [stepClosing, hk]; rfl⟩
  | announced k => exact ⟨.detach, _, by simp only [stepClosing, hk]; rfl⟩
  | detached k => exact ⟨.shutDown (.ok ()), _, by simp only [stepClosing, hk]; rfl⟩
  | settled k result => rw [hk] at ho; cases ho

/-- A writer that has stopped comes to its end, and the connection is shut down to its socket,
however the writer and whoever closes the connection take turns. -/
theorem inevitable_ended (h : (machine options).Reachable c) (hw : c.writer.isStopped = true) :
    (machine options).Inevitable (fun e => e.winds = true)
      (fun d => (∃ result, d.writer = .ended result) ∧ d.closing.isOver = true) c := by
  refine @Machine.inevitable_of_lowers _ _ (machine options) _ _
    (fun d => (machine options).Reachable d ∧ d.writer.isStopped = true)
    [fun d => d.writer.toGo, fun d => d.closing.toGo] ?_ ?_ c ⟨h, hw⟩
  · rintro u e v ⟨hu, hstopped⟩ he hs
    refine ⟨⟨hu.step hs, ((step_sending hs).of_stopped hstopped).2⟩, ?_⟩
    cases e with
    | writer x => exact .head (toGo_of_stopped hs hstopped)
    | closing x =>
      obtain ⟨hsame, hlt⟩ := toGo_stepClosing hs
      exact .cons (congrArg Writer.toGo hsame) (.head hlt)
    | _ => cases he
  · rintro u ⟨hu, hstopped⟩ hstuck
    have hstop : ∀ x, u.stepWriter x = none := fun x => hstuck (.writer x) rfl
    have hover : u.writer.hasClosed = true → u.closing.isOver = true := fun hclosed => by
      by_contra hnot
      obtain ⟨x, v, hx⟩ := exists_closing_step (isClosed_of_hasClosed hu hclosed)
        (Bool.eq_false_iff.2 hnot)
      exact absurd (hx.symm.trans (hstuck (.closing x) rfl)) (Option.some_ne_none v)
    cases hwr : u.writer with
    | ended result => exact ⟨⟨result, rfl⟩, hover (by rw [hwr]; rfl)⟩
    | failed cause =>
      have hnone := hstop .lookAfterFailure
      simp only [stepWriter, hwr] at hnone
      cases hnone
    | leaving result =>
      have hnone := hstop .close
      simp only [stepWriter, hwr] at hnone
      cases hnone
    | closing result =>
      have hnone := hstop .leave
      simp only [stepWriter, hwr, hover (by rw [hwr]; rfl), if_true] at hnone
      cases hnone
    | _ => rw [hwr] at hstopped; cases hstopped

/-! ## Any run -/

/-- **Whole frames, in the order in which they were queued.** Any number of callers queue any bytes,
the socket takes any number of bytes at a time, interrupts the writer or fails, and anybody closes
the connection at any time.

The socket has the first frames that were queued and a part of the next one. If it has a part, the
writer is writing that frame, or it has failed to and the part is not all of it. Nothing is written
after a failure, or after the writer has found the connection closed. A writer that has come to its
end leaves the connection closed, and one that has stopped comes there. -/
theorem frames_are_whole_and_in_order (hrun : (new options).run events = some c) :
    (∃ k part, c.wire = (c.history.queued.take k).flatten ++ part ∧
      (part = [] ∨ ∃ frame, c.history.queued[k]? = some frame ∧ part <+: frame ∧
        (c.writer = .writing frame part.length ∨
          part ≠ frame ∧ FailedWriting options events frame part.length))) ∧
    (∀ before e after u, events = before ++ e :: after → (new options).run before = some u →
      e.stops u.isClosed = true → c.wire = u.wire) ∧
    ((∃ result, c.writer = .ended result) → c.isClosed = true) ∧
    (c.writer.isStopped = true → (machine options).Inevitable (fun e => e.winds = true)
      (fun d => (∃ result, d.writer = .ended result) ∧ d.closing.isOver = true) c) := by
  have hreach : (machine options).Reachable c := reachable_of_run .start hrun
  refine ⟨?_, ?_, ?_, inevitable_ended hreach⟩
  · obtain ⟨sent, rest, part, h⟩ := sent_of_run hrun
    have hqueued : c.history.queued = sent ++ rest := h.queued
    refine ⟨sent.length, part, ?_, h.of_part.imp id ?_⟩
    · rw [hqueued, List.take_left]
      exact h.wire
    · rintro ⟨frame, later, rfl, hprefix, hwhy⟩
      refine ⟨frame, ?_, hprefix, hwhy⟩
      rw [hqueued, List.getElem?_append_right (Nat.le_refl _), Nat.sub_self]
      rfl
  · rintro before e after u rfl hu he
    obtain ⟨v, hs, hafter⟩ := split_of_run hrun hu
    exact wire_of_stops hs he hafter
  · rintro ⟨result, hw⟩
    exact isClosed_of_hasClosed hreach (by rw [hw]; rfl)

/-! ### The socket fails within the second frame -/

private def queues (n : Nat) (bytes : Bytes) : List ConnectionEvent :=
  [.write bytes, .writing n .reach, .writing n .queue]

private def brokenPipe : IoError := { kind := .brokenPipe, message := "broken pipe" }

/-- The first frame is taken in two pieces. A third frame comes too late, and a caller is closing the
connection when the writer is. -/
private def failing : List ConnectionEvent :=
  queues 0 [1, 2, 3] ++ queues 1 [4, 5] ++
    [WriterEvent.fetch, .look, .accept 2, .interrupted, .accept 1, .flush, .fetch, .look,
      .accept 1, .fail brokenPipe].map .writer ++ queues 2 [6] ++
    [.close, .writer .lookAfterFailure, .writer .close]

private def failed : Connection := ((new {}).run failing).getD (new {})

private theorem run_failing : (new {}).run failing = some failed := by
  have hsome : ((new {}).run failing).isSome = true := by decide +kernel
  obtain ⟨c, hc⟩ := Option.isSome_iff_exists.1 hsome
  rw [failed, hc, Option.getD_some]

/-- The peer has the first frame and half of the second, which is the one that could not be written,
and nothing of the third. -/
theorem a_torn_frame_is_the_last : failed.wire = [1, 2, 3, 4] ∧
    failed.history.queued = [[1, 2, 3], [4, 5], [6]] ∧ FailedWriting {} failing [4, 5] 1 ∧
    failed.isClosed = true := by
  have hwire : failed.wire = [1, 2, 3, 4] := by decide +kernel
  have hqueued : failed.history.queued = [[1, 2, 3], [4, 5], [6]] := by decide +kernel
  have hended : (match failed.writer with | .ended _ => true | _ => false) = true := by
    decide +kernel
  obtain ⟨⟨k, part, hsplit, hpart⟩, -, hclosed, -⟩ := frames_are_whole_and_in_order run_failing
  refine ⟨hwire, hqueued, ?_, ?_⟩
  · rw [hwire, hqueued] at hsplit
    rw [hqueued] at hpart
    match k with
    | 0 =>
      rcases hpart with rfl | ⟨frame, hframe, hprefix, -⟩
      · cases hsplit
      · cases hframe
        obtain rfl : [1, 2, 3, 4] = part := hsplit
        exact absurd hprefix (by decide)
    | 1 =>
      replace hsplit : [1, 2, 3] ++ [4] = [1, 2, 3] ++ part := hsplit
      obtain rfl := List.append_cancel_left hsplit
      rcases hpart with hnil | ⟨frame, hframe, -, hwriting | ⟨-, hfailed⟩⟩
      · cases hnil
      · rw [hwriting] at hended
        cases hended
      · cases hframe
        exact hfailed
    | 2 => cases hsplit
    | k + 3 => cases hsplit
  · refine hclosed ?_
    split at hended
    · next result hw => exact ⟨result, hw⟩
    · cases hended

end Connection
end ClusterLink
