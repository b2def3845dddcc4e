import ClusterLink.Proofs.Client.Pruning
import ClusterLink.Proofs.Connection.Serving
import ClusterLink.Proofs.Frame.RoundTrip
/-!
# Open connections that nobody reads

The read loop closes the connection behind its last frame, whatever ends the frames. A callback that
is given up takes the reader along, past that closing: the connection stays open until its caller or
its writer closes it, and nobody reads it. Its requests wait in vain, and a pool goes on lending it.

Results:
* `Connection.deaf_of_run`: nothing is answered on a connection whose reader is over.
* `Connection.serve_of_panic`: a read loop whose callback is given up on the first frame.
* `Connection.open_iff_given_up`: what a reader that is over leaves behind.
-/
namespace ClusterLink

namespace Books

variable {isOpen : Bool} {b b' : Books} {e : ConnectionEvent}

/-- Only what the reader has in its hand is put into a slot. -/
theorem Step.delivered_eq (hs : b.Step isOpen e b') (hh : b.hand = none) :
    b'.delivered = b.delivered := by
  cases hs with
  | withdraw => exact delivered_withdraw ..
  | giveUp => exact delivered_giveUp ..
  | deliver hsome => rw [hh] at hsome; cases hsome
  | _ => rfl

end Books

namespace Connection

variable {options : ConnectionOptions} {c d : Connection} {e : ConnectionEvent}
  {events : List ConnectionEvent}

/-! ## Without a reader -/

theorem hand_of_isOver (h : c.reader.isOver = true) : c.books.hand = none := by
  cases hr : c.reader <;> simp_all [books, Reader.hand, Reader.isOver]

/-- What comes of a connection whose reader is over. -/
structure Deaf (c d : Connection) : Prop where
  reader : d.reader = c.reader
  arrivals : d.history.arrivals = c.history.arrivals
  /-- A request gets no response but the one that is in its slot already. -/
  answered : ∀ (t : Ticket) a, d.result? t = some (.ok a) →
    ∃ r, c.requests[t]? = some r ∧ r.slot = .filled a

theorem kept_of_isOver (ho : c.reader.isOver = true) (h : c.run events = some d) :
    d.reader = c.reader ∧ d.history.arrivals = c.history.arrivals ∧
      d.history.delivered = c.history.delivered := by
  refine kept_of_run (P := fun u => u.reader = c.reader ∧
    u.history.arrivals = c.history.arrivals ∧ u.history.delivered = c.history.delivered)
    (fun u e v hu hs => ?_) ⟨rfl, rfl, rfl⟩ h
  obtain ⟨hreader, harrivals, hdelivered⟩ := hu
  have hover : u.reader.isOver = true := by rw [hreader]; exact ho
  have hstep := step_books hs
  refine ⟨(reader_of_isOver hover hs).trans hreader, ?_,
    (hstep.delivered_eq (hand_of_isOver hover)).trans hdelivered⟩
  rcases hstep.arrivals_cases with heq | ⟨m, rfl, -, -⟩
  · exact heq.trans harrivals
  · rw [step, stepReader_of_isOver hover] at hs
    cases hs

theorem deaf_of_run (hc : (machine options).Reachable c) (ho : c.reader.isOver = true)
    (h : c.run events = some d) : Deaf c d := by
  obtain ⟨hreader, harrivals, hdelivered⟩ := kept_of_isOver ho h
  refine ⟨hreader, harrivals, fun t a hresult => ?_⟩
  have hd := coherent (reachable_of_run hc h)
  obtain ⟨r, hr, hover⟩ := Option.bind_eq_some_iff.1 hresult
  have hfilled := hd.answered t r a hr (Request.stage_of_result hover)
  have hmem := (hd.filled t r a hr hfilled).1
  change (t, a) ∈ d.history.delivered at hmem
  rw [hdelivered] at hmem
  exact (coherent hc).delivered t a hmem

/-! ## Turned away -/

/-- A write fails at once if the queue cannot be got hold of any more. -/
theorem write_of_detached (hq : c.closing.hasQueue = false) (bytes : Bytes) :
    ∃ d, c.write bytes = some (.error .closed, d) := by
  have hrefuses : c.refusesFrames = true := by rw [refusesFrames, hq]; rfl
  rw [write_eq, if_pos hrefuses]
  exact ⟨_, rfl⟩

/-- A request comes back at once if the connection is closed. -/
theorem request_of_isClosed (h : c.isClosed = true) (m : Message) :
    (c.request m).2.result? (c.request m).1 = some (.error .closed) := by
  have hget : (c.send m).requests[c.requests.length]? =
      some { message := m, stage := .ended (.error .closed) } := by
    simp [send, h]
  have hattend : (c.send m).attend c.requests.length = c.send m := by
    simp only [attend, requestSteps, hget, Option.bind_some, Request.next?, Option.bind_none]
  simp only [request, hattend, result?, hget, Option.bind_some, Request.result?]

/-! ## What is left behind -/

/-- What a reader that is over leaves behind after some events. -/
structure LeftBehind (events : List ConnectionEvent) (c : Connection) : Prop where
  /-- The connection is open exactly if the callback was given up and nobody else has closed it. -/
  open_iff : c.isClosed = false ↔ (∃ cause, c.reader = .panicked cause) ∧
    .close ∉ events ∧ .writer .close ∉ events
  /-- A reader that was the first to close has given up the queue and shut down the socket. -/
  shutDown : (∃ result, c.reader = .ended result) → .close ∉ events → .writer .close ∉ events →
    c.closing.hasQueue = false ∧ c.closing.isOver = true
  /-- On a closed connection every request made from now on comes back without a response. -/
  turnedAway : c.isClosed = true → (∀ later d, c.run later = some d → Shut c d) ∧
    ∀ m, (c.request m).2.result? (c.request m).1 = some (.error .closed)
  /-- Every write fails once the queue cannot be got hold of. -/
  refused : c.closing.hasQueue = false → ∀ bytes, ∃ d, c.write bytes = some (.error .closed, d)
  /-- No frame comes in any more, whether the connection is closed or not. -/
  deaf : ∀ later d, c.run later = some d → Deaf c d
  dropped : ∀ (closed : ConnectionId → Bool) id, closed id = c.isClosed →
    (ConnectionPool.Drops closed id ↔ c.isClosed = true)

/-- If neither the caller nor the writer closes, nobody but the reader does. -/
theorem closer_eq_reader (hrun : (new options).run events = some c) (hcaller : .close ∉ events)
    (hwriter : .writer .close ∉ events) {closer : Closer}
    (h : c.closing.closer? = some closer) : closer = .reader := by
  rw [closer?_of_run hrun] at h
  obtain ⟨e, he, hcloser⟩ := List.exists_of_findSome?_eq_some h
  cases e with
  | close => exact absurd he hcaller
  | writer e => cases e <;> first | exact absurd he hwriter | cases hcloser
  | reader e => cases e <;> cases hcloser; rfl
  | _ => cases hcloser

theorem not_mem_of_open (hrun : (new options).run events = some c) (h : c.isClosed = false)
    (he : e.closer?.isSome = true) : e ∉ events := by
  intro hmem
  rw [isClosed_eq, closer?_of_run hrun] at h
  have hnone : events.findSome? ConnectionEvent.closer? = none := by
    simpa [new, Closing.closer?] using h
  rw [List.findSome?_eq_none_iff.1 hnone e hmem] at he
  cases he

theorem isClosed_eq_false_iff (hrun : (new options).run events = some c)
    (hover : c.reader.isOver = true) : c.isClosed = false ↔
      (∃ cause, c.reader = .panicked cause) ∧ .close ∉ events ∧ .writer .close ∉ events := by
  have hreach : (machine options).Reachable c := reachable_of_run .start hrun
  have hkeeps := readerCloses hreach
  constructor
  · intro hopen
    refine ⟨?_, not_mem_of_open hrun hopen rfl, not_mem_of_open hrun hopen rfl⟩
    cases hr : c.reader with
    | panicked cause => exact ⟨cause, rfl⟩
    | ended result =>
      rw [isClosed_eq] at hopen
      rcases hkeeps.ended result hr with hdone | ⟨closer, -, hcloser⟩
      · cases hk : c.closing <;> simp_all [Closing.isOver, Closing.closer?]
      · rw [hcloser] at hopen
        cases hopen
    | _ => rw [hr] at hover; cases hover
  · rintro ⟨⟨cause, hpanicked⟩, hcaller, hwriter⟩
    have hnot := hkeeps.before (by rw [hpanicked]; rfl)
    rw [isClosed_eq]
    cases hcloser : c.closing.closer? with
    | none => rfl
    | some closer =>
      rw [closer_eq_reader hrun hcaller hwriter hcloser] at hcloser
      exact absurd hcloser hnot

theorem leftBehind (hrun : (new options).run events = some c) (hover : c.reader.isOver = true) :
    LeftBehind events c := by
  have hreach : (machine options).Reachable c := reachable_of_run .start hrun
  refine ⟨isClosed_eq_false_iff hrun hover, ?_, fun hclosed => ⟨fun later d => shut_of_run hclosed,
    request_of_isClosed hclosed⟩, write_of_detached, fun later d => deaf_of_run hreach hover, ?_⟩
  · intro hended hcaller hwriter
    obtain ⟨result, hresult⟩ := hended
    rcases (readerCloses hreach).ended result hresult with hdone | ⟨closer, hne, hcloser⟩
    · exact ⟨Closing.hasQueue_of_isOver hdone, hdone⟩
    · exact absurd (closer_eq_reader hrun hcaller hwriter hcloser) hne
  · intro closed id hid
    rw [ConnectionPool.drops_iff, hid]

/-- **A reader leaves the connection closed, unless its callback was given up.** -/
theorem open_iff_given_up (options : ConnectionOptions) :
    (∀ (callback : Option Callback) c s, (machine options).Reachable c → c.reader = .notStarted →
      Served callback c (c.serve callback s).1) ∧
    ∀ events c, (new options).run events = some c → c.reader.isOver = true →
      LeftBehind events c :=
  ⟨fun callback _ s hc h => served hc h callback s, fun _ _ => leftBehind⟩

private def refusedRequest : Message := .bare (.ofNat 3) .select

/-- The peer is gone, and the reader closes the connection. -/
private def disconnect : List ConnectionEvent :=
  [.reader (.start false), .reader (.stop .ended), .reader .close, .closing .announce,
    .closing .detach, .closing (.shutDown (.ok ())), .reader .leave]

theorem a_peer_that_is_gone_leaves_nothing_open :
    ((new {}).serve none {}).1.reader.isOver = true ∧
    ∃ c, (new {}).run disconnect = some c ∧ c.isClosed = true ∧ c.closing.isOver = true ∧
      (c.request refusedRequest).2.result? (c.request refusedRequest).1 = some (.error .closed) ∧
      (∃ d, c.write refusedRequest.encode = some (.error .closed, d)) ∧
      ConnectionPool.Drops (fun _ => c.isClosed) ⟨0⟩ := by
  obtain ⟨hserved, hleft⟩ := open_iff_given_up {}
  have hrun : (new {}).run disconnect = some (((new {}).run disconnect).getD (new {})) := by rfl
  have h := hleft _ _ hrun (by rfl)
  obtain ⟨hqueue, hdone⟩ := h.shutDown ⟨.ok (), by rfl⟩ (by simp [disconnect]) (by simp [disconnect])
  have hended : ¬ (((new {}).run disconnect).getD (new {})).isClosed = false := by
    intro hopen
    obtain ⟨⟨cause, hpanicked⟩, -⟩ := h.open_iff.1 hopen
    cases hpanicked
  have hclosed := eq_true_of_ne_false hended
  refine ⟨(hserved none (new {}) {} .start rfl).finished, _, hrun, hclosed, hdone, ?_, ?_, ?_⟩
  · exact (h.turnedAway hclosed).2 refusedRequest
  · exact h.refused hqueue _
  · exact (h.dropped (fun _ => _) ⟨0⟩ rfl).2 hclosed

/-! ## A callback that is given up -/

/-- A read loop whose callback is given up on the first frame: the frame is taken, and nothing is
closed. -/
theorem serve_of_panic (options : ConnectionOptions) {f : Callback} {s t : Frame.Source}
    {m : Message} {cause : Panic} (hread : Frame.read s = (.ok m, t)) (hf : f m = { panic := some cause }) :
    (new options).serve (some f) s =
      ({ new options with
          hasCallback := true
          reader := .panicked cause
          history := { arrivals := [m], unasked := [⟨0, m⟩] } }, t) := by
  have hreceive : ((new options).startReading true).receive (some f) m =
      { new options with
          hasCallback := true
          reader := .panicked cause
          history := { arrivals := [m], unasked := [⟨0, m⟩] } } := by
    have hrun : ((new options).startReading true).run [.reader (.arrive m), .reader .dispatch] =
        some { new options with
          hasCallback := true
          reader := .calling ⟨0, m⟩
          history := { arrivals := [m], unasked := [⟨0, m⟩] } } := rfl
    simp only [receive, hrun, hf]
    rfl
  rw [serve, serveFrom]
  split
  · next e u hu =>
    rw [hread] at hu
    cases hu
  · next m' u hu =>
    rw [hread] at hu
    cases hu
    simp only [Option.isSome_some, hreceive, Reader.isOver, if_true]

private def unaskedFrame : Message := .bare (.ofNat 1) .ping

private def lostRequest : Message := .bare (.ofNat 2) .select

/-- A request that is queued and whose time runs out. -/
private def lostRequestEvents : List ConnectionEvent :=
  [.send lostRequest, .request 0 .register, .request 0 .reach, .request 0 .queue,
    .request 0 .timeOut, .request 0 .giveUp]

/-- One frame comes in and the callback is given up on it: the read loop is over, the connection is
open, a request that is made then waits until its time is up, and pools do not drop the connection. -/
theorem a_callback_given_up_leaves_nobody_to_read :
    ∃ (callback : Option Callback) (s : Frame.Source),
      ((new {}).serve callback s).1.reader.isOver = true ∧
      ((new {}).serve callback s).1.isClosed = false ∧
      (∃ d, ((new {}).serve callback s).1.run lostRequestEvents = some d ∧
        d.result? 0 = some (.error (.timeout lostRequest.id defaultTimeout))) ∧
      ¬ ConnectionPool.Drops (fun _ => ((new {}).serve callback s).1.isClosed) ⟨0⟩ := by
  have hsteady : (Frame.Source.ofBytes unaskedFrame.encode).Steady := by
    constructor <;> simp [Frame.Source.ofBytes]
  obtain ⟨hread, -, -⟩ := Frame.read_of_readable hsteady (m := unaskedFrame) (by decide)
    (List.append_nil _).symm
  have hserve := serve_of_panic {} (f := fun _ => { panic := some .other })
    (Prod.ext hread rfl : Frame.read _ = (.ok unaskedFrame.normalized, _)) rfl
  refine ⟨some fun _ => { panic := some .other }, .ofBytes unaskedFrame.encode, ?_⟩
  rw [hserve]
  refine ⟨rfl, rfl, ⟨_, rfl, rfl⟩, ?_⟩
  rw [ConnectionPool.drops_iff]
  decide

end Connection

end ClusterLink
