import ClusterLink.Proofs.Connection.Quiet
/-!
# The read loop is exact

A reader that nobody disturbs dispatches the frames of its source and no others, reports what is
wrong with the bytes behind them, and closes the connection. It does so on every source, whatever the
requests, writes and the writer of the connection do meanwhile, and it comes to its end by its own
steps and those of the closing.

Results:
* `ReadLoop.inevitable_exact`: the reader comes to its end, however it and the closing take turns.
* `Connection.serve_is_exact`: what serving comes to on every source, and so does every interleaving.
-/
namespace ClusterLink

namespace Reader

/-- How far the reader has to go, once it is through with its frames. -/
def stage : Reader → Nat
  | notStarted => 4
  | reading | claimed .. | calling _ => 3
  | leaving _ => 2
  | closing _ => 1
  | ended _ | panicked _ => 0

/-- How far the reader has to go with the frame that it took. -/
def errand : Reader → Nat
  | claimed .. => 2
  | calling _ => 1
  | _ => 0

theorem Turn.lowers {e : ReaderEvent} {r r' : Reader} (h : Turn e r r') :
    r'.stage < r.stage ∨ (r'.stage = r.stage ∧ r'.errand < r.errand) := by
  cases h <;> simp [stage, errand]

end Reader

/-- Whether an event is a step of the reader, whose callback is not given up, or of the closing. -/
def ReadLoopEvent.advances : ReadLoopEvent → Bool
  | read => true
  | connection (.reader (.panic _)) => false
  | connection (.reader _) => true
  | connection (.closing _) => true
  | connection _ => false

namespace ReadLoop

variable {options : ConnectionOptions} {l l' : ReadLoop} {e : ReadLoopEvent}
  {frames : List Message} {rest : Bytes} {cause : FrameError} {c : Connection}

/-! ## The reader comes to its end -/

/-- What is left to do: first the reader's stages, then what its source holds, then the frame that it
has taken, and the closing last. -/
def ranks : List (ReadLoop → Nat) :=
  [fun l => l.connection.reader.stage, fun l => l.source.weight,
    fun l => l.connection.reader.errand, fun l => l.connection.closing.toGo]

theorem lowers (he : e.advances = true) (h : l.step e = some l') : Machine.Lowers ranks l' l := by
  obtain ⟨taken, rfl, hread, hs⟩ | ⟨x, rfl, hnone, hs, hsource⟩ := step_cases h
  · obtain ⟨hr, ⟨m, rfl, hd⟩ | ⟨cause, rfl, hd⟩⟩ := Connection.taken_cases hs
    · refine .cons ?_ (.head (Frame.weight_read_ok hread))
      simp only [hd, hr]
      rfl
    · refine .head ?_
      simp only [hd, hr]
      exact Nat.lt_succ_self 2
  · cases x with
    | reader x =>
      obtain hlt | ⟨heq, hlt⟩ := (Connection.stepReader_turn hnone hs).lowers
      · exact .head hlt
      · exact .cons heq (.cons (congrArg Frame.Source.weight hsource) (.head hlt))
    | closing x =>
      obtain ⟨hreader, -⟩ | ⟨_, hx, -⟩ := Connection.step_reader hs
      · refine .cons (congrArg Reader.stage hreader) (.cons (congrArg Frame.Source.weight hsource)
          (.cons (congrArg Reader.errand hreader) (.head ?_)))
        exact (Connection.toGo_stepClosing hs).2
      · cases hx
    | _ => cases he

/-- A step by which nobody else closes leaves it to the reader to close. -/
theorem closer_of_step {d : Connection} {x : ConnectionEvent} (hc : c.Undisturbed)
    (hx : x.closer? = none ∨ x.closer? = some .reader) (h : c.step x = some d) (closer : Closer)
    (hd : d.closing.closer? = some closer) : closer = .reader := by
  rw [(Connection.step_closing h).closer?_eq] at hd
  cases hk : c.closing.closer? with
  | some k =>
    rw [hk, Option.some_or] at hd
    exact hc.closer closer (hk.trans hd)
  | none =>
    rw [hk, Option.none_or] at hd
    obtain hnone | hreader := hx
    · rw [hnone] at hd
      cases hd
    · rw [hreader] at hd
      cases hd
      rfl

/-- Neither the reader nor the closing disturbs the reader. -/
theorem undisturbed_of_advances (hl : l.connection.Undisturbed) (he : e.advances = true)
    (h : l.step e = some l') : l'.connection.Undisturbed := by
  obtain ⟨taken, rfl, -, hs⟩ | ⟨x, rfl, hnone, hs, -⟩ := step_cases h
  · refine ⟨closer_of_step hl (Or.inl (by cases taken <;> rfl)) hs, fun cause hpanicked => ?_⟩
    obtain ⟨-, ⟨m, -, hd⟩ | ⟨cause', -, hd⟩⟩ := Connection.taken_cases hs <;>
      rw [hd] at hpanicked <;> cases hpanicked
  · cases x with
    | reader x =>
      have hx : (ConnectionEvent.reader x).closer? = none ∨
          (ConnectionEvent.reader x).closer? = some .reader := by
        cases x <;> simp [ConnectionEvent.closer?]
      refine ⟨closer_of_step hl hx hs, fun cause hpanicked => ?_⟩
      have hturn := Connection.stepReader_turn hnone hs
      rw [hpanicked] at hturn
      obtain rfl := hturn.of_panicked
      cases he
    | closing x =>
      refine ⟨closer_of_step hl (Or.inl rfl) hs, ?_⟩
      obtain ⟨hreader, -⟩ | ⟨_, hx, -⟩ := Connection.step_reader hs
      · rw [hreader]
        exact hl.reader
      · cases hx
    | _ => cases he

/-- Where neither the reader nor the closing can go on, the reader is at its end. -/
theorem ended_of_stuck (hc : l.connection.ReaderCloses) (hl : l.connection.Undisturbed)
    (hstuck : ∀ e : ReadLoopEvent, e.advances = true → l.step e = none) :
    ∃ result, l.connection.reader = .ended result := by
  have hreader {x : ReaderEvent} (hx : (ConnectionEvent.reader x).taken? = none)
      (he : (ReadLoopEvent.connection (.reader x)).advances = true) :
      l.connection.stepReader x = none := by
    have hnone := hstuck (.connection (.reader x)) he
    rw [step_connection hx] at hnone
    exact Option.map_eq_none_iff.1 hnone
  cases hr : l.connection.reader with
  | ended result => exact ⟨result, rfl⟩
  | panicked cause => exact absurd hr (hl.reader cause)
  | notStarted =>
    have hnone := hreader (x := .start false) rfl rfl
    simp only [Connection.stepReader, hr] at hnone
    cases hnone
  | reading =>
    have hnone := hstuck .read rfl
    simp only [step, Option.map_eq_none_iff, Connection.step] at hnone
    cases htaken : (Frame.read l.source).1 <;>
      simp only [htaken, ReaderEvent.ofTaken, Connection.stepReader, hr] at hnone <;> cases hnone
  | claimed a slot =>
    have hnone := hreader (x := .dispatch) rfl rfl
    cases slot <;> simp only [Connection.stepReader, hr] at hnone <;> cases hnone
  | calling a =>
    have hnone := hreader (x := .comeBack) rfl rfl
    simp only [Connection.stepReader, hr] at hnone
    cases hnone
  | leaving result =>
    have hnone := hreader (x := .close) rfl rfl
    simp only [Connection.stepReader, hr] at hnone
    cases hnone
  | closing result =>
    have hover : l.connection.closing.isOver = true := by
      by_contra hnot
      have hclosed : l.connection.isClosed = true := by
        rw [Connection.isClosed_eq, hc.closing result hr]
        rfl
      obtain ⟨x, d, hx⟩ := Connection.exists_closing_step hclosed (Bool.eq_false_iff.2 hnot)
      have hnone := hstuck (.connection (.closing x)) rfl
      rw [step_connection rfl, show l.connection.step (.closing x) = some d from hx] at hnone
      cases hnone
    have hnone := hreader (x := .leave) rfl rfl
    simp only [Connection.stepReader, hr, hover, if_true] at hnone
    cases hnone

/-- **A reader that nobody disturbs comes to the end of its source, however it and whoever closes the
connection take turns.** -/
theorem inevitable_exact (hc : (Connection.machine options).Reachable c)
    (hr : c.reader = .notStarted) (h : Reads options frames rest cause l)
    (hl : l.connection.Undisturbed) {events : List ConnectionEvent}
    (hrun : c.run events = some l.connection) :
    (machine l).Inevitable (fun e => e.advances = true)
      (fun l' => Connection.Exact frames cause c l'.connection) l := by
  refine @Machine.inevitable_of_lowers _ _ (machine l) _ _
    (fun l => Reads options frames rest cause l ∧ l.connection.Undisturbed ∧
      ∃ events, c.run events = some l.connection) ranks ?_ ?_ l ⟨h, hl, events, hrun⟩
  · rintro u e v ⟨hu, hundisturbed, first, hfirst⟩ he hs
    have hs' : u.run [e] = some v := by rw [run_cons, show u.step e = some v from hs]; rfl
    obtain ⟨later, hlater⟩ := exists_run hs'
    exact ⟨⟨hu.step hs, undisturbed_of_advances hundisturbed he hs, _,
      Connection.run_append hfirst hlater⟩, lowers he hs⟩
  · rintro u ⟨hu, hundisturbed, done, hdone⟩ hstuck
    obtain ⟨result, hended⟩ :=
      ended_of_stuck (Connection.readerCloses hu.reachable) hundisturbed hstuck
    exact exact_of_ended hc hr hu hundisturbed hdone hended

end ReadLoop

namespace Connection

variable {options : ConnectionOptions} {c : Connection} {callback : Option Callback}
  {s : Frame.Source}

/-! ## Any source -/

/-- An open connection that nobody reads yet, and whose writer is at work. -/
theorem unharmed_of_open (hr : c.reader = .notStarted) (hopen : c.isClosed = false)
    (hwork : c.writer.IsAtWork) : c.Unharmed where
  closer closer hcloser := by
    rw [isClosed_eq, hcloser] at hopen
    cases hopen
  reader cause hpanicked := by
    rw [hr] at hpanicked
    cases hpanicked
  working _ := hwork

/-- A read loop with a quiet callback comes to its end, and nobody disturbs it. -/
theorem ended_serve (hc : (machine options).Reachable c) (hr : c.reader = .notStarted)
    (hl : (c.serve callback s).1.Undisturbed) :
    ∃ result, (c.serve callback s).1.reader = .ended result := by
  have hover := (served hc hr callback s).finished
  cases hreader : (c.serve callback s).1.reader with
  | ended result => exact ⟨result, rfl⟩
  | panicked cause => exact absurd hreader (hl.reader cause)
  | _ => rw [hreader] at hover; cases hover

end Connection

/-- A read loop dispatches some frames and no others, and then stops for some cause, whatever goes on
besides. -/
structure ReadLoop.ReadsExactly (start : ReadLoop) (frames : List Message) (cause : FrameError) :
    Prop where
  /-- By serving an open connection with a callback that neither closes it nor is given up. -/
  serve : ∀ callback : Option Callback, start.connection.isClosed = false →
    start.connection.writer.IsAtWork → (∀ f, callback = some f → f.IsQuiet) →
    Connection.Exact frames cause start.connection
      (start.connection.serve callback start.source).1
  /-- In every interleaving the reader has taken the first of the frames. -/
  taken : ∀ events l, start.run events = some l → l.connection.history.arrivals <+: frames
  /-- If it is at its end and nobody has disturbed it, it has taken all of them. -/
  finished : ∀ events l result, start.run events = some l → l.connection.Undisturbed →
    l.connection.reader = .ended result → Connection.Exact frames cause start.connection l.connection
  /-- It comes to its end however it and the closing take turns. -/
  inevitable : ∀ events l, start.run events = some l → l.connection.Undisturbed →
    (ReadLoop.machine l).Inevitable (fun e => e.advances = true)
      (fun l' => Connection.Exact frames cause start.connection l'.connection) l

theorem ReadLoop.readsExactly {options : ConnectionOptions} {c : Connection} {s : Frame.Source}
    {frames : List Message} {rest : Bytes} {cause : FrameError}
    (hc : (Connection.machine options).Reachable c) (hr : c.reader = .notStarted) (hs : s.Flows)
    (h : Frame.Framing s.failure? s.arriving frames rest cause) :
    (ReadLoop.mk c s).ReadsExactly frames cause := by
  have hreads := reads_start hc hr hs h
  constructor
  · intro callback hopen hwork hquiet
    obtain ⟨events, hevents, hrun⟩ := Connection.exists_run_serve hr hquiet s
    have hunharmed := Connection.unharmed_of_run (Connection.unharmed_of_open hr hopen hwork)
      (fun e he => e.disturbs_of_isQuiet (hevents e he)) hrun
    obtain ⟨events', hrun'⟩ := exists_run hrun
    obtain ⟨result, hended⟩ := Connection.ended_serve hc hr hunharmed.toUndisturbed
    exact exact_of_ended hc hr (hreads.of_run hrun) hunharmed.toUndisturbed hrun' hended
  · exact fun events l hrun => (hreads.of_run hrun).taken
  · intro events l result hrun hl hended
    obtain ⟨events', hrun'⟩ := exists_run hrun
    exact exact_of_ended hc hr (hreads.of_run hrun) hl hrun' hended
  · intro events l hrun hl
    obtain ⟨events', hrun'⟩ := exists_run hrun
    exact inevitable_exact hc hr (hreads.of_run hrun) hl hrun'

namespace Connection

/-- **The read loop is exact on every source.** The source gives at least a byte at a time, is
interrupted at any time, and in the end comes to the end of the stream or fails.

What arrives from it is a run of whole frames of an allowed size, no longer one stands at the front,
and a rest with a fault. If the fault is an end between two frames, or a failure that means that the
peer is gone, even within a frame, the read loop has nothing to report, and otherwise the fault.

The read loop of every connection that nobody has read dispatches exactly these frames, each of them
once and in their order, comes to its end and leaves the connection closed. -/
theorem serve_is_exact (options : ConnectionOptions) (s : Frame.Source) (hs : s.Flows) :
    (∃ frames rest cause, Frame.Framing s.failure? s.arriving frames rest cause) ∧
    ∀ frames rest cause, Frame.Framing s.failure? s.arriving frames rest cause →
      (∀ others tail, (∀ m ∈ others, Frame.Whole m) →
        s.arriving = (others.map Message.encode).flatten ++ tail → others <+: frames) ∧
      (cause.outcome = .ok () ↔
        (rest = [] ∧ s.failure? = none) ∨ ∃ e, cause = .io e ∧ e.kind.isDisconnect = true) ∧
      ∀ c, (machine options).Reachable c → c.reader = .notStarted →
        (ReadLoop.mk c s).ReadsExactly frames cause := by
  refine ⟨Frame.exists_framing _ _, fun frames rest cause h => ⟨fun others tail => h.longest hs, ?_,
    fun c hc hr => ReadLoop.readsExactly hc hr hs h⟩⟩
  rw [FrameError.outcome_eq_ok_iff]
  exact h.fault.isDisconnect_iff

/-! ### A torn header, and a peer that is gone within a body -/

private def probe : Message := .bare (.ofNat 1) .ping

private def note : Message := ⟨.ofNat 2, .select, [7, 8], by decide⟩

private def signalled : IoError := { kind := .interrupted, message := "interrupted" }

private def reset : IoError := { kind := .connectionReset, message := "connection reset" }

/-- Two frames and three bytes, in pieces of at most twenty bytes. -/
private def tornSource : Frame.Source where
  upcoming :=
    let all := probe.encode ++ note.encode ++ [1, 2, 3]
    [.failure signalled, .data (all.take 5), .failure signalled, .data (all.drop 5)]
  chunk := some 20

/-- One frame and a part of another, behind which the peer is gone. -/
private def resetSource : Frame.Source where
  current := probe.encode ++ note.header.encode ++ [7]
  upcoming := [.failure signalled, .failure reset]

private theorem torn_framing :
    Frame.Framing tornSource.failure? tornSource.arriving [probe, note] [1, 2, 3]
      (.header (.length 3)) where
  whole := by decide
  eq_append := by decide +kernel
  fault := .header (by decide) (by decide)

private theorem reset_framing :
    Frame.Framing resetSource.failure? resetSource.arriving [probe] (note.header.encode ++ [7])
      (.io reset) where
  whole := by decide
  eq_append := by decide +kernel
  fault := .body (by decide) (by decide)

private def echo : Callback := fun m => { replies := [m] }

/-- A request is made while the reader waits. The second frame is the answer to it. -/
private def interleaved : List ReadLoopEvent :=
  [.connection (.reader (.start true)), .connection (.send note),
    .connection (.request 0 .register), .connection (.request 0 .reach),
    .connection (.request 0 .queue), .connection (.writer .fetch)]

private def underway : ReadLoop :=
  ((ReadLoop.mk (new {}) tornSource).run interleaved).getD ⟨new {}, tornSource⟩

private theorem run_interleaved :
    (ReadLoop.mk (new {}) tornSource).run interleaved = some underway := by
  rfl

theorem a_torn_header_is_reported_and_a_reset_is_not :
    ((new {}).serve (some echo) tornSource).1.reader =
        .ended (.error (.frame (.header (.length 3)))) ∧
      ((new {}).serve (some echo) tornSource).1.history.arrivals = [probe, note] ∧
      ((new {}).serve none resetSource).1.reader = .ended (.ok ()) ∧
      ((new {}).serve none resetSource).1.history.arrivals = [probe] ∧
      ∃ l, (ReadLoop.mk (new {}) tornSource).run interleaved = some l ∧
        (ReadLoop.machine l).Inevitable (fun e => e.advances = true)
          (fun l' => l'.connection.history.arrivals = [probe, note]) l := by
  have htorn := (serve_is_exact {} tornSource (by decide)).2 _ _ _ torn_framing
  have hreset := (serve_is_exact {} resetSource (by decide)).2 _ _ _ reset_framing
  have hecho : ∀ f, some echo = some f → Callback.IsQuiet f := by
    rintro _ ⟨⟩ m
    exact ⟨rfl, rfl⟩
  have hserved := (htorn.2.2 (new {}) .start rfl).serve (some echo) rfl trivial hecho
  have hserved' := (hreset.2.2 (new {}) .start rfl).serve none rfl trivial (by simp)
  refine ⟨hserved.result, hserved.arrivals, hserved'.result, hserved'.arrivals, _, run_interleaved, ?_⟩
  have hopen : (new {}).Unharmed := unharmed_of_open rfl rfl trivial
  have hunharmed := unharmed_of_run (l := ⟨new {}, tornSource⟩) hopen (by decide) run_interleaved
  exact ((htorn.2.2 (new {}) .start rfl).inevitable _ _ run_interleaved
    hunharmed.toUndisturbed).mono fun _ h => h.arrivals

end Connection
end ClusterLink
