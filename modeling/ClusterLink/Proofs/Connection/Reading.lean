import ClusterLink.Connection.Reading
import ClusterLink.Proofs.Connection.Ledger
import ClusterLink.Proofs.Connection.Wire
import ClusterLink.Proofs.Frame.Faults
/-!
# What a reader makes of its source

A reader takes the frames off its source one by one, whatever the others do meanwhile. What it has
taken and what the source still has are together the frames that the source had from the start. When
there is no further frame, the reader reports what is wrong with the rest, unless somebody else has
closed the connection before.

Results:
* `ReadLoop.Reads.step`: the frames that were taken and those that are left, in every interleaving.
* `Connection.Dispatched`: what the reader has done with the frames that it took.
* `ReadLoop.exact_of_ended`: what a reader that nobody disturbed has come to.
-/
namespace ClusterLink

/-- What a read loop comes to when the frames end on a connection that nobody has closed. -/
def FrameError.outcome (cause : FrameError) : Except ConnectionError Unit :=
  if cause.isDisconnect then .ok () else .error (.frame cause)

theorem FrameError.outcome_eq_ok_iff {cause : FrameError} :
    cause.outcome = .ok () ↔ cause.isDisconnect = true := by
  unfold FrameError.outcome
  cases cause.isDisconnect <;> simp

namespace Reader

/-- Whether the reader may take another frame. -/
def takes : Reader → Bool
  | notStarted | reading | claimed .. | calling _ => true
  | _ => false

/-- What the reader came to when there was no further frame. -/
def verdict? : Reader → Option (Except ConnectionError Unit)
  | leaving result | closing result | ended result => some result
  | _ => none

/-- What becomes of the reader by a step of its own that takes nothing off the socket. -/
inductive Turn : ReaderEvent → Reader → Reader → Prop
  | start (withCallback : Bool) : Turn (.start withCallback) notStarted reading
  | dispatch (a : Arrival) (slot : Option Ticket) : Turn .dispatch (claimed a slot) reading
  | call (a : Arrival) : Turn .dispatch (claimed a none) (calling a)
  | comeBack (a : Arrival) : Turn .comeBack (calling a) reading
  | panic (a : Arrival) (cause : Panic) : Turn (.panic cause) (calling a) (panicked cause)
  | close (result : Except ConnectionError Unit) : Turn .close (leaving result) (closing result)
  | find (result : Except ConnectionError Unit) : Turn .close (leaving result) (ended result)
  | leave (result : Except ConnectionError Unit) : Turn .leave (closing result) (ended result)

variable {e : ReaderEvent} {r r' : Reader}

theorem Turn.takes (h : Turn e r r') (ht : r'.takes = true) : r.takes = true := by
  cases h <;> first | rfl | cases ht

theorem Turn.verdict? (h : Turn e r r') {result : Except ConnectionError Unit}
    (hr : r'.verdict? = some result) : r.verdict? = some result := by
  cases h <;> exact hr

theorem Turn.of_panicked {cause : Panic} (h : Turn e r (panicked cause)) : e = .panic cause := by
  cases h
  rfl

end Reader

/-! ## The order of the frames -/

namespace Books

variable {isOpen : Bool} {b b' : Books} {e : ConnectionEvent}

/-- The numbers of the frames that nobody asked for, and of the one in the reader's hand. -/
def order (b : Books) : List Nat :=
  b.unasked.map Arrival.number ++ (b.hand.map fun h => h.1.number).toList

/-- The frames that nobody asked for are in the order in which they came in. -/
structure InOrder (b : Books) : Prop where
  pairwise : b.order.Pairwise (· < ·)
  arrived : ∀ n ∈ b.order, n < b.arrivals.length

theorem InOrder.of_sublist (h : b.InOrder) (horder : b'.order.Sublist b.order)
    (harrivals : b'.arrivals = b.arrivals) : b'.InOrder where
  pairwise := h.pairwise.sublist horder
  arrived n hn := harrivals ▸ h.arrived n (horder.subset hn)

theorem InOrder.step (h : b.InOrder) (hs : b.Step isOpen e b') : b'.InOrder := by
  cases hs with
  | aside => exact h
  | send => exact h.of_sublist (List.Sublist.refl _) rfl
  | move => exact h.of_sublist (List.Sublist.refl _) rfl
  | register => exact h.of_sublist (List.Sublist.refl _) rfl
  | withdraw => exact h.of_sublist (by simp [order, setStage, setRequest]) (by simp [setStage, setRequest])
  | giveUp => exact h.of_sublist (by simp [order]) (by simp)
  | @arrive m hh =>
    -- The frame that comes in has the next number.
    have hnew : (b.arrive m).order = b.order ++ [b.arrivals.length] := by
      simp [order, arrive, hh]
    have hlen : (b.arrive m).arrivals.length = b.arrivals.length + 1 := List.length_append
    constructor
    · rw [hnew]
      exact List.pairwise_append.2 ⟨h.pairwise, List.pairwise_singleton .., fun n hn k hk =>
        List.mem_singleton.1 hk ▸ h.arrived n hn⟩
    · intro n hn
      rw [hnew] at hn
      rw [hlen]
      rcases List.mem_append.1 hn with hold | hold
      · exact Nat.lt_succ_of_lt (h.arrived n hold)
      · exact Nat.lt_succ_of_le (Nat.le_of_eq (List.mem_singleton.1 hold))
  | deliver hh => exact h.of_sublist (by simp [order, setRequest]) rfl
  | orphan hh => exact h.of_sublist (by simp [order]) rfl
  | stray hh => exact h.of_sublist (by simp [order]) rfl
  | late hh => exact h.of_sublist (by simp [order]) rfl
  | pass hh => exact h.of_sublist (by simp [order, hh]) rfl

end Books

namespace Connection

variable {options : ConnectionOptions} {c d : Connection} {e : ConnectionEvent}

theorem reachable_of_step (hc : (machine options).Reachable c) (h : c.step e = some d) :
    (machine options).Reachable d :=
  hc.step (show (machine options).step c e = some d from h)

theorem inOrder (h : (machine options).Reachable c) : c.books.InOrder := by
  induction h with
  | start => exact ⟨.nil, fun n hn => by cases hn⟩
  | step _ hs ih => exact ih.step (step_books hs)

/-- A reader that has not been started has taken no frame. -/
theorem arrivals_of_notStarted (h : (machine options).Reachable c) (hr : c.reader = .notStarted) :
    c.history.arrivals = [] := by
  induction h with
  | start => rfl
  | @step c d e _ hs ih =>
    have hc : c.reader = .notStarted := by
      obtain ⟨_, hp⟩ := step_passes hs
      cases hc : c.reader with
      | notStarted => rfl
      | _ =>
        have hstarted := (hp.started (by rw [hc]; rfl)).1
        rw [hr] at hstarted
        cases hstarted
    rcases (step_books hs).arrivals_cases with heq | ⟨m, rfl, -, -⟩
    · exact heq.trans (ih hc)
    · change c.stepReader (.arrive m) = some d at hs
      simp [stepReader, hc] at hs

/-- Everything that a step of the reader can make of it without taking anything off the socket. -/
theorem stepReader_turn {e : ReaderEvent} (he : (ConnectionEvent.reader e).taken? = none)
    (h : c.stepReader e = some d) : Reader.Turn e c.reader d.reader := by
  unfold stepReader at h
  split at h
  case h_1 hr => cases h; rw [hr]; exact .start _
  case h_2 => cases he
  case h_3 hr => cases h; rw [hr]; exact .dispatch ..
  case h_4 a hr =>
    cases h
    rw [hr]
    unfold dispatchUnclaimed
    split
    · exact .dispatch a none
    · cases c.hasCallback
      · exact .dispatch a none
      · exact .call a
  case h_5 hr => cases h; rw [hr]; exact .comeBack _
  case h_6 hr => cases h; rw [hr]; exact .panic ..
  case h_7 => cases he
  case h_8 result hr =>
    cases h
    rw [hr]
    cases c.isClosed
    · exact .close result
    · exact .find result
  case h_9 hr => split at h <;> cases h; rw [hr]; exact .leave _
  case h_10 => cases h

/-- What the reader does with what it took off the socket. -/
theorem taken_cases {taken : Except FrameError Message}
    (h : c.step (.reader (.ofTaken taken)) = some d) : c.reader = .reading ∧
      ((∃ m, taken = .ok m ∧ d = c.arrive m) ∨
        ∃ cause, taken = .error cause ∧ d = { c with reader := .leaving (c.verdict cause) }) := by
  change c.stepReader (.ofTaken taken) = some d at h
  cases taken with
  | ok m =>
    cases hr : c.reader <;> simp only [ReaderEvent.ofTaken, stepReader, hr] at h <;> cases h
    exact ⟨rfl, Or.inl ⟨m, rfl, rfl⟩⟩
  | error cause =>
    cases hr : c.reader <;> simp only [ReaderEvent.ofTaken, stepReader, hr] at h <;> cases h
    exact ⟨rfl, Or.inr ⟨cause, rfl, rfl⟩⟩

end Connection

namespace ReadLoop

variable {l l' : ReadLoop} {e : ReadLoopEvent}

theorem step_connection {x : ConnectionEvent} (hx : x.taken? = none) :
    l.step (.connection x) = (l.connection.step x).map fun connection => { l with connection } := by
  simp [step, hx]

/-- Everything a step can be. -/
theorem step_cases (h : l.step e = some l') :
    (∃ taken, e = .read ∧ Frame.read l.source = (taken, l'.source) ∧
        l.connection.step (.reader (.ofTaken taken)) = some l'.connection) ∨
      ∃ e', e = .connection e' ∧ e'.taken? = none ∧ l.connection.step e' = some l'.connection ∧
        l'.source = l.source := by
  cases e with
  | read =>
    simp only [step] at h
    obtain ⟨d, hs, rfl⟩ := Option.map_eq_some_iff.1 h
    exact Or.inl ⟨_, rfl, rfl, hs⟩
  | connection e' =>
    cases he : e'.taken? with
    | some _ => simp [step, he] at h
    | none =>
      rw [step_connection he] at h
      obtain ⟨d, hs, rfl⟩ := Option.map_eq_some_iff.1 h
      exact Or.inr ⟨e', rfl, he, hs, rfl⟩

variable {options : ConnectionOptions} {frames : List Message} {rest : Bytes} {cause : FrameError}

/-! ## Frame by frame -/

/-- How far the reader has come with a source that had some `frames`, and a `rest` behind them for
some `cause`. -/
structure Reads (options : ConnectionOptions) (frames : List Message) (rest : Bytes)
    (cause : FrameError) (l : ReadLoop) : Prop where
  reachable : (Connection.machine options).Reachable l.connection
  taken : l.connection.history.arrivals <+: frames
  /-- The frames that were not taken are those of the source. -/
  left : l.connection.reader.takes = true → l.source.Flows ∧
    ∃ later, frames = l.connection.history.arrivals ++ later ∧
      Frame.Framing l.source.failure? l.source.arriving later rest cause
  /-- A reader that takes no more has taken all of them. It reports the cause, unless somebody else
  was first to close the connection. -/
  verdict : ∀ result, l.connection.reader.verdict? = some result →
    l.connection.history.arrivals = frames ∧ (result = cause.outcome ∨
      result = .ok () ∧ ∃ closer ≠ .reader, l.connection.closing.closer? = some closer)

theorem Reads.read {taken : Except FrameError Message} (h : Reads options frames rest cause l)
    (hread : Frame.read l.source = (taken, l'.source))
    (hs : l.connection.step (.reader (.ofTaken taken)) = some l'.connection) :
    Reads options frames rest cause l' := by
  have hreach : (Connection.machine options).Reachable l'.connection :=
    Connection.reachable_of_step h.reachable hs
  obtain ⟨hr, hd⟩ := Connection.taken_cases hs
  obtain ⟨hflows, later, hsplit, hframing⟩ := h.left (by rw [hr]; rfl)
  cases later with
  | nil =>
    -- What is left has no frame at the front.
    have hfault : Frame.Fault l.source.failure? l.source.arriving cause := by
      simpa [hframing.eq_append] using hframing.fault
    have htaken := Frame.read_of_fault hflows hfault
    rw [hread] at htaken
    obtain ⟨m, hok, -⟩ | ⟨cause', herror, hd⟩ := hd
    · rw [hok] at htaken
      cases htaken
    · rw [herror] at htaken
      cases htaken
      refine ⟨hreach, by rw [hd]; exact h.taken, fun ht => ?_, fun result hresult => ?_⟩
      · rw [hd] at ht
        cases ht
      · rw [hd] at hresult ⊢
        cases hresult
        refine ⟨by rw [hsplit, List.append_nil], ?_⟩
        cases hclosed : l.connection.isClosed with
        | false => exact Or.inl (by simp [Connection.verdict, hclosed, FrameError.outcome])
        | true =>
          rw [Connection.isClosed_eq] at hclosed
          obtain ⟨closer, hcloser⟩ := Option.isSome_iff_exists.1 hclosed
          have hne := (Connection.readerCloses h.reachable).before (by rw [hr]; rfl)
          have hother : closer ≠ .reader := fun heq => hne (heq ▸ hcloser)
          exact Or.inr ⟨by simp [Connection.verdict, Connection.isClosed_eq, hcloser], closer, hother,
            hcloser⟩
  | cons m later =>
    obtain ⟨hm, hlater⟩ := List.forall_mem_cons.1 hframing.whole
    have hfirst : l.source.arriving = m.encode ++ ((later.map Message.encode).flatten ++ rest) := by
      simpa using hframing.eq_append
    obtain ⟨t, ht, harr, hflows', hsame⟩ := Frame.read_of_whole hflows hm hfirst
    rw [hread] at ht
    cases ht
    obtain ⟨m', hok, hd⟩ | ⟨cause', herror, -⟩ := hd
    · cases hok
      have harrivals : l'.connection.history.arrivals = l.connection.history.arrivals ++ [m] := by
        rw [hd]
        rfl
      have hsplit' : frames = l'.connection.history.arrivals ++ later := by
        rw [hsplit, harrivals, List.append_assoc]
        rfl
      refine ⟨hreach, ⟨later, hsplit'.symm⟩, fun _ => ⟨hflows', later, hsplit', ?_⟩, ?_⟩
      · exact ⟨hlater, harr, hsame ▸ hframing.fault⟩
      · intro result hresult
        rw [hd] at hresult
        cases hresult
    · cases herror

theorem Reads.step (h : Reads options frames rest cause l) (hs : l.step e = some l') :
    Reads options frames rest cause l' := by
  rcases step_cases hs with ⟨taken, rfl, hread, hstep⟩ | ⟨e', rfl, hnone, hstep, hsource⟩
  · exact h.read hread hstep
  · have hreach := Connection.reachable_of_step h.reachable hstep
    have harrivals : l'.connection.history.arrivals = l.connection.history.arrivals := by
      rcases (Connection.step_books hstep).arrivals_cases with heq | ⟨m, rfl, -, -⟩
      · exact heq
      · cases hnone
    have hreader : (l'.connection.reader.takes = true → l.connection.reader.takes = true) ∧
        ∀ result, l'.connection.reader.verdict? = some result →
          l.connection.reader.verdict? = some result := by
      rcases Connection.step_reader hstep with ⟨heq, -⟩ | ⟨x, rfl, hx⟩
      · rw [heq]
        exact ⟨id, fun _ => id⟩
      · have hturn := Connection.stepReader_turn hnone hx
        exact ⟨hturn.takes, fun _ => hturn.verdict?⟩
    refine ⟨hreach, harrivals ▸ h.taken, fun htakes => ?_, fun result hresult => ?_⟩
    · rw [hsource, harrivals]
      exact h.left (hreader.1 htakes)
    · rw [harrivals]
      refine ⟨(h.verdict result (hreader.2 result hresult)).1, ?_⟩
      refine (h.verdict result (hreader.2 result hresult)).2.imp id ?_
      rintro ⟨hok, closer, hne, hcloser⟩
      refine ⟨hok, closer, hne, ?_⟩
      rw [(Connection.step_closing hstep).closer?_eq, hcloser, Option.some_or]

/-! ## Runs -/

/-- A run does not depend on where its machine would start. -/
theorem run_machine (start l : ReadLoop) (events : List ReadLoopEvent) :
    (machine start).run l events = l.run events := by
  have hsame : ∀ a b l : ReadLoop, (machine a).run l events = (machine b).run l events := by
    induction events with
    | nil => exact fun _ _ _ => rfl
    | cons e later ih =>
      intro a b l
      simp only [Machine.run_cons]
      exact congrArg _ (funext fun t => ih a b t)
  exact hsame start l l

theorem run_cons (l : ReadLoop) (e : ReadLoopEvent) (later : List ReadLoopEvent) :
    l.run (e :: later) = (l.step e).bind fun t => t.run later := by
  rw [run, Machine.run_cons]
  exact congrArg _ (funext fun t => run_machine l t later)

theorem run_append {z : ReadLoop} {first later : List ReadLoopEvent}
    (hfirst : l.run first = some l') (hlater : l'.run later = some z) :
    l.run (first ++ later) = some z := by
  rw [run, Machine.run_append, show (machine l).run l first = some l' from hfirst, Option.bind_some,
    run_machine, hlater]

/-- The connection goes through a run of its own. -/
theorem exists_run {events : List ReadLoopEvent} (h : l.run events = some l') :
    ∃ events', l.connection.run events' = some l'.connection := by
  induction events generalizing l with
  | nil =>
    cases h
    exact ⟨[], rfl⟩
  | cons e later ih =>
    rw [run_cons] at h
    obtain ⟨u, hs, hrun⟩ := Option.bind_eq_some_iff.1 h
    obtain ⟨events', hlater⟩ := ih hrun
    obtain ⟨taken, -, -, hstep⟩ | ⟨e', -, -, hstep, -⟩ := step_cases hs
    · exact ⟨_ :: events', by rw [Connection.run_cons, hstep]; exact hlater⟩
    · exact ⟨_ :: events', by rw [Connection.run_cons, hstep]; exact hlater⟩

/-- What each step of some kind keeps holds after a run of such steps. -/
theorem kept_of_run {P : ReadLoop → Prop} {Q : ReadLoopEvent → Prop}
    (hstep : ∀ l e l', Q e → P l → l.step e = some l' → P l') {events : List ReadLoopEvent}
    (hevents : ∀ e ∈ events, Q e) (hl : P l) (h : l.run events = some l') : P l' := by
  refine @Machine.run_induction _ _ (machine l) (fun events u => (∀ e ∈ events, Q e) → P u) l l'
    (fun _ => hl) (fun events u e v _ hu hs hall => ?_) events h hevents
  obtain ⟨hbefore, he⟩ := List.forall_mem_append.1 hall
  exact hstep u e v (he e (List.mem_singleton_self e)) (hu hbefore) hs

/-- **What the reader has taken and what is left are the frames of the source, whatever the others
do.** -/
theorem Reads.of_run (h : Reads options frames rest cause l) {events : List ReadLoopEvent}
    (hrun : l.run events = some l') : Reads options frames rest cause l' :=
  kept_of_run (Q := fun _ => True) (fun _ _ _ _ => Reads.step) (fun _ _ => trivial) h hrun

/-- Before the reader is started, all frames are left. -/
theorem reads_start {c : Connection} {s : Frame.Source} (hc : (Connection.machine options).Reachable c)
    (hr : c.reader = .notStarted) (hs : s.Flows)
    (h : Frame.Framing s.failure? s.arriving frames rest cause) :
    Reads options frames rest cause ⟨c, s⟩ := by
  have harrivals := Connection.arrivals_of_notStarted hc hr
  refine ⟨hc, by rw [harrivals]; exact List.nil_prefix, fun _ => ⟨hs, frames, ?_, h⟩,
    fun result hresult => ?_⟩
  · rw [harrivals, List.nil_append]
  · rw [hr] at hresult
    cases hresult

end ReadLoop

namespace Connection

variable {options : ConnectionOptions} {c d : Connection} {frames : List Message}
  {events : List ConnectionEvent}

/-! ## At the end of the source -/

/-- What a reader has done with all the frames that it took. -/
structure Dispatched (frames : List Message) (c d : Connection) : Prop where
  /-- It took these frames, in their order. -/
  arrivals : d.history.arrivals = frames
  /-- Each of them went to its request, or was dropped as late, or is one that nobody asked for, and
  none went two ways. -/
  placed : ∀ a, d.books.places a = if frames[a.number]? = some a.message then 1 else 0
  done : d.books.hand = none
  /-- The callback was handed those that nobody asked for, in the order in which they came in. -/
  handed : ∃ events, c.run events = some d ∧
    c.handed events = if d.hasCallback then d.history.unasked else []
  ordered : d.history.unasked.Pairwise fun a b => a.number < b.number

theorem dispatched_of_run (hc : (machine options).Reachable c) (hr : c.reader = .notStarted)
    (hrun : c.run events = some d) (hhand : d.reader.hand = none) :
    Dispatched d.history.arrivals c d := by
  have hd := reachable_of_run hc hrun
  have hunasked : c.history.unasked = [] := by
    -- A frame that nobody asked for would have come in.
    refine List.eq_nil_iff_forall_not_mem.2 fun a ha => ?_
    have harrived := (accounted hc).arrived_of_places (Books.places_pos_of_unasked ha)
    rw [show c.books.arrivals = [] from arrivals_of_notStarted hc hr] at harrived
    cases harrived
  obtain ⟨passed, hpassed, hhanded, -⟩ := run_handed hrun
  rw [hunasked, List.nil_append] at hpassed
  refine ⟨rfl, accounted hd, hhand, ⟨events, hrun, by rw [hhanded, hpassed]⟩, ?_⟩
  have hpair := (inOrder hd).pairwise
  have horder : d.books.order = d.history.unasked.map Arrival.number := by
    simp only [Books.order, show d.books.hand = none from hhand]
    exact List.append_nil _
  rw [horder] at hpair
  exact List.pairwise_map.1 hpair

/-- Nobody but the reader has closed the connection, and the callback was not given up. -/
structure Undisturbed (c : Connection) : Prop where
  closer : ∀ closer, c.closing.closer? = some closer → closer = .reader
  reader : ∀ cause, c.reader ≠ .panicked cause

/-- What a read loop comes to that nobody disturbs: it has dispatched all frames of its source,
reports the reason why there is no further one, and leaves the connection closed down to its
socket. -/
structure Exact (frames : List Message) (cause : FrameError) (c d : Connection) : Prop
    extends Dispatched frames c d where
  result : d.reader = .ended cause.outcome
  closed : d.closing.isOver = true

end Connection

namespace ReadLoop

variable {options : ConnectionOptions} {l l' : ReadLoop} {frames : List Message} {rest : Bytes}
  {cause : FrameError} {c : Connection}

/-- A read loop at its end. -/
theorem exact_of_ended (hc : (Connection.machine options).Reachable c) (hr : c.reader = .notStarted)
    (h : Reads options frames rest cause l) (hl : l.connection.Undisturbed)
    {events : List ConnectionEvent} (hrun : c.run events = some l.connection)
    {result : Except ConnectionError Unit} (hended : l.connection.reader = .ended result) :
    Connection.Exact frames cause c l.connection := by
  obtain ⟨harrivals, hresult⟩ := h.verdict result (by rw [hended]; rfl)
  have hdispatched := Connection.dispatched_of_run hc hr hrun (by rw [hended]; rfl)
  rw [harrivals] at hdispatched
  refine ⟨hdispatched, ?_, ?_⟩
  · obtain rfl | ⟨-, closer, hne, hcloser⟩ := hresult
    · exact hended
    · exact absurd (hl.closer closer hcloser) hne
  · obtain hover | ⟨closer, hne, hcloser⟩ := (Connection.readerCloses h.reachable).ended result hended
    · exact hover
    · exact absurd (hl.closer closer hcloser) hne

end ReadLoop

end ClusterLink
