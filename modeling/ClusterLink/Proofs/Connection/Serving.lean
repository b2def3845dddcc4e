import ClusterLink.Connection.ReadLoop
import ClusterLink.Proofs.Connection.Closing
/-!
# The read loop comes to its end

Those who serve a connection can only wait for a frame to write or to read, or for somebody to close:
each of their steps leaves them less to do, so that they go on until nobody can. A read loop
therefore comes to its end on every source of bytes. When there is no further frame the connection is
closed down to its socket; the only other way out is a callback that is given up.

Results:
* `Connection.exists_step_of_next?`: those who serve a connection can take their next step, and have
  less to do then.
* `Connection.next?_settle`: they go on until all of them wait.
* `Connection.served`: what the read loop leaves behind for every source and every callback.
-/
namespace ClusterLink

/-- How many steps the closing takes at most. -/
def Closing.toGo : Closing → Nat
  | notYet | flagged _ => 3
  | announced _ => 2
  | detached _ => 1
  | settled .. => 0

namespace Writer

/-- How many steps the writer takes at most if there is no further frame. -/
def toGo : Writer → Nat
  | holding _ => 6
  | writing frame done => if done < frame.length then 5 else 4
  | idle | failed _ => 3
  | leaving _ => 2
  | closing _ => 1
  | ended _ => 0

/-- The socket took no more of a frame than there is of it. -/
def IsWithin : Writer → Prop
  | writing frame done => done ≤ frame.length
  | _ => True

theorem toGo_le (w : Writer) : w.toGo ≤ 6 := by
  unfold toGo
  split
  case h_2 => split <;> omega
  all_goals omega

end Writer

namespace Reader

/-- How many steps the reader takes at most without a further frame. -/
def toGo : Reader → Nat
  | leaving _ => 2
  | closing _ => 1
  | _ => 0

/-- Whether the reader reads no more but has not come to its end. -/
def isLeaving : Reader → Bool
  | leaving _ | closing _ => true
  | _ => false

/-- Whether there is no further frame for the reader. -/
def isEnding : Reader → Bool
  | leaving _ | closing _ | ended _ => true
  | _ => false

theorem toGo_le (r : Reader) : r.toGo ≤ 2 := by
  cases r <;> simp [toGo]

end Reader

theorem Closing.toGo_le (k : Closing) : k.toGo ≤ 3 := by
  cases k <;> simp [toGo]

namespace Connection

variable {options : ConnectionOptions} {c d z : Connection} {e : ConnectionEvent}
  {callback : Option Callback}

/-- How many steps those who serve the connection take at most. -/
def toGo (c : Connection) : Nat :=
  4 * c.queue.length + c.writer.toGo + c.closing.toGo + c.reader.toGo

theorem toGo_le (c : Connection) : c.toGo ≤ 4 * c.queue.length + 20 := by
  have hw := c.writer.toGo_le
  have hk := c.closing.toGo_le
  have hr := c.reader.toGo_le
  unfold toGo
  omega

/-! ## The writer keeps within its frame -/

theorem beginClose_writer (c : Connection) (closer : Closer) :
    (c.beginClose closer).writer = c.writer ∧ (c.beginClose closer).queue = c.queue := by
  unfold beginClose
  split <;> exact ⟨rfl, rfl⟩

/-- Only the writer's own steps change what it is doing. -/
theorem step_writer (h : c.step e = some d) :
    d.writer = c.writer ∨ ∃ e', e = .writer e' ∧ c.stepWriter e' = some d := by
  cases e with
  | send m => cases h; exact Or.inl rfl
  | request t e =>
    obtain ⟨r, -, hs⟩ := Option.bind_eq_some_iff.1 h
    exact Or.inl (stepRequest_untouched hs).writer
  | write bytes => cases h; exact Or.inl rfl
  | writing n e =>
    obtain ⟨w, -, hs⟩ := Option.bind_eq_some_iff.1 h
    exact Or.inl (stepWrite_untouched hs).writer
  | close => cases h; exact Or.inl (c.beginClose_writer .caller).1
  | closing e =>
    change c.stepClosing e = some d at h
    unfold stepClosing at h
    split at h <;> cases h <;> exact Or.inl rfl
  | writer e => exact Or.inr ⟨e, rfl, h⟩
  | reader e => exact Or.inl (congrArg Outgoing.writer (outgoing_stepReader h))

theorem isWithin_stepWriter {e : WriterEvent} (hw : c.writer.IsWithin)
    (h : c.stepWriter e = some d) : d.writer.IsWithin := by
  unfold stepWriter at h
  split at h
  · split at h <;> cases h; trivial
  · split at h <;> cases h; trivial
  · cases h
    cases hc : c.isClosed
    · exact Nat.zero_le _
    · trivial
  · split at h <;> cases h
    next hn => exact hn.2
  · split at h <;> cases h; exact hw
  · split at h <;> cases h; trivial
  · split at h <;> cases h; trivial
  · split at h <;> cases h; trivial
  · cases h; trivial
  · cases h
    cases hc : c.isClosed <;> trivial
  · split at h <;> cases h; trivial
  · cases h

theorem isWithin_of_step (hw : c.writer.IsWithin) (h : c.step e = some d) : d.writer.IsWithin := by
  rcases step_writer h with heq | ⟨e', -, hs⟩
  · rw [heq]
    exact hw
  · exact isWithin_stepWriter hw hs

theorem isWithin (h : (machine options).Reachable c) : c.writer.IsWithin :=
  Machine.invariant (m := machine options) trivial (fun _ _ _ => isWithin_of_step) h

/-! ## Going on until nobody can -/

/-- Whose turn it is. -/
theorem next?_cases (h : c.next? = some e) :
    (∃ e', c.closing.next? = some e' ∧ e = .closing e') ∨
      (∃ e', c.nextOfWriter? = some e' ∧ e = .writer e') ∨
      ∃ e', c.nextOfReader? = some e' ∧ e = .reader e' := by
  unfold next? at h
  rcases Option.or_eq_some_iff.1 h with h | ⟨-, h⟩
  · obtain ⟨e', he, rfl⟩ := Option.map_eq_some_iff.1 h
    exact Or.inl ⟨e', he, rfl⟩
  rcases Option.or_eq_some_iff.1 h with h | ⟨-, h⟩
  · obtain ⟨e', he, rfl⟩ := Option.map_eq_some_iff.1 h
    exact Or.inr (Or.inl ⟨e', he, rfl⟩)
  · obtain ⟨e', he, rfl⟩ := Option.map_eq_some_iff.1 h
    exact Or.inr (Or.inr ⟨e', he, rfl⟩)

theorem exists_step_of_closing {e : ClosingEvent} (h : c.closing.next? = some e) :
    ∃ d, c.stepClosing e = some d ∧ d.toGo < c.toGo := by
  cases hk : c.closing <;> simp only [hk, Closing.next?] at h <;> cases h
  all_goals
    refine ⟨_, by simp only [stepClosing, hk]; rfl, ?_⟩
    simp [toGo, hk, Closing.toGo, noteClose]

/-- To begin closing takes no step off the closing itself. -/
theorem toGo_beginClose (c : Connection) (closer : Closer) :
    (c.beginClose closer).closing.toGo = c.closing.toGo := by
  unfold beginClose
  split
  · rfl
  · next hopen =>
    cases hk : c.closing <;> simp_all [isClosed, Closing.isFlagged, Closing.toGo]

theorem exists_step_of_nextOfWriter? {e : WriterEvent} (hw : c.writer.IsWithin)
    (h : c.nextOfWriter? = some e) : ∃ d, c.stepWriter e = some d ∧ d.toGo < c.toGo := by
  cases hwr : c.writer with
  | idle =>
    simp only [nextOfWriter?, hwr] at h
    split at h
    · next hq =>
      cases h
      obtain ⟨frame, later, hq⟩ := List.exists_cons_of_ne_nil hq
      refine ⟨_, by simp only [stepWriter, hwr, hq]; rfl, ?_⟩
      simp only [toGo, hwr, hq, Writer.toGo, List.length_cons]
      omega
    · next hq =>
      split at h <;> cases h
      next hdry =>
      refine ⟨{ c with writer := .leaving (.ok ()) }, ?_, ?_⟩
      · simp only [not_not] at hq
        simp only [stepWriter, hwr, hq, List.isEmpty_nil, Bool.true_and, if_pos hdry]
      · simp [toGo, hwr, Writer.toGo]
  | holding frame =>
    simp only [nextOfWriter?, hwr] at h
    cases h
    refine ⟨_, by simp only [stepWriter, hwr]; rfl, ?_⟩
    simp only [toGo, hwr]
    cases hc : c.isClosed
    · simp only [Bool.false_eq_true, if_false, Writer.toGo]
      split <;> omega
    · simp only [if_true, Writer.toGo]
      omega
  | writing frame done =>
    simp only [nextOfWriter?, hwr, Option.some.injEq] at h
    split at h
    · next hlt =>
      subst h
      have hsome : 0 < frame.length - done ∧ done + (frame.length - done) ≤ frame.length := by omega
      refine ⟨_, by simp only [stepWriter, hwr, if_pos hsome]; rfl, ?_⟩
      have hall : ¬ done + (frame.length - done) < frame.length := by omega
      simp only [toGo, hwr, Writer.toGo, if_pos hlt, if_neg hall]
      omega
    · next hge =>
      subst h
      rw [hwr] at hw
      have hall : done = frame.length := Nat.le_antisymm hw (Nat.not_lt.1 hge)
      refine ⟨_, by simp only [stepWriter, hwr, if_pos hall]; rfl, ?_⟩
      simp only [toGo, hwr, Writer.toGo, if_neg hge]
      omega
  | failed cause =>
    simp only [nextOfWriter?, hwr] at h
    cases h
    refine ⟨_, by simp only [stepWriter, hwr]; rfl, ?_⟩
    simp [toGo, hwr, Writer.toGo]
  | leaving result =>
    simp only [nextOfWriter?, hwr] at h
    cases h
    refine ⟨_, by simp only [stepWriter, hwr]; rfl, ?_⟩
    simp only [toGo, c.toGo_beginClose .writer, (c.beginClose_writer .writer).2,
      (c.beginClose_reader .writer).1, hwr]
    cases c.isClosed <;> simp [Writer.toGo]
  | closing result =>
    simp only [nextOfWriter?, hwr] at h
    split at h <;> cases h
    next hover =>
    refine ⟨_, by simp only [stepWriter, hwr, if_pos hover]; rfl, ?_⟩
    simp [toGo, hwr, Writer.toGo]
  | ended result =>
    simp only [nextOfWriter?, hwr] at h
    cases h

theorem exists_step_of_nextOfReader? {e : ReaderEvent} (h : c.nextOfReader? = some e) :
    c.reader.isLeaving = true ∧ ∃ d, c.stepReader e = some d ∧ d.toGo < c.toGo := by
  cases hr : c.reader with
  | leaving result =>
    simp only [nextOfReader?, hr] at h
    cases h
    refine ⟨rfl, _, by simp only [stepReader, hr]; rfl, ?_⟩
    obtain ⟨hw, hq⟩ := c.beginClose_writer .reader
    simp only [toGo, c.toGo_beginClose .reader, hq, hw, hr]
    cases c.isClosed <;> simp [Reader.toGo]
  | closing result =>
    simp only [nextOfReader?, hr] at h
    split at h <;> cases h
    next hover =>
    refine ⟨rfl, _, by simp only [stepReader, hr, if_pos hover]; rfl, ?_⟩
    simp [toGo, hr, Reader.toGo]
  | _ =>
    simp only [nextOfReader?, hr] at h
    cases h

/-- **Those who serve a connection can take their next step, and have less to do then.** -/
theorem exists_step_of_next? (hw : c.writer.IsWithin) (h : c.next? = some e) :
    ∃ d, c.step e = some d ∧ d.toGo < c.toGo := by
  rcases next?_cases h with ⟨e', he, rfl⟩ | ⟨e', he, rfl⟩ | ⟨e', he, rfl⟩
  · exact exists_step_of_closing he
  · exact exists_step_of_nextOfWriter? hw he
  · exact (exists_step_of_nextOfReader? he).2

theorem next?_serveSteps {fuel : Nat} (hw : c.writer.IsWithin) (h : c.toGo ≤ fuel) :
    (serveSteps fuel c).next? = none := by
  induction fuel generalizing c with
  | zero =>
    cases hn : c.next? with
    | none => exact hn
    | some e =>
      obtain ⟨d, -, hlt⟩ := exists_step_of_next? hw hn
      omega
  | succ fuel ih =>
    cases hn : c.next? with
    | none => simp only [serveSteps, hn, Option.bind_none]
    | some e =>
      obtain ⟨d, hs, hlt⟩ := exists_step_of_next? hw hn
      simp only [serveSteps, hn, Option.bind_some, hs]
      exact ih (isWithin_of_step hw hs) (by omega)

/-- **They go on until all of them wait.** -/
theorem next?_settle (h : (machine options).Reachable c) : c.settle.next? = none :=
  next?_serveSteps (isWithin h) c.toGo_le

/-! ## Steps beside the reader -/

/-- One connection comes of another, while a reader that does not leave is left to itself. -/
structure Aside (c d : Connection) : Prop where
  run : ∃ events, c.run events = some d
  reader : c.reader.isLeaving = false → d.reader = c.reader

namespace Aside

theorem refl (c : Connection) : Aside c c := ⟨⟨[], rfl⟩, fun _ => rfl⟩

theorem trans (h : Aside c d) (h' : Aside d z) : Aside c z where
  run := by
    obtain ⟨first, hfirst⟩ := h.run
    obtain ⟨later, hlater⟩ := h'.run
    exact ⟨first ++ later, run_append hfirst hlater⟩
  reader hc := by
    have hd := h.reader hc
    rw [← hd] at hc
    exact (h'.reader hc).trans hd

theorem of_step (hs : c.step e = some d) (he : c.reader.isLeaving = false → ∀ e', e ≠ .reader e') :
    Aside c d where
  run := ⟨[e], by rw [run_cons, hs]; rfl⟩
  reader hc := by
    rcases step_reader hs with ⟨heq, -⟩ | ⟨e', heq, -⟩
    · exact heq
    · exact absurd heq (he hc e')

theorem reachable (h : Aside c d) (hc : (machine options).Reachable c) :
    (machine options).Reachable d := by
  obtain ⟨events, hrun⟩ := h.run
  exact reachable_of_run hc hrun

end Aside

/-- What each step of those who serve a connection keeps holds when they are through with it. -/
theorem settle_induction {P : Connection → Prop}
    (hstep : ∀ c e d, c.next? = some e → c.step e = some d → P c → P d) (h : P c) : P c.settle := by
  have hfuel : ∀ fuel c, P c → P (serveSteps fuel c) := by
    intro fuel
    induction fuel with
    | zero => exact fun _ h => h
    | succ fuel ih =>
      intro c h
      unfold serveSteps
      split
      · next d hd =>
        obtain ⟨e, hn, hs⟩ := Option.bind_eq_some_iff.1 hd
        exact ih d (hstep c e d hn hs h)
      · exact h
  exact hfuel _ c h

theorem settle_aside (c : Connection) : Aside c c.settle := by
  refine settle_induction (P := Aside c) (fun u e v hn hs h => ?_) (.refl c)
  refine h.trans (.of_step hs fun hr e' he => ?_)
  -- Only a reader that leaves takes steps of its own here.
  rcases next?_cases hn with ⟨_, -, rfl⟩ | ⟨_, -, rfl⟩ | ⟨_, hnext, rfl⟩
  · cases he
  · cases he
  · rw [(exists_step_of_nextOfReader? hnext).1] at hr
    cases hr

theorem write_aside {bytes : Bytes} {result : Except ConnectionError Nat}
    (h : c.write bytes = some (result, d)) : Aside c d := by
  have hwriting : ∀ {c d : Connection} {n : Nat} {e : WriteEvent},
      c.step (.writing n e) = some d → Aside c d :=
    fun hs => .of_step hs fun _ _ he => by cases he
  unfold write at h
  simp only [Option.bind_eq_bind, Option.bind_eq_some_iff] at h
  obtain ⟨entered, hentered, reached, hreached, hrest⟩ := h
  have hfirst : Aside c reached :=
    .trans (.of_step hentered fun _ _ he => by cases he) (hwriting hreached)
  split at hrest
  · cases hrest
    exact hfirst
  · obtain ⟨queued, hqueued, hrest⟩ := Option.bind_eq_some_iff.1 hrest
    obtain ⟨result', -, hpure⟩ := Option.bind_eq_some_iff.1 hrest
    cases hpure
    exact hfirst.trans (hwriting hqueued)

theorem push_aside (c : Connection) (bytes : Bytes) : Aside c (c.push bytes).2 := by
  unfold push
  cases hnow : c.write bytes with
  | some p => exact write_aside hnow
  | none =>
    cases hlater : c.settle.write bytes with
    | some p => exact (settle_aside c).trans (write_aside hlater)
    | none => exact .refl c

theorem pushAll_aside (messages : List Message) (c : Connection) : Aside c (c.pushAll messages) := by
  induction messages generalizing c with
  | nil => exact .refl c
  | cons m later ih => exact (push_aside c m.encode).trans (ih _)

theorem close_aside (c : Connection) : Aside c c.close :=
  .trans (.of_step (e := .close) rfl fun _ _ he => by cases he) (settle_aside _)

/-! ## Frame by frame -/

/-- A reader that hands a frame to the callback reads on afterwards, unless the callback is given
up. -/
theorem react_of_calling {a : Arrival} (h : c.reader = .calling a) (r : Reaction) :
    (∃ events, c.run events = some (c.react r)) ∧
      (c.react r).reader = match r.panic with
        | some cause => .panicked cause
        | none => .reading := by
  obtain ⟨after, hafter, hreact⟩ : ∃ after, Aside c after ∧ c.react r =
      (after.step (.reader (match r.panic with
        | some cause => .panic cause
        | none => .comeBack))).getD after := by
    refine ⟨if r.closes then (c.pushAll r.replies).close else c.pushAll r.replies, ?_, rfl⟩
    have hreplied := pushAll_aside r.replies c
    split
    · exact hreplied.trans (close_aside _)
    · exact hreplied
  obtain ⟨events, hrun⟩ := hafter.run
  have hreader := (hafter.reader (by rw [h]; rfl)).trans h
  rw [hreact]
  cases r.panic with
  | none =>
    have hs : after.step (.reader .comeBack) = some { after with reader := .reading } := by
      simp only [step, stepReader, hreader]
    simp only [hs, Option.getD_some, and_true]
    exact ⟨_, run_concat hrun hs⟩
  | some cause =>
    have hs : after.step (.reader (.panic cause)) = some { after with reader := .panicked cause } := by
      simp only [step, stepReader, hreader]
    simp only [hs, Option.getD_some, and_true]
    exact ⟨_, run_concat hrun hs⟩

/-- Frames that came in are not forgotten. -/
theorem arrivals_of_run {events : List ConnectionEvent} (h : c.run events = some d) :
    c.history.arrivals <+: d.history.arrivals :=
  kept_of_run (P := fun u => c.history.arrivals <+: u.history.arrivals)
    (fun _ _ _ hu hs => hu.trans (Books.arrivals_prefix_of_step (step_books hs)))
    (List.prefix_refl _) h

/-- A frame that comes in is put where it belongs, or is handed to the callback. -/
theorem run_dispatch (h : c.reader = .reading) (m : Message) :
    ∃ d, c.run [.reader (.arrive m), .reader .dispatch] = some d ∧ m ∈ d.history.arrivals ∧
      (d.reader = .reading ∨ c.hasCallback = true ∧ ∃ a : Arrival, a.message = m ∧
        d.reader = .calling a) := by
  have hs : c.step (.reader (.arrive m)) = some (c.arrive m) := by
    simp only [step, stepReader, h]
  have hmem : m ∈ (c.arrive m).history.arrivals := List.mem_append_right _ (List.mem_singleton.2 rfl)
  have hr : (c.arrive m).reader = .claimed ⟨c.history.arrivals.length, m⟩ (c.waiting? m.id) := rfl
  obtain ⟨d, hd, hreader⟩ : ∃ d, (c.arrive m).step (.reader .dispatch) = some d ∧
      (d.reader = .reading ∨ c.hasCallback = true ∧ ∃ a : Arrival, a.message = m ∧
        d.reader = .calling a) := by
    cases hw : c.waiting? m.id with
    | some t =>
      rw [hw] at hr
      exact ⟨_, by simp only [step, stepReader, hr]; rfl, Or.inl rfl⟩
    | none =>
      rw [hw] at hr
      refine ⟨_, by simp only [step, stepReader, hr]; rfl, ?_⟩
      unfold dispatchUnclaimed
      split
      · exact Or.inl rfl
      · cases hcall : c.hasCallback with
        | false => exact Or.inl (by simp [arrive, unregister, hcall])
        | true =>
          exact Or.inr ⟨rfl, ⟨c.history.arrivals.length, m⟩, rfl,
            by simp [arrive, unregister, hcall]⟩
  refine ⟨d, by rw [run_cons, hs, Option.bind_some, run_cons, hd]; rfl, ?_, hreader⟩
  exact (Books.arrivals_prefix_of_step (step_books hd)).subset hmem

/-- What a connection that is read comes to by a frame. -/
structure Received (callback : Option Callback) (c : Connection) (m : Message) (d : Connection) :
    Prop where
  run : ∃ events, c.run events = some d
  arrived : m ∈ d.history.arrivals
  reader : d.reader = .reading ∨ ∃ f cause, callback = some f ∧ (f m).panic = some cause ∧
    d.reader = .panicked cause

theorem received (h : c.reader = .reading) (hcall : c.hasCallback = callback.isSome) (m : Message) :
    Received callback c m (c.receive callback m) := by
  obtain ⟨d, hrun, hmem, hreading | ⟨hhas, a, rfl, hcalling⟩⟩ := run_dispatch h m
  · simp only [receive, hrun, hreading]
    exact ⟨⟨_, hrun⟩, hmem, Or.inl hreading⟩
  · rw [hcall] at hhas
    obtain ⟨f, rfl⟩ := Option.isSome_iff_exists.1 hhas
    simp only [receive, hrun, hcalling]
    obtain ⟨⟨events, hevents⟩, hreader⟩ := react_of_calling hcalling (f a.message)
    have hsettle := settle_aside (d.react (f a.message))
    obtain ⟨later, hlater⟩ := hsettle.run
    have hlong := run_append hevents hlater
    refine ⟨⟨_, run_append hrun hlong⟩, (arrivals_of_run hlong).subset hmem, ?_⟩
    cases hpanic : (f a.message).panic with
    | none =>
      simp only [hpanic] at hreader
      exact Or.inl ((hsettle.reader (by rw [hreader]; rfl)).trans hreader)
    | some cause =>
      simp only [hpanic] at hreader
      exact Or.inr ⟨f, cause, rfl, hpanic,
        (hsettle.reader (by rw [hreader]; rfl)).trans hreader⟩

/-! ## The end of the frames -/

theorem isEnding_stepReader {e : ReaderEvent} (hr : c.reader.isEnding = true)
    (h : c.stepReader e = some d) : d.reader.isEnding = true := by
  cases hc : c.reader with
  | leaving result =>
    cases e <;> simp only [stepReader, hc] at h <;> cases h
    cases c.isClosed <;> rfl
  | closing result =>
    cases e <;> simp only [stepReader, hc] at h
    case leave =>
      split at h <;> cases h
      rfl
    all_goals cases h
  | ended result => cases e <;> simp [stepReader, hc] at h
  | _ => rw [hc] at hr; cases hr

theorem isEnding_of_step (hr : c.reader.isEnding = true) (h : c.step e = some d) :
    d.reader.isEnding = true := by
  rcases step_reader h with ⟨heq, -⟩ | ⟨e', -, hs⟩
  · rw [heq]
    exact hr
  · exact isEnding_stepReader hr hs

/-- Where all of those who serve a connection wait, a reader without a further frame is at its end,
and the connection is closed down to its socket. -/
theorem ended_of_waiting (hk : c.ReaderCloses) (hn : c.next? = none)
    (hr : c.reader.isEnding = true) : (∃ result, c.reader = .ended result) ∧
      c.closing.isOver = true := by
  have hclosing : c.closing.next? = none := by
    cases h : c.closing.next? with
    | none => rfl
    | some e => simp [next?, h] at hn
  have hreader : c.nextOfReader? = none := by
    cases h : c.nextOfReader? with
    | none => rfl
    | some e =>
      cases hw : c.nextOfWriter? <;> simp [next?, hclosing, hw, h] at hn
  have hover : c.closing.closer?.isSome = true → c.closing.isOver = true := by
    cases hc : c.closing <;> simp_all [Closing.next?, Closing.closer?, Closing.isOver]
  cases hc : c.reader with
  | leaving result => simp [nextOfReader?, hc] at hreader
  | closing result =>
    have hdone := hover (by rw [hk.closing result hc]; rfl)
    simp [nextOfReader?, hc, hdone] at hreader
  | ended result =>
    refine ⟨⟨result, rfl⟩, ?_⟩
    rcases hk.ended result hc with hdone | ⟨closer, -, hcloser⟩
    · exact hdone
    · exact hover (by rw [hcloser]; rfl)
  | _ => rw [hc] at hr; cases hr

/-- What a read loop leaves behind. -/
structure Served (callback : Option Callback) (c d : Connection) : Prop where
  run : ∃ events, c.run events = some d
  finished : d.reader.isOver = true
  /-- A reader at its end leaves the connection closed down to its socket. -/
  ended : ∀ result, d.reader = .ended result → d.closing.isOver = true
  /-- Only the callback is given up, and on a frame that came in. -/
  panicked : ∀ cause, d.reader = .panicked cause →
    ∃ f, callback = some f ∧ ∃ m ∈ d.history.arrivals, (f m).panic = some cause

theorem served_endReading (hc : (machine options).Reachable c) (h : c.reader = .reading)
    (cause : FrameError) : Served callback c (c.endReading cause) := by
  have hs : c.step (.reader (.stop cause)) =
      some { c with reader := .leaving (c.verdict cause) } := by
    simp only [step, stepReader, h]
  have hstop := reachable_of_run hc (run_concat (rfl : c.run [] = some c) hs)
  have hend : c.endReading cause = settle { c with reader := .leaving (c.verdict cause) } := by
    rw [endReading, hs, Option.getD_some]
  obtain ⟨later, hlater⟩ := (settle_aside { c with reader := .leaving (c.verdict cause) }).run
  have hreach := (settle_aside { c with reader := .leaving (c.verdict cause) }).reachable hstop
  obtain ⟨⟨result, hresult⟩, hover⟩ := ended_of_waiting (readerCloses hreach) (next?_settle hstop)
    (kept_of_run (fun _ _ _ => isEnding_of_step) rfl hlater)
  rw [hend]
  refine ⟨⟨_ :: later, by rw [run_cons, hs]; exact hlater⟩, by rw [hresult]; rfl, fun _ _ => hover, ?_⟩
  intro cause hpanicked
  rw [hresult] at hpanicked
  cases hpanicked

/-- A read loop comes to its end from every frame on. -/
theorem served_serveFrom (hc : (machine options).Reachable c) (h : c.reader = .reading)
    (hcall : c.hasCallback = callback.isSome) (s : Frame.Source) :
    Served callback c (c.serveFrom callback s).1 := by
  fun_induction serveFrom callback c s with
  | case1 c s e t hread => exact served_endReading hc h e
  | case2 c s m t hread d hover =>
    -- The callback was given up.
    have hd := received h hcall m
    obtain hreading | ⟨f, cause, hf, hpanic, hpanicked⟩ := hd.reader
    · simp [d, hreading, Reader.isOver] at hover
    · refine ⟨hd.run, hover, fun result hr => ?_, fun cause' hr => ?_⟩
      · rw [hpanicked] at hr
        cases hr
      · rw [hpanicked] at hr
        cases hr
        exact ⟨f, hf, m, hd.arrived, hpanic⟩
  | case3 c s m t hread d hover ih =>
    have hd := received h hcall m
    obtain hreading | ⟨f, cause, hf, hpanic, hpanicked⟩ := hd.reader
    · obtain ⟨events, hrun⟩ := hd.run
      obtain ⟨_, -, -, hstarted⟩ := run_handed hrun
      have hsame := (hstarted (by rw [h]; rfl)).2
      have hrest := ih (reachable_of_run hc hrun) hreading (hsame.trans hcall)
      obtain ⟨later, hlater⟩ := hrest.run
      exact ⟨⟨_, run_append hrun hlater⟩, hrest.finished, hrest.ended, hrest.panicked⟩
    · simp [d, hpanicked, Reader.isOver] at hover

/-- **A read loop comes to its end on every source and with every callback.** -/
theorem served (hc : (machine options).Reachable c) (h : c.reader = .notStarted)
    (callback : Option Callback) (s : Frame.Source) : Served callback c (c.serve callback s).1 := by
  have hs : c.step (.reader (.start callback.isSome)) =
      some { c with reader := .reading, hasCallback := callback.isSome } := by
    simp only [step, stepReader, h]
  have hstart := reachable_of_run hc (run_concat (rfl : c.run [] = some c) hs)
  have hrest := served_serveFrom hstart rfl (rfl : _ = callback.isSome) s
  obtain ⟨later, hlater⟩ := hrest.run
  rw [serve, startReading, hs, Option.getD_some]
  exact ⟨⟨_ :: later, by rw [run_cons, hs]; exact hlater⟩, hrest.finished, hrest.ended, hrest.panicked⟩

end Connection

end ClusterLink
