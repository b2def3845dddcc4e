import ClusterLink.Proofs.Connection.Reading
/-!
# Nobody disturbs the reader

While nobody calls to close, the socket takes what the writer writes and the callback is not given
up, only the reader closes the connection. A call to `Connection.serve` with a callback that leaves
the connection open is such a run.

Results:
* `Connection.Unharmed.step`: quiet steps leave it to the reader to close.
* `Connection.exists_run_serve`: serving a connection is a quiet interleaving.
* `Connection.unharmed_of_run`: so nobody else closes a connection that is served.
-/
namespace ClusterLink

/-- Whether a callback leaves the connection open and comes back, whatever it is handed. -/
def Callback.IsQuiet (f : Callback) : Prop := ∀ m, (f m).closes = false ∧ (f m).panic = none

namespace ConnectionEvent

/-- Whether an event may make somebody else than the reader close, or leaves nobody to read. -/
def disturbs : ConnectionEvent → Bool
  | close | writer (.fail _) | writer (.failFlush _) | reader (.panic _) => true
  | _ => false

/-- Whether an event disturbs nobody, takes nothing off the socket and asks for nothing. -/
def isQuiet : ConnectionEvent → Bool
  | close | writer (.fail _) | writer (.failFlush _) | reader (.panic _) => false
  | reader (.arrive _) | reader (.stop _) | send _ => false
  | _ => true

variable {e : ConnectionEvent}

theorem disturbs_of_isQuiet (h : e.isQuiet = true) : e.disturbs = false := by
  cases e with
  | close => cases h
  | writer x => cases x <;> first | rfl | cases h
  | reader x => cases x <;> first | rfl | cases h
  | _ => rfl

theorem taken?_of_isQuiet (h : e.isQuiet = true) : e.taken? = none := by
  cases e with
  | reader x => cases x <;> first | rfl | cases h
  | _ => rfl

end ConnectionEvent

namespace ReadLoopEvent

/-- Whether an event may make somebody else than the reader close, or leaves nobody to read. -/
def disturbs : ReadLoopEvent → Bool
  | read => false
  | connection e => e.disturbs

/-- Whether an event reads the source or is quiet. -/
def isQuiet : ReadLoopEvent → Bool
  | read => true
  | connection e => e.isQuiet

theorem disturbs_of_isQuiet {e : ReadLoopEvent} (h : e.isQuiet = true) : e.disturbs = false := by
  cases e with
  | read => rfl
  | connection e => exact ConnectionEvent.disturbs_of_isQuiet h

end ReadLoopEvent

namespace Connection

variable {options : ConnectionOptions} {c d z : Connection} {e : ConnectionEvent}
  {callback : Option Callback}

/-! ## Only the reader closes -/

/-- Nobody disturbs the reader, and the writer writes until the connection is closed. -/
structure Unharmed (c : Connection) : Prop extends Undisturbed c where
  working : c.isClosed = false → c.writer.IsAtWork

/-- A writer at work on an open connection does not stop by itself. -/
theorem isAtWork_stepWriter {x : WriterEvent} (hopen : c.isClosed = false)
    (hw : c.writer.IsAtWork) (hx : (ConnectionEvent.writer x).disturbs = false)
    (h : c.stepWriter x = some d) : d.writer.IsAtWork := by
  unfold stepWriter at h
  split at h
  case h_1 => split at h <;> cases h; trivial
  case h_2 =>
    have hqueue : c.closing.hasQueue = true := by rw [Closing.eq_notYet hopen]; rfl
    simp [hqueue] at h
  case h_3 => cases h; rw [hopen]; exact Nat.zero_le _
  case h_4 => split at h <;> cases h; next hn => exact hn.2
  case h_5 => split at h <;> cases h; exact hw
  case h_6 => cases hx
  case h_7 => split at h <;> cases h; trivial
  case h_8 => cases hx
  case h_9 hwr => rw [hwr] at hw; exact hw.elim
  case h_10 hwr => rw [hwr] at hw; exact hw.elim
  case h_11 hwr => rw [hwr] at hw; exact hw.elim
  case h_12 => cases h

/-- **Who disturbs nobody leaves it to the reader to close.** -/
theorem Unharmed.step (hc : c.Unharmed) (he : e.disturbs = false) (h : c.step e = some d) :
    d.Unharmed := by
  have hnext := step_closing h
  have hopen : d.isClosed = false → c.isClosed = false := fun hd => by
    cases hcl : c.isClosed with
    | false => rfl
    | true => rw [isClosed, hnext.isFlagged_of hcl] at hd; cases hd
  refine ⟨⟨fun closer hcloser => ?_, fun cause hpanicked => ?_⟩, fun hd => ?_⟩
  · rw [hnext.closer?_eq] at hcloser
    cases hk : c.closing.closer? with
    | some k =>
      rw [hk, Option.some_or] at hcloser
      exact hc.closer closer (hk.trans hcloser)
    | none =>
      rw [hk, Option.none_or] at hcloser
      have hw := hc.working (by rw [isClosed_eq, hk]; rfl)
      cases e with
      | close => cases he
      | writer x =>
        -- A writer at work does not close.
        cases x <;> cases hcloser
        change c.stepWriter .close = some d at h
        cases hwr : c.writer <;> rw [hwr] at hw <;> simp only [stepWriter, hwr] at h <;>
          first | exact hw.elim | cases h
      | reader x => cases x <;> cases hcloser; rfl
      | _ => cases hcloser
  · obtain ⟨hreader, -⟩ | ⟨x, rfl, hx⟩ := step_reader h
    · exact hc.reader cause (hreader ▸ hpanicked)
    · cases x with
      | panic cause => cases he
      | arrive m =>
        obtain ⟨-, ⟨m', -, hd⟩ | ⟨_, hno, -⟩⟩ := @taken_cases c d (.ok m) h
        · rw [hd] at hpanicked
          cases hpanicked
        · cases hno
      | stop cause' =>
        obtain ⟨-, ⟨_, hno, -⟩ | ⟨_, -, hd⟩⟩ := @taken_cases c d (.error cause') h
        · cases hno
        · rw [hd] at hpanicked
          cases hpanicked
      | _ =>
        have hturn := stepReader_turn rfl hx
        rw [hpanicked] at hturn
        cases hturn.of_panicked
  · have hcl := hopen hd
    obtain hwriter | ⟨x, rfl, hx⟩ := step_writer h
    · rw [hwriter]
      exact hc.working hcl
    · exact isAtWork_stepWriter hcl (hc.working hcl) he hx

/-! ## Quiet stretches -/

/-- One connection comes of another by quiet steps. -/
def Quietly (c d : Connection) : Prop :=
  ∃ events, (∀ e ∈ events, e.isQuiet = true) ∧ c.run events = some d

namespace Quietly

theorem refl (c : Connection) : Quietly c c := ⟨[], by simp, rfl⟩

theorem trans (h : Quietly c d) (h' : Quietly d z) : Quietly c z := by
  obtain ⟨first, hfirst, hrun⟩ := h
  obtain ⟨later, hlater, hrun'⟩ := h'
  exact ⟨first ++ later, List.forall_mem_append.2 ⟨hfirst, hlater⟩, run_append hrun hrun'⟩

theorem of_step (he : e.isQuiet = true) (h : c.step e = some d) : Quietly c d :=
  ⟨[e], by simpa using he, by rw [run_cons, h]; rfl⟩

end Quietly

theorem isQuiet_of_nextOfWriter? {x : WriterEvent} (h : c.nextOfWriter? = some x) :
    (ConnectionEvent.writer x).isQuiet = true := by
  unfold nextOfWriter? at h
  split at h
  · split at h
    · cases h; rfl
    · split at h <;> cases h; rfl
  · cases h; rfl
  · cases h; split <;> rfl
  · cases h; rfl
  · cases h; rfl
  · split at h <;> cases h; rfl
  · cases h

theorem isQuiet_of_nextOfReader? {x : ReaderEvent} (h : c.nextOfReader? = some x) :
    (ConnectionEvent.reader x).isQuiet = true := by
  unfold nextOfReader? at h
  split at h
  · cases h; rfl
  · split at h <;> cases h; rfl
  · cases h

/-- Those who serve a connection take quiet steps only. -/
theorem isQuiet_of_next? (h : c.next? = some e) : e.isQuiet = true := by
  obtain ⟨x, -, rfl⟩ | ⟨x, hx, rfl⟩ | ⟨x, hx, rfl⟩ := next?_cases h
  · rfl
  · exact isQuiet_of_nextOfWriter? hx
  · exact isQuiet_of_nextOfReader? hx

theorem settle_quietly (c : Connection) : Quietly c c.settle :=
  settle_induction (P := Quietly c)
    (fun _ _ _ hn hs h => h.trans (.of_step (isQuiet_of_next? hn) hs)) (.refl c)

theorem write_quietly {bytes : Bytes} {result : Except ConnectionError Nat}
    (h : c.write bytes = some (result, d)) : Quietly c d := by
  unfold write at h
  simp only [Option.bind_eq_bind, Option.bind_eq_some_iff] at h
  obtain ⟨entered, hentered, reached, hreached, hrest⟩ := h
  have hfirst : Quietly c reached := .trans (.of_step rfl hentered) (.of_step rfl hreached)
  split at hrest
  · cases hrest
    exact hfirst
  · obtain ⟨queued, hqueued, hrest⟩ := Option.bind_eq_some_iff.1 hrest
    obtain ⟨result', -, hpure⟩ := Option.bind_eq_some_iff.1 hrest
    cases hpure
    exact hfirst.trans (.of_step rfl hqueued)

theorem push_quietly (c : Connection) (bytes : Bytes) : Quietly c (c.push bytes).2 := by
  unfold push
  cases hnow : c.write bytes with
  | some p => exact write_quietly hnow
  | none =>
    cases hlater : c.settle.write bytes with
    | some p => exact (settle_quietly c).trans (write_quietly hlater)
    | none => exact .refl c

theorem pushAll_quietly (messages : List Message) (c : Connection) :
    Quietly c (c.pushAll messages) := by
  induction messages generalizing c with
  | nil => exact .refl c
  | cons m later ih => exact (push_quietly c m.encode).trans (ih _)

/-- What a quiet callback does is quiet. -/
theorem react_quietly {a : Arrival} {r : Reaction} (h : c.reader = .calling a)
    (hcloses : r.closes = false) (hpanic : r.panic = none) : Quietly c (c.react r) := by
  have hreplied := pushAll_quietly r.replies c
  have hreader := (pushAll_aside r.replies c).reader (by rw [h]; rfl)
  have hs : (c.pushAll r.replies).step (.reader .comeBack) =
      some { c.pushAll r.replies with reader := .reading } := by
    simp only [step, stepReader, hreader, h]
  simp only [react, hcloses, hpanic, Bool.false_eq_true, if_false, hs, Option.getD_some]
  exact hreplied.trans (.of_step rfl hs)

/-! ## Serving is a run -/

/-- The first frame of a read loop with a quiet callback. -/
theorem receive_quietly (h : c.reader = .reading) (hcall : c.hasCallback = callback.isSome)
    (hquiet : ∀ f, callback = some f → f.IsQuiet) (m : Message) :
    ∃ d, c.step (.reader (.arrive m)) = some d ∧ Quietly d (c.receive callback m) ∧
      (c.receive callback m).reader = .reading := by
  obtain ⟨d, hrun, -, hreader⟩ := run_dispatch h m
  rw [run_cons] at hrun
  obtain ⟨u, harrive, hrest⟩ := Option.bind_eq_some_iff.1 hrun
  have hdispatch : Quietly u d := ⟨[.reader .dispatch], by simp [ConnectionEvent.isQuiet], hrest⟩
  have hrun' : c.run [.reader (.arrive m), .reader .dispatch] = some d := by
    rw [run_cons, harrive]
    exact hrest
  refine ⟨u, harrive, ?_⟩
  obtain hreading | ⟨hhas, a, rfl, hcalling⟩ := hreader
  · simp only [receive, hrun', hreading]
    exact ⟨hdispatch, trivial⟩
  · rw [hcall] at hhas
    obtain ⟨f, rfl⟩ := Option.isSome_iff_exists.1 hhas
    obtain ⟨hcloses, hpanic⟩ := hquiet f rfl a.message
    simp only [receive, hrun', hcalling]
    obtain ⟨-, hback⟩ := react_of_calling hcalling (f a.message)
    simp only [hpanic] at hback
    refine ⟨?_, ?_⟩
    · exact (hdispatch.trans (react_quietly hcalling hcloses hpanic)).trans (settle_quietly _)
    · exact ((settle_aside _).reader (by rw [hback]; rfl)).trans hback

/-- A quiet stretch leaves the source alone. -/
theorem Quietly.run (h : Quietly c d) (s : Frame.Source) :
    ∃ events, (∀ e ∈ events, e.isQuiet = true) ∧ (ReadLoop.mk c s).run events = some ⟨d, s⟩ := by
  obtain ⟨events, hquiet, hrun⟩ := h
  refine ⟨events.map .connection, fun e he => ?_, ?_⟩
  · obtain ⟨x, hx, rfl⟩ := List.mem_map.1 he
    exact hquiet x hx
  · induction events generalizing c with
    | nil => cases hrun; rfl
    | cons x later ih =>
      obtain ⟨hx, hlater⟩ := List.forall_mem_cons.1 hquiet
      rw [run_cons] at hrun
      obtain ⟨u, hs, hrest⟩ := Option.bind_eq_some_iff.1 hrun
      rw [List.map_cons, ReadLoop.run_cons,
        ReadLoop.step_connection (ConnectionEvent.taken?_of_isQuiet hx), hs]
      exact ih hlater hrest

/-- A reading and a quiet stretch behind it. -/
theorem exists_run_read {s t : Frame.Source} {taken : Except FrameError Message}
    (hread : Frame.read s = (taken, t)) (hs : c.step (.reader (.ofTaken taken)) = some d)
    (h : Quietly d z) :
    ∃ events, (∀ e ∈ events, e.isQuiet = true) ∧ (ReadLoop.mk c s).run events = some ⟨z, t⟩ := by
  obtain ⟨later, hquiet, hrun⟩ := h.run t
  have hstep : (ReadLoop.mk c s).step .read = some ⟨d, t⟩ := by
    simp only [ReadLoop.step, hread, hs, Option.map_some]
  exact ⟨.read :: later, List.forall_mem_cons.2 ⟨rfl, hquiet⟩, by
    rw [ReadLoop.run_cons, hstep]; exact hrun⟩

theorem exists_run_serveFrom (h : c.reader = .reading) (hcall : c.hasCallback = callback.isSome)
    (hquiet : ∀ f, callback = some f → f.IsQuiet) (s : Frame.Source) :
    ∃ events, (∀ e ∈ events, e.isQuiet = true) ∧ (ReadLoop.mk c s).run events =
      some ⟨(c.serveFrom callback s).1, (c.serveFrom callback s).2⟩ := by
  fun_induction serveFrom callback c s with
  | case1 c s e t hread =>
    have hs : c.step (.reader (.stop e)) = some { c with reader := .leaving (c.verdict e) } := by
      simp only [step, stepReader, h]
    rw [endReading, hs, Option.getD_some]
    exact exists_run_read hread hs (settle_quietly _)
  | case2 c s m t hread d hover =>
    obtain ⟨u, hs, hd, -⟩ := receive_quietly h hcall hquiet m
    exact exists_run_read hread hs hd
  | case3 c s m t hread d hover ih =>
    obtain ⟨u, hs, hd, hreading⟩ := receive_quietly h hcall hquiet m
    obtain ⟨first, hfirst, hrun⟩ := exists_run_read hread hs hd
    obtain ⟨events, hevents⟩ := (received h hcall m).run
    obtain ⟨_, -, -, hstarted⟩ := run_handed hevents
    have hsame := (hstarted (by rw [h]; rfl)).2
    obtain ⟨later, hlater, hrest⟩ := ih hreading (hsame.trans hcall)
    exact ⟨first ++ later, List.forall_mem_append.2 ⟨hfirst, hlater⟩,
      ReadLoop.run_append hrun hrest⟩

/-- **Serving a connection is one of the interleavings, and a quiet one.** -/
theorem exists_run_serve (h : c.reader = .notStarted)
    (hquiet : ∀ f, callback = some f → f.IsQuiet) (s : Frame.Source) :
    ∃ events, (∀ e ∈ events, e.isQuiet = true) ∧ (ReadLoop.mk c s).run events =
      some ⟨(c.serve callback s).1, (c.serve callback s).2⟩ := by
  have hs : c.step (.reader (.start callback.isSome)) =
      some { c with reader := .reading, hasCallback := callback.isSome } := by
    simp only [step, stepReader, h]
  rw [serve, startReading, hs, Option.getD_some]
  obtain ⟨later, hlater, hrun⟩ := exists_run_serveFrom
    (c := { c with reader := .reading, hasCallback := callback.isSome }) rfl rfl hquiet s
  refine ⟨.connection (.reader (.start callback.isSome)) :: later,
    List.forall_mem_cons.2 ⟨rfl, hlater⟩, ?_⟩
  rw [ReadLoop.run_cons, ReadLoop.step_connection rfl, hs]
  exact hrun

/-- Where no step disturbs the reader, only the reader closes. -/
theorem unharmed_of_run {l l' : ReadLoop} (hl : l.connection.Unharmed) {events : List ReadLoopEvent}
    (hevents : ∀ e ∈ events, e.disturbs = false) (hrun : l.run events = some l') :
    l'.connection.Unharmed := by
  refine ReadLoop.kept_of_run (P := fun l => l.connection.Unharmed) ?_ hevents hl hrun
  intro l e l' he hl hs
  obtain ⟨taken, -, -, hstep⟩ | ⟨x, rfl, -, hstep, -⟩ := ReadLoop.step_cases hs
  · exact hl.step (by cases taken <;> rfl) hstep
  · exact hl.step he hstep

end Connection
end ClusterLink
