import ClusterLink.Proofs.Connection.Course
/-!
# How a connection is closed

The first who closes a connection marks it as closed and goes on from there; whoever closes it later
finds that done. The reader closes the connection when there is no further frame, and comes to its
end when that is done, or at once if another was first. A reader whose callback was given up has
closed nothing.

Results:
* `Connection.step_closing`: what a step does to the closing.
* `Connection.closer?_of_run`: who closes a connection in the course of a run.
* `Connection.readerCloses`: what the reader has to do with the closing in every reachable state.
* `Connection.shut_of_run`: what comes of requests and writes on a closed connection.
-/
namespace ClusterLink

/-- Who closes the connection by an event. -/
def ConnectionEvent.closer? : ConnectionEvent → Option Closer
  | close => some .caller
  | writer .close => some .writer
  | reader .close => some .reader
  | _ => none

namespace Closing

variable {e : ConnectionEvent} {k k' : Closing}

/-- Who closes or has closed. -/
def closer? : Closing → Option Closer
  | notYet => none
  | flagged closer | announced closer | detached closer | settled closer _ => some closer

theorem isSome_closer? (k : Closing) : k.closer?.isSome = k.isFlagged := by
  cases k <;> rfl

theorem eq_notYet (h : k.isFlagged = false) : k = notYet := by
  cases k <;> first | rfl | cases h

theorem isFlagged_of_isOver (h : k.isOver = true) : k.isFlagged = true := by
  cases k <;> first | rfl | cases h

theorem isAnnounced_of_isOver (h : k.isOver = true) : k.isAnnounced = true := by
  cases k <;> first | rfl | cases h

theorem hasQueue_of_isOver (h : k.isOver = true) : k.hasQueue = false := by
  cases k <;> simp_all [hasQueue, isOver]

/-- What a step can do to the closing. -/
inductive Next (e : ConnectionEvent) : Closing → Closing → Prop
  | rest {k : Closing} (h : e.closer? = none ∨ k.isFlagged = true) : Next e k k
  | flag {closer : Closer} (h : e.closer? = some closer) : Next e notYet (flagged closer)
  | announce (closer : Closer) : Next e (flagged closer) (announced closer)
  | detach (closer : Closer) : Next e (announced closer) (detached closer)
  | settle (closer : Closer) (result : Except IoError Unit) :
    Next e (detached closer) (settled closer result)

namespace Next

/-- The first to close remains the one who does. -/
theorem closer?_eq (h : Next e k k') : k'.closer? = k.closer?.or e.closer? := by
  cases h with
  | rest h =>
    rcases h with hnone | hflagged
    · rw [hnone, Option.or_none]
    · rw [← isSome_closer?] at hflagged
      obtain ⟨closer, hk⟩ := Option.isSome_iff_exists.1 hflagged
      rw [hk, Option.some_or]
  | flag h => rw [h]; rfl
  | _ => rfl

theorem isFlagged_of (h : Next e k k') (hk : k.isFlagged = true) : k'.isFlagged = true := by
  cases h <;> first | exact hk | rfl

theorem hasQueue_of (h : Next e k k') (hk : k.hasQueue = false) : k'.hasQueue = false := by
  cases h <;> first | exact hk | rfl

theorem isOver_of (h : Next e k k') (hk : k.isOver = true) : k'.isOver = true := by
  cases h <;> first | exact hk | rfl

end Next

end Closing

/-- Whether the reader has called to close. -/
def Reader.hasClosed : Reader → Bool
  | closing _ | ended _ => true
  | _ => false

namespace Connection

variable {options : ConnectionOptions} {c d : Connection} {e : ConnectionEvent}
  {events : List ConnectionEvent}

theorem isClosed_eq (c : Connection) : c.isClosed = c.closing.closer?.isSome :=
  c.closing.isSome_closer?.symm

/-! ## What one step does -/

theorem beginClose_next {closer : Closer} (he : e.closer? = some closer) (c : Connection) :
    c.closing.Next e (c.beginClose closer).closing := by
  unfold beginClose
  split
  · next hclosed => exact .rest (Or.inr hclosed)
  · next hopen =>
    rw [Closing.eq_notYet (Bool.eq_false_iff.2 hopen)]
    exact .flag he

theorem stepClosing_next {e : ClosingEvent} (h : c.stepClosing e = some d) :
    c.closing.Next (.closing e) d.closing := by
  unfold stepClosing at h
  split at h
  · next hk => cases h; rw [hk]; exact .announce _
  · next hk => cases h; rw [hk]; exact .detach _
  · next hk => cases h; rw [hk]; exact .settle ..
  · cases h

theorem stepWriter_next {e : WriterEvent} (h : c.stepWriter e = some d) :
    c.closing.Next (.writer e) d.closing := by
  unfold stepWriter at h
  split at h
  all_goals first
    | (cases h; done)
    | (cases h; exact beginClose_next rfl c)
    | (cases h; exact .rest (Or.inl rfl))
    | (split at h <;> cases h; exact .rest (Or.inl rfl))

theorem stepReader_next {e : ReaderEvent} (h : c.stepReader e = some d) :
    c.closing.Next (.reader e) d.closing := by
  unfold stepReader at h
  split at h
  · cases h; exact .rest (Or.inl rfl)
  · cases h; exact .rest (Or.inl rfl)
  · next a t hr =>
    cases h
    change c.closing.Next _ (c.fill t a).closing
    rw [(closing_fill c t a).1]
    exact .rest (Or.inl rfl)
  · cases h
    unfold dispatchUnclaimed
    split <;> exact .rest (Or.inl rfl)
  · cases h; exact .rest (Or.inl rfl)
  · cases h; exact .rest (Or.inl rfl)
  · cases h; exact .rest (Or.inl rfl)
  · cases h; exact beginClose_next rfl c
  · split at h <;> cases h; exact .rest (Or.inl rfl)
  · cases h

/-- **What a step does to the closing.** -/
theorem step_closing (h : c.step e = some d) : c.closing.Next e d.closing := by
  cases e with
  | send m => cases h; exact .rest (Or.inl rfl)
  | request t e =>
    obtain ⟨r, -, hs⟩ := Option.bind_eq_some_iff.1 h
    rw [(stepRequest_untouched hs).closing]
    exact .rest (Or.inl rfl)
  | write bytes => cases h; exact .rest (Or.inl rfl)
  | writing n e =>
    obtain ⟨w, -, hs⟩ := Option.bind_eq_some_iff.1 h
    rw [(stepWrite_untouched hs).closing]
    exact .rest (Or.inl rfl)
  | close => cases h; exact beginClose_next rfl c
  | closing e => exact stepClosing_next h
  | writer e => exact stepWriter_next h
  | reader e => exact stepReader_next h

/-- **The first who closes in the course of a run is the one who does.** -/
theorem closer?_of_run (h : c.run events = some d) :
    d.closing.closer? = c.closing.closer?.or (events.findSome? ConnectionEvent.closer?) := by
  induction events generalizing c with
  | nil =>
    cases h
    rw [List.findSome?_nil, Option.or_none]
  | cons e later ih =>
    rw [run_cons] at h
    obtain ⟨u, hs, hrun⟩ := Option.bind_eq_some_iff.1 h
    rw [ih hrun, (step_closing hs).closer?_eq, Option.or_assoc]
    cases he : e.closer? <;> simp [he]

/-! ## The reader and the closing -/

/-- Only the reader's own steps change what it is doing. -/
theorem step_reader (h : c.step e = some d) :
    (d.reader = c.reader ∧ e.closer? ≠ some .reader) ∨
      ∃ e', e = .reader e' ∧ c.stepReader e' = some d := by
  cases e with
  | send m => cases h; exact Or.inl ⟨rfl, by simp [ConnectionEvent.closer?]⟩
  | request t e =>
    obtain ⟨r, -, hs⟩ := Option.bind_eq_some_iff.1 h
    exact Or.inl ⟨(stepRequest_untouched hs).reader, by simp [ConnectionEvent.closer?]⟩
  | write bytes => cases h; exact Or.inl ⟨rfl, by simp [ConnectionEvent.closer?]⟩
  | writing n e =>
    obtain ⟨w, -, hs⟩ := Option.bind_eq_some_iff.1 h
    exact Or.inl ⟨(stepWrite_untouched hs).reader, by simp [ConnectionEvent.closer?]⟩
  | close =>
    cases h
    exact Or.inl ⟨(c.beginClose_reader .caller).1, by simp [ConnectionEvent.closer?]⟩
  | closing e =>
    refine Or.inl ⟨?_, by simp [ConnectionEvent.closer?]⟩
    change c.stepClosing e = some d at h
    unfold stepClosing at h
    split at h <;> cases h <;> rfl
  | writer e =>
    refine Or.inl ⟨?_, by cases e <;> simp [ConnectionEvent.closer?]⟩
    change c.stepWriter e = some d at h
    unfold stepWriter at h
    split at h
    all_goals first
      | (cases h; done)
      | (cases h; exact (c.beginClose_reader .writer).1)
      | (cases h; rfl)
      | (split at h <;> cases h; rfl)
  | reader e => exact Or.inr ⟨e, rfl, h⟩

/-- A reader that is over does nothing. -/
theorem stepReader_of_isOver (h : c.reader.isOver = true) (e : ReaderEvent) :
    c.stepReader e = none := by
  cases hr : c.reader <;> simp_all [Reader.isOver, stepReader]

theorem reader_of_isOver (ho : c.reader.isOver = true) (h : c.step e = some d) :
    d.reader = c.reader := by
  rcases step_reader h with ⟨heq, -⟩ | ⟨e', -, hs⟩
  · exact heq
  · rw [stepReader_of_isOver ho] at hs
    cases hs

/-- What the reader has to do with the closing. -/
structure ReaderCloses (c : Connection) : Prop where
  /-- A reader that has not called to close has closed nothing. -/
  before : c.reader.hasClosed = false → c.closing.closer? ≠ some .reader
  /-- A reader that is closing was the first to do so. -/
  closing : ∀ result, c.reader = .closing result → c.closing.closer? = some .reader
  /-- A reader at its end has closed the connection, or another was first. -/
  ended : ∀ result, c.reader = .ended result →
    c.closing.isOver = true ∨ ∃ closer ≠ .reader, c.closing.closer? = some closer

namespace ReaderCloses

theorem of_reader_eq (h : c.ReaderCloses) (hk : c.closing.Next e d.closing)
    (he : e.closer? ≠ some .reader) (hr : d.reader = c.reader) : d.ReaderCloses := by
  have hcloser := hk.closer?_eq
  constructor
  · intro hbefore
    rw [hr] at hbefore
    have hne := h.before hbefore
    rw [hcloser]
    cases hc : c.closing.closer? with
    | none => rwa [Option.none_or]
    | some closer => rw [hc] at hne; rwa [Option.some_or]
  · intro result hd
    rw [hcloser, h.closing result (hr ▸ hd), Option.some_or]
  · intro result hd
    rcases h.ended result (hr ▸ hd) with hover | ⟨closer, hne, hc⟩
    · exact Or.inl (hk.isOver_of hover)
    · refine Or.inr ⟨closer, hne, ?_⟩
      rw [hcloser, hc, Option.some_or]

/-- A reader that has not called to close leaves the closing alone. -/
theorem of_before (h : c.ReaderCloses) (hk : d.closing = c.closing)
    (hc : c.reader.hasClosed = false) (hd : d.reader.hasClosed = false) : d.ReaderCloses := by
  refine ⟨fun _ => hk ▸ h.before hc, fun result hr => ?_, fun result hr => ?_⟩
  · rw [hr] at hd
    cases hd
  · rw [hr] at hd
    cases hd

theorem stepReader {e : ReaderEvent} (h : c.ReaderCloses) (hs : c.stepReader e = some d) :
    d.ReaderCloses := by
  unfold Connection.stepReader at hs
  split at hs
  · next hr => cases hs; exact h.of_before rfl (by rw [hr]; rfl) rfl
  · next hr => cases hs; exact h.of_before rfl (by rw [hr]; rfl) rfl
  · next hr => cases hs; exact h.of_before (closing_fill ..).1 (by rw [hr]; rfl) rfl
  · next a hr =>
    cases hs
    unfold dispatchUnclaimed
    split
    · exact h.of_before rfl (by rw [hr]; rfl) rfl
    · refine h.of_before rfl (by rw [hr]; rfl) ?_
      cases c.hasCallback <;> rfl
  · next hr => cases hs; exact h.of_before rfl (by rw [hr]; rfl) rfl
  · next hr => cases hs; exact h.of_before rfl (by rw [hr]; rfl) rfl
  · next hr => cases hs; exact h.of_before rfl (by rw [hr]; rfl) rfl
  · next result hr =>
    cases hs
    have hne := h.before (by rw [hr]; rfl)
    cases hclosed : c.isClosed with
    | true =>
      -- Another was first, and the reader is at its end at once.
      rw [isClosed_eq] at hclosed
      obtain ⟨closer, hc⟩ := Option.isSome_iff_exists.1 hclosed
      have hother : closer ≠ .reader := fun heq => hne (heq ▸ hc)
      refine ⟨fun hd => (by cases hd), fun _ hd => (by cases hd), fun _ _ => Or.inr ?_⟩
      refine ⟨closer, hother, ?_⟩
      have hnext := (beginClose_next (e := .reader .close) rfl c).closer?_eq
      rwa [hc, Option.some_or] at hnext
    | false =>
      refine ⟨fun hd => (by cases hd), fun _ _ => ?_, fun _ hd => (by cases hd)⟩
      simp [beginClose, hclosed, Closing.closer?]
  · next result hr =>
    split at hs
    · next hover =>
      cases hs
      exact ⟨fun hd => (by cases hd), fun _ hd => (by cases hd), fun _ _ => Or.inl hover⟩
    · cases hs
  · cases hs

theorem step (h : c.ReaderCloses) (hs : c.step e = some d) : d.ReaderCloses := by
  rcases step_reader hs with ⟨heq, hcloser⟩ | ⟨e', -, hreader⟩
  · exact h.of_reader_eq (step_closing hs) hcloser heq
  · exact h.stepReader hreader

end ReaderCloses

/-- What the reader has to do with the closing in every reachable state. -/
theorem readerCloses (h : (machine options).Reachable c) : c.ReaderCloses := by
  induction h with
  | start =>
    constructor
    · intro _ h
      cases h
    · intro result h
      cases h
    · intro result h
      cases h
  | step _ hs ih => exact ih.step hs

/-! ## After the closing -/

theorem stepRequest_writes {t : Ticket} {r : Request} {e : RequestEvent}
    (h : c.stepRequest t r e = some d) : d.writes = c.writes := by
  have hw : ∀ (c : Connection) (id : MessageId), (c.withdraw id).writes = c.writes := by
    intro c id
    unfold withdraw
    split <;> rfl
  unfold stepRequest at h
  split at h
  · split at h <;> cases h <;> rfl
  · cases h; rfl
  · split at h
    · cases h; rfl
    · split at h <;> cases h; rfl
  · cases h; exact hw ..
  · split at h <;> cases h <;> rfl
  · split at h <;> cases h; rfl
  · split at h
    · cases h; exact hw ..
    · cases h; rfl
  · split at h <;> cases h <;> rfl
  · cases h

theorem beginClose_writes (c : Connection) (closer : Closer) :
    (c.beginClose closer).writes = c.writes := by
  unfold beginClose
  split <;> rfl

theorem stepWriter_writes {e : WriterEvent} (h : c.stepWriter e = some d) : d.writes = c.writes := by
  unfold stepWriter at h
  split at h
  all_goals first
    | (cases h; done)
    | (cases h; exact beginClose_writes c .writer)
    | (cases h; rfl)
    | (split at h <;> cases h; rfl)

theorem stepReader_writes {e : ReaderEvent} (h : c.stepReader e = some d) : d.writes = c.writes := by
  unfold stepReader at h
  split at h
  all_goals first
    | (cases h; done)
    | (cases h; exact beginClose_writes c .reader)
    | (cases h; rfl)
    | (cases h; unfold dispatchUnclaimed; split <;> rfl)
    | (cases h; unfold fill; split; · rfl
       · split <;> rfl)
    | (split at h <;> cases h; rfl)

/-- Where a write comes from: it was there before, its caller has taken the step, or it is begun. -/
theorem step_writes (h : c.step e = some d) {n : Nat} {w : Write} (hw : d.writes[n]? = some w) :
    c.writes[n]? = some w ∨
      (∃ w' e', e = .writing n e' ∧ c.writes[n]? = some w' ∧ c.stepWrite n w' e' = some d) ∨
      w.stage = .entered := by
  cases e with
  | send m => cases h; exact Or.inl hw
  | request t e =>
    obtain ⟨r, -, hs⟩ := Option.bind_eq_some_iff.1 h
    rw [stepRequest_writes hs] at hw
    exact Or.inl hw
  | write bytes =>
    cases h
    change (c.writes ++ [⟨bytes, .entered⟩])[n]? = some w at hw
    rw [List.getElem?_append] at hw
    split at hw
    · exact Or.inl hw
    · obtain rfl := List.mem_singleton.1 (List.mem_of_getElem? hw)
      exact Or.inr (Or.inr rfl)
  | writing k e =>
    obtain ⟨w', hw', hs⟩ := Option.bind_eq_some_iff.1 h
    by_cases hk : k = n
    · subst hk
      exact Or.inr (Or.inl ⟨w', e, rfl, hw', hs⟩)
    · refine Or.inl ?_
      unfold stepWrite at hs
      split at hs
      · cases hs
        simpa [setWrite, hk] using hw
      · split at hs
        · cases hs
          simpa [setWrite, hk] using hw
        · split at hs <;> cases hs
          simpa [setWrite, enqueue, hk] using hw
      · cases hs
  | close =>
    cases h
    rw [beginClose_writes] at hw
    exact Or.inl hw
  | closing e =>
    change c.stepClosing e = some d at h
    unfold stepClosing at h
    split at h <;> cases h <;> exact Or.inl hw
  | writer e =>
    rw [stepWriter_writes h] at hw
    exact Or.inl hw
  | reader e =>
    rw [stepReader_writes h] at hw
    exact Or.inl hw

/-- What comes of those who begin after a connection was closed. -/
structure Shut (c d : Connection) : Prop where
  closed : d.isClosed = true
  /-- Every request comes back at once, and there is no response. -/
  requests : ∀ (t : Ticket) r, c.requests.length ≤ t → d.requests[t]? = some r →
    r.stage = .ended (.error .closed)
  /-- Once the queue cannot be got hold of, no write gets further than finding that out. -/
  writes : c.closing.hasQueue = false → d.closing.hasQueue = false ∧
    ∀ (n : Nat) w, c.writes.length ≤ n → d.writes[n]? = some w →
      w.stage = .entered ∨ w.stage = .ended (.error .closed)

namespace Shut

variable {u : Connection}

theorem refl (h : c.isClosed = true) : Shut c c where
  closed := h
  requests t r ht hr := by
    rw [List.getElem?_eq_none ht] at hr
    cases hr
  writes hq := by
    refine ⟨hq, fun n w hn hw => ?_⟩
    rw [List.getElem?_eq_none hn] at hw
    cases hw

theorem step (h : Shut c d) (hs : d.step e = some u) : Shut c u where
  closed := (step_closing hs).isFlagged_of h.closed
  requests t r ht hr := by
    rcases (step_books hs).origin hr with ⟨r', hr', hch⟩ | ⟨hnone, m, stage, rfl, -, rfl⟩
    · have hstage := h.requests t r' ht hr'
      rw [← hstage]
      exact (hch.of_isOver (by simp [Request.isOver, Request.result?, hstage])).1
    · cases hs
      have hge : d.requests.length ≤ t := List.getElem?_eq_none_iff.1 hnone
      change (d.requests ++ [_])[t]? = some _ at hr
      rw [List.getElem?_append_right hge] at hr
      have hnew := List.mem_singleton.1 (List.mem_of_getElem? hr)
      exact (congrArg Request.stage hnew).trans (if_pos h.closed)
  writes hq := by
    obtain ⟨hqueue, hw⟩ := h.writes hq
    refine ⟨(step_closing hs).hasQueue_of hqueue, fun n w hn hwn => ?_⟩
    rcases step_writes hs hwn with hold | ⟨w', e', rfl, hw', hstep⟩ | hnew
    · exact hw n w hn hold
    · rcases hw n w' hn hw' with hent | hend
      · cases e' with
        | reach =>
          simp only [stepWrite, hent, hqueue, Option.some.injEq] at hstep
          subst hstep
          have hlt := (List.getElem?_eq_some_iff.1 hw').1
          simp only [setWrite, List.getElem?_set_self hlt] at hwn
          cases hwn
          exact Or.inr rfl
        | queue => simp [stepWrite, hent] at hstep
      · cases e' <;> simp [stepWrite, hend] at hstep
    · exact Or.inl hnew

end Shut

/-- **What comes of requests and writes on a closed connection.** -/
theorem shut_of_run (h : c.isClosed = true) (hrun : c.run events = some d) : Shut c d :=
  kept_of_run (fun _ _ _ => Shut.step) (.refl h) hrun

end Connection

end ClusterLink
