import ClusterLink.Proofs.Connection.Progress
/-!
# Slots that others take away

A request takes away whatever waits under its id in two cases: its frame could not be queued, or its
time is up. It does not ask whether that is its own slot. If the reader has taken the own one and
another request has registered the id since, the other request is deprived: nobody will fill its
slot, and once it looks it comes back closed, however long it could have waited.

Results:
* `Connection.removed_iff_deprives`: no request takes another's slot away in any other way.
* `Connection.showsLosses_of_run`: how a loss shows in a request, whatever else happens.
* `Connection.closed_iff_deprived`: the queued requests that come back closed are those that were
  deprived before their own time was up.
* `Connection.not_deprives_of_distinct`: with different ids in flight nobody is deprived.
-/
namespace ClusterLink

/-- Whether a request is about to take away what waits under its id, and by which step. -/
inductive Request.Clears (r : Request) : RequestEvent → Prop
  | refused (hs : r.stage = .refused) : Clears r .withdraw
  | overdue (hs : r.stage = .overdue) : Clears r .giveUp

theorem Request.Clears.isOver_eq_false {r : Request} {x : RequestEvent} (h : r.Clears x) :
    r.isOver = false := by
  cases h with
  | refused hs => simp [isOver, result?, hs]
  | overdue hs => simp [isOver, result?, hs]

namespace Connection

variable {options : ConnectionOptions} {c d : Connection} {t u : Ticket} {r q : Request}
  {x : RequestEvent} {e : ConnectionEvent} {events : List ConnectionEvent} {id : MessageId}

/-! ## What is taken away -/

/-- A step takes away what waits under its request's id, and that is another request's slot. -/
def Deprives (c : Connection) (t : Ticket) (x : RequestEvent) (u : Ticket) : Prop :=
  u ≠ t ∧ ∃ r, c.requests[t]? = some r ∧ r.Clears x ∧ c.waiting? r.message.id = some u

/-- What a request that is about to do so does to the slots. -/
theorem books_of_clears (h : r.Clears x) (hr : c.requests[t]? = some r)
    (hw : (c.waiting? r.message.id).isSome = true) (hs : c.step (.request t x) = some d) :
    ∃ stage, d.books.requests = ((c.books.setStage t r stage).withdraw r.message.id).requests ∧
      d.books.pending = ((c.books.setStage t r stage).withdraw r.message.id).pending := by
  obtain ⟨r', hr', hs⟩ := Option.bind_eq_some_iff.1 hs
  cases hr.symm.trans hr'
  cases h with
  | refused hst =>
    simp only [stepRequest, hst, Option.some.injEq] at hs
    rw [← hs, books_withdraw]
    exact ⟨_, rfl, rfl⟩
  | overdue hst =>
    simp only [stepRequest, hst, hw, if_true, Option.some.injEq] at hs
    rw [← hs, books_expire, books_withdraw]
    exact ⟨_, rfl, rfl⟩

/-- A request takes another's slot away exactly if it deprives it. -/
theorem removed_iff_deprives (hc : (machine options).Reachable c)
    (hs : c.step (.request t x) = some d) (hu : u ≠ t) (hmem : (id, u) ∈ c.pending) :
    (id, u) ∉ d.pending ↔ c.Deprives t x u := by
  have hco := coherent hc
  have hmem' : (id, u) ∈ c.books.pending := hmem
  constructor
  · intro hgone
    have hb := step_books hs
    have hgone' : (id, u) ∉ d.books.pending := hgone
    generalize d.books = b' at hb hgone'
    cases hb with
    | aside => exact absurd hmem' hgone'
    | move => exact absurd hmem' hgone'
    | register => exact absurd (List.mem_append_left _ hmem') hgone'
    | @withdraw _ r hr hst =>
      have hid : id = r.message.id :=
        Decidable.byContradiction fun hid => hgone' (Books.mem_pending_withdraw.2 ⟨hmem', hid⟩)
      subst hid
      exact ⟨hu, r, hr, .refused hst, Books.waiting?_of_mem hco.keys hmem'⟩
    | @giveUp _ r _ hr hst hw =>
      have hid : id = r.message.id :=
        Decidable.byContradiction fun hid => hgone' (Books.mem_pending_giveUp.2 ⟨hmem', hid⟩)
      subst hid
      exact ⟨hu, r, hr, .overdue hst, Books.waiting?_of_mem hco.keys hmem'⟩
  · rintro ⟨-, r, hr, hclears, hw⟩ hkept
    obtain ⟨stage, -, hp⟩ := books_of_clears hclears hr (by rw [hw]; rfl) hs
    have hkept' : (id, u) ∈ ((c.books.setStage t r stage).withdraw r.message.id).pending := by
      rw [← hp]
      exact hkept
    obtain ⟨-, hne⟩ := Books.mem_pending_withdraw.1 hkept'
    obtain ⟨q, hq, hid, -⟩ := hco.waiting id u hmem'
    obtain ⟨q', hq', hid', -⟩ := hco.waiting r.message.id u (Books.mem_of_waiting? hw)
    cases hq.symm.trans hq'
    exact hne (hid.symm.trans hid')

/-- What a request is deprived of is the empty slot of a request in flight with the same id, and the
own slot of the one who does it does not wait any more. -/
theorem Deprives.waits (hc : (machine options).Reachable c) (h : c.Deprives t x u) :
    ∃ r q, c.requests[t]? = some r ∧ r.Clears x ∧ (r.message.id, t) ∉ c.pending ∧
      c.requests[u]? = some q ∧ q.message.id = r.message.id ∧ q.slot = .vacant ∧
      q.isRegistered = true ∧ q.stage ≠ .missed := by
  obtain ⟨hu, r, hr, hclears, hw⟩ := h
  have hco := coherent hc
  obtain ⟨q, hq, hid, hv, hreg, hne⟩ := hco.waiting _ u (Books.mem_of_waiting? hw)
  refine ⟨r, q, hr, hclears, fun hmem => ?_, hq, hid, hv, hreg, hne⟩
  have ht := Books.waiting?_of_mem (b := c.books) hco.keys hmem
  exact hu (Option.some.inj (hw.symm.trans ht))

/-- The slot of a request that is deprived is abandoned. -/
theorem Deprives.abandons (h : c.Deprives t x u) (hs : c.step (.request t x) = some d)
    (hq : c.requests[u]? = some q) : d.requests[u]? = some q.abandon := by
  obtain ⟨hu, r, hr, hclears, hw⟩ := h
  obtain ⟨stage, hreq, -⟩ := books_of_clears hclears hr (by rw [hw]; rfl) hs
  change d.books.requests[u]? = _
  rw [hreq, Books.getElem?_withdraw, Books.setStage, c.books.getElem?_setRequest t u _ q hq,
    Books.waiting?_setRequest, if_neg (Ne.symm hu)]
  have hw' : c.books.waiting? r.message.id = some u := hw
  rw [if_pos hw', Option.map_some]

/-- With different ids in flight nobody is deprived. -/
theorem not_deprives_of_distinct (hc : (machine options).Reachable c)
    (hd : c.books.DistinctInFlight) : ¬c.Deprives t x u := by
  intro h
  obtain ⟨r, q, hr, hclears, -, hq, hid, -, hreg, -⟩ := h.waits hc
  exact h.1 (hd.eq (b := c.books) hq hr (Request.isOver_of_isRegistered hreg)
    hclears.isOver_eq_false hid)

/-! ## In the course of a run -/

/-- In the course of some events, another request takes a request's slot away whose own time is not
up. -/
def DeprivedDuring (options : ConnectionOptions) (events : List ConnectionEvent) (u : Ticket) :
    Prop :=
  ∃ before t x after b q, events = before ++ .request t x :: after ∧
    (new options).run before = some b ∧ b.Deprives t x u ∧ b.requests[u]? = some q ∧
    q.stage ≠ .overdue

theorem deprivedDuring_concat : DeprivedDuring options (events ++ [e]) u ↔
    DeprivedDuring options events u ∨ ∃ t x b q, e = .request t x ∧
      (new options).run events = some b ∧ b.Deprives t x u ∧ b.requests[u]? = some q ∧
      q.stage ≠ .overdue := by
  constructor
  · rintro ⟨before, t, x, after, b, q, heq, hrun, hrest⟩
    rcases List.eq_nil_or_concat after with rfl | ⟨later, e', rfl⟩
    · obtain ⟨rfl, he⟩ := List.append_inj' heq rfl
      exact Or.inr ⟨t, x, b, q, List.singleton_inj.1 he, hrun, hrest⟩
    · rw [List.concat_eq_append, ← List.cons_append, ← List.append_assoc] at heq
      obtain ⟨rfl, -⟩ := List.append_inj' heq rfl
      exact Or.inl ⟨before, t, x, later, b, q, rfl, hrun, hrest⟩
  · rintro (⟨before, t, x, after, b, q, rfl, hrun, hrest⟩ | ⟨t, x, b, q, rfl, hrun, hrest⟩)
    · exact ⟨before, t, x, after ++ [e], b, q, by simp, hrun, hrest⟩
    · exact ⟨events, t, x, [], b, q, rfl, hrun, hrest⟩

theorem DeprivedDuring.exists (hrun : (new options).run events = some c)
    (h : DeprivedDuring options events u) : ∃ q, c.requests[u]? = some q := by
  obtain ⟨before, t, x, after, b, q, rfl, hb, -, hq, -⟩ := h
  rw [run_append_eq hb] at hrun
  obtain ⟨q', hq', -⟩ := (later_of_run (timely (reachable_of_run .start hb)) hrun).kept u q hq
  exact ⟨q', hq'⟩

theorem not_deprivedDuring_of_distinct (hrun : (new options).run events = some c)
    (hd : (machine options).Along (fun u => u.books.DistinctInFlight) (new options) events) :
    ¬DeprivedDuring options events u := by
  rintro ⟨before, t, x, after, b, q, rfl, hb, hdep, -⟩
  rw [← run_machine options] at hb
  exact not_deprives_of_distinct (Machine.Reachable.start.run hb) (hd.of_append hb) hdep

end Connection

/-- How it shows in a request that its slot was taken away. `deprived` says that another request did
it before the request's own time was up. -/
structure Request.Shows (q : Request) (deprived : Prop) : Prop where
  abandoned : q.slot = .abandoned → q.stage = .overdue ∨ q.stage = .missed ∨ q.timedOut = true ∨
    (q.sent = false ∧ q.isOver = true) ∨ deprived
  closed : q.sent = true → q.stage = .ended (.error .closed) → q.slot = .abandoned
  deprived : deprived → q.slot = .abandoned ∧ q.stage ≠ .overdue ∧ q.stage ≠ .missed ∧
    ∀ result, q.result? = some result → result = .error .closed

namespace Request.Shows

variable {isOpen : Bool} {b : Books} {e : ConnectionEvent} {u : Ticket} {q q' : Request}
  {deprived deprived' : Prop}

theorem abandoned_change (h : q.Shows deprived) (hc : b.Coherent) (ht : q.Timely)
    (hq : b.requests[u]? = some q) (hch : q.Change isOpen b e u q') (hkeep : deprived → deprived')
    (hnew : ∀ t x r, u ≠ t → b.requests[t]? = some r → e = .request t x → r.Clears x →
      b.waiting? r.message.id = some u → q.stage ≠ .overdue → deprived')
    (hs : q'.slot = .abandoned) :
    q'.stage = .overdue ∨ q'.stage = .missed ∨ q'.timedOut = true ∨
      (q'.sent = false ∧ q'.isOver = true) ∨ deprived' := by
  cases hch with
  | keep =>
    rcases h.abandoned hs with ho | hm | ht | hr | hp
    · exact Or.inl ho
    · exact Or.inr (Or.inl hm)
    · exact Or.inr (Or.inr (Or.inl ht))
    · exact Or.inr (Or.inr (Or.inr (Or.inl hr)))
    · exact Or.inr (Or.inr (Or.inr (Or.inr (hkeep hp))))
  | move he hm =>
    have hover := hm.isOver_eq_false
    rw [hm.slot_eq] at hs
    rcases h.abandoned hs with hst | hst | ht | ⟨-, ho⟩ | hp
    · cases hm <;> simp_all
    · cases hm <;> simp_all [Request.timedOut]
    · rw [Request.isOver_of_timedOut ht] at hover
      cases hover
    · rw [ho] at hover
      cases hover
    · exact Or.inr (Or.inr (Or.inr (Or.inr (hkeep hp))))
  | register he hst hw =>
    have hv := hc.entered u q hq hst
    rw [show q.slot = .abandoned from hs] at hv
    cases hv
  | withdraw he hst hr' =>
    have hsent : q.sent = false := ht.unqueued (by simp [isUnqueued, hst])
    refine Or.inr (Or.inr (Or.inr (Or.inl ?_)))
    subst hr'
    split
    · rw [sent_abandon, isOver_abandon]
      exact ⟨hsent, rfl⟩
    · exact ⟨hsent, rfl⟩
  | giveUp d he hst hw hr' => subst hr'; split <;> simp [Request.timedOut]
  | @robbed t r htu hr hby hw =>
    rw [Request.stage_abandon]
    by_cases ho : q.stage = .overdue
    · exact Or.inl ho
    refine Or.inr (Or.inr (Or.inr (Or.inr ?_)))
    rcases hby with ⟨he, hst⟩ | ⟨he, hst⟩
    · exact hnew t _ r (Ne.symm htu) hr he (.overdue hst) hw ho
    · exact hnew t _ r (Ne.symm htu) hr he (.refused hst) hw ho
  | fill => cases hs

theorem closed_change (h : q.Shows deprived) (ht : q.Timely) (hch : q.Change isOpen b e u q')
    (hsent : q'.sent = true) (hst : q'.stage = .ended (.error .closed)) : q'.slot = .abandoned := by
  cases hch with
  | keep => exact h.closed hsent hst
  | move he hm => cases hm <;> simp_all
  | register => cases hst
  | withdraw he hst' hr' =>
    have hunsent : q.sent = false := ht.unqueued (by simp [isUnqueued, hst'])
    subst hr'
    split at hsent
    · rw [sent_abandon] at hsent
      cases hsent.symm.trans hunsent
    · cases hsent.symm.trans hunsent
  | giveUp d he hst' hw hr' => subst hr'; split at hst <;> simp at hst
  | robbed htu hr hby hw =>
    rw [Request.sent_abandon] at hsent
    rw [Request.stage_abandon] at hst
    simp [Request.abandon, h.closed hsent hst]
  | fill he hh ho => simp [Request.isOver, Request.result?, show q.stage = _ from hst] at ho

theorem deprived_change (h : q.Shows deprived) (hc : b.Coherent) (hq : b.requests[u]? = some q)
    (hch : q.Change isOpen b e u q') (hp : deprived) :
    q'.slot = .abandoned ∧ q'.stage ≠ .overdue ∧ q'.stage ≠ .missed ∧
      ∀ result, q'.result? = some result → result = .error .closed := by
  obtain ⟨hs, ho, hm, hres⟩ := h.deprived hp
  cases hch with
  | keep => exact ⟨hs, ho, hm, hres⟩
  | move he hmove =>
    have hent := hc.entered u q hq
    cases hmove <;> simp_all [Request.result?]
  | register he hst hw =>
    rw [hc.entered u q hq hst] at hs
    cases hs
  | withdraw he hst hr' => subst hr'; split <;> simp_all [Request.abandon, Request.result?]
  | giveUp d he hst => exact absurd hst ho
  | robbed => simp_all [Request.abandon]
  | fill he hh hno =>
    obtain ⟨⟨r, hr, -, hv, -⟩, -⟩ := hc.claimed _ u hh
    cases hq.symm.trans hr
    rw [hs] at hv
    cases hv

end Request.Shows

namespace Connection

variable {options : ConnectionOptions} {c d : Connection} {t u : Ticket} {r q : Request}
  {e : ConnectionEvent} {events : List ConnectionEvent}

/-- How losses show in the requests of a connection. -/
def ShowsLosses (options : ConnectionOptions) (events : List ConnectionEvent) (c : Connection) :
    Prop :=
  ∀ (u : Ticket) q, c.requests[u]? = some q → q.Shows (DeprivedDuring options events u)

theorem showsLosses_of_run (hrun : (new options).run events = some c) :
    ShowsLosses options events c := by
  rw [← run_machine options] at hrun
  refine @Machine.run_induction _ _ _ (ShowsLosses options) _ _ ?_ ?_ _ hrun
  · intro u q hq
    cases hq
  · intro es c e d hrun ih hs u q' hq'
    have hreach : (machine options).Reachable c := Machine.Reachable.start.run hrun
    have hco := coherent hreach
    rw [run_machine] at hrun
    rcases (step_books hs).origin hq' with ⟨q, hq, hch⟩ | ⟨hnone, m, stage, -, hst, rfl⟩
    · have h := ih u q hq
      have ht := timely hreach u q hq
      refine ⟨?_, h.closed_change ht hch, fun hdep => ?_⟩
      · refine h.abandoned_change hco ht hq hch
          (fun hdep => deprivedDuring_concat.2 (Or.inl hdep)) fun t x r hut hr he hclears hw hne => ?_
        subst he
        exact deprivedDuring_concat.2
          (Or.inr ⟨t, x, c, q, rfl, hrun, ⟨hut, r, hr, hclears, hw⟩, hq, hne⟩)
      · rcases deprivedDuring_concat.1 hdep with hdep | ⟨t, x, b, q₁, rfl, hb', hdep, hq₁, hne⟩
        · exact h.deprived_change hco hq hch hdep
        · cases hrun.symm.trans hb'
          cases hq₁.symm.trans hq
          cases (hdep.abandons hs hq).symm.trans hq'
          obtain ⟨-, q₂, -, -, -, hq₂, -, hv, hreg, hmiss⟩ := hdep.waits hreach
          cases hq₂.symm.trans hq
          refine ⟨Request.slot_abandon_of_vacant hv, by simpa, by simpa, fun result hres => ?_⟩
          have hover := Request.isOver_of_isRegistered hreg
          rw [← Request.isOver_abandon, Request.isOver, hres] at hover
          cases hover
    · have hno : ¬DeprivedDuring options (es ++ [e]) u := by
        intro hdep
        rcases deprivedDuring_concat.1 hdep with hdep | ⟨t, x, b, q₁, rfl, hb', -, hq₁, -⟩
        · obtain ⟨q, hq⟩ := hdep.exists hrun
          cases hnone.symm.trans hq
        · cases hrun.symm.trans hb'
          cases hnone.symm.trans hq₁
      exact ⟨fun hs => by (cases hs), fun hsent => by (cases hsent), fun hdep => absurd hdep hno⟩

/-- **Who comes back closed.** A request whose frame was queued ends with a frame that carries its
id, with its timeout, or closed, whether the connection is open or not; and it ends closed exactly if
another request took its slot away before its own time was up. -/
theorem closed_iff_deprived (hrun : (new options).run events = some c) (hq : c.requests[u]? = some q)
    (hsent : q.sent = true) {result : Except ConnectionError Arrival}
    (hres : q.result? = some result) :
    ((∃ a, result = .ok a ∧ a.message.id = q.message.id) ∨
      (∃ d, result = .error (.timeout q.message.id d)) ∨ result = .error .closed) ∧
    (result = .error .closed ↔ DeprivedDuring options events u) := by
  have hc := reachable_of_run .start hrun
  have hst := Request.stage_of_result hres
  have hshows := showsLosses_of_run hrun u q hq
  refine ⟨?_, fun hclosed => ?_, fun hdep => (hshows.deprived hdep).2.2.2 result hres⟩
  · cases result with
    | ok a =>
      have hslot := (coherent hc).answered u q a hq hst
      exact Or.inl ⟨a, rfl, ((coherent hc).filled u q a hq hslot).2.1.symm⟩
    | error e =>
      rcases (timely hc u q hq).failed e hst hsent with rfl | ⟨d, rfl⟩
      · exact Or.inr (Or.inr rfl)
      · exact Or.inr (Or.inl ⟨d, rfl⟩)
  · subst hclosed
    rcases hshows.abandoned (hshows.closed hsent hst) with h | h | h | ⟨h, -⟩ | h
    · cases hst.symm.trans h
    · cases hst.symm.trans h
    · simp [Request.timedOut, hst] at h
    · cases hsent.symm.trans h
    · exact h

end Connection

end ClusterLink
