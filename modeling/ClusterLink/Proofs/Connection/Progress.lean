import ClusterLink.Proofs.Connection.Slots
/-!
# How requests come along

A request keeps its message for ever and its result once it has one; it is queued at most once, and
from then on stays queued. A request that was registered later than some frames came in carries that
in its books.

Results:
* `Books.Step.origin`: where a request stands after a step comes from where it stood before.
* `Connection.timely`: in every reachable state a request is queued exactly if its stage says so.
* `Books.Later.of_run`: what a whole run keeps of requests and frames.
-/
namespace ClusterLink

namespace Request

variable {r r' : Request}

/-- Whether the frame cannot have been queued yet. -/
def isUnqueued (r : Request) : Bool :=
  match r.stage with
  | .entered | .registered | .holding | .refused => true
  | _ => false

/-- Whether the frame was queued and the caller is still there. -/
def isQueued (r : Request) : Bool :=
  match r.stage with
  | .waiting | .overdue | .missed => true
  | _ => false

/-- Whether the request came back because its time was up. -/
def timedOut (r : Request) : Bool :=
  match r.stage with
  | .ended (.error (.timeout ..)) => true
  | _ => false

theorem isOver_of_timedOut (h : r.timedOut = true) : r.isOver = true := by
  unfold timedOut at h
  unfold isOver result?
  split at h
  · next hs => rw [hs]; rfl
  · cases h

/-- The frame was queued exactly if the stage says so. A response or a timeout is only for a frame
that was queued. -/
structure Timely (r : Request) : Prop where
  unqueued : r.isUnqueued = true → r.sent = false
  queued : r.isQueued = true → r.sent = true
  answered : ∀ a, r.stage = .ended (.ok a) → r.sent = true
  late : ∀ id d, r.stage = .ended (.error (.timeout id d)) → r.sent = true ∧ id = r.message.id
  failed : ∀ e, r.stage = .ended (.error e) → r.sent = true →
    e = .closed ∨ ∃ d, e = .timeout r.message.id d

theorem Timely.abandon (h : r.Timely) : r.abandon.Timely := by
  obtain ⟨h₁, h₂, h₃, h₄, h₅⟩ := h
  constructor <;> simpa [isUnqueued, isQueued]

theorem timely_new (m : Message) {stage : RequestStage}
    (hs : stage = .entered ∨ stage = .ended (.error .closed)) : Timely { message := m, stage } := by
  rcases hs with rfl | rfl <;> constructor <;> simp [isUnqueued, isQueued]

namespace Move

variable {isOpen : Bool} {waiting : Option Ticket} {e : RequestEvent}

theorem timely (h : r.Move isOpen waiting e r') (ht : r.Timely) : r'.Timely := by
  obtain ⟨h₁, h₂, h₃, h₄, h₅⟩ := ht
  cases h <;> constructor <;> simp_all [isUnqueued, isQueued]

theorem isOver_eq_false (h : r.Move isOpen waiting e r') : r.isOver = false := by
  cases h <;> simp_all [isOver, result?]

end Move

namespace Change

variable {isOpen : Bool} {b : Books} {e : ConnectionEvent} {t : Ticket}

theorem message_eq (h : r.Change isOpen b e t r') : r'.message = r.message := by
  cases h with
  | move he hm => exact hm.message_eq
  | withdraw he hs hr' => subst hr'; split <;> simp
  | giveUp d he hs hw hr' => subst hr'; split <;> simp
  | _ => simp

/-- A result is for ever. -/
theorem of_isOver (h : r.Change isOpen b e t r') (ho : r.isOver = true) :
    r'.stage = r.stage ∧ r'.sent = r.sent := by
  cases h with
  | move he hm => rw [hm.isOver_eq_false] at ho; cases ho
  | register he hs hw => simp [isOver, result?, hs] at ho
  | withdraw he hs hr' => simp [isOver, result?, hs] at ho
  | giveUp d he hs hw hr' => simp [isOver, result?, hs] at ho
  | fill he hh ho' => rw [ho'] at ho; cases ho
  | _ => simp

theorem since_eq (h : r.Change isOpen b e t r') (hs : r.stage ≠ .entered) : r'.since = r.since := by
  cases h with
  | move he hm => exact hm.since_eq
  | register he hs' hw => exact absurd hs' hs
  | withdraw he hs hr' => subst hr'; split <;> simp
  | giveUp d he hs hw hr' => subst hr'; split <;> simp
  | _ => simp

theorem stage_ne_entered (h : r.Change isOpen b e t r') (hs : r.stage ≠ .entered) :
    r'.stage ≠ .entered := by
  cases h with
  | move he hm => exact hm.stage_ne_entered
  | withdraw he hs hr' => subst hr'; split <;> simp
  | giveUp d he hs hw hr' => subst hr'; split <;> simp
  | register he hs' hw => exact absurd hs' hs
  | _ => simpa

/-- No slot is emptied. -/
theorem vacant_of (h : r.Change isOpen b e t r') (hv : r'.slot = .vacant) : r.slot = .vacant := by
  cases h with
  | keep => exact hv
  | move he hm => rw [← hm.slot_eq]; exact hv
  | register he hs hw => exact hv
  | withdraw he hs hr' =>
    subst hr'
    split at hv
    · exact absurd hv (slot_abandon_ne_vacant _)
    · exact hv
  | giveUp d he hs hw hr' =>
    subst hr'
    split at hv
    · exact absurd hv (slot_abandon_ne_vacant _)
    · exact hv
  | robbed hu hq he hw => exact absurd hv (slot_abandon_ne_vacant _)
  | fill he hh ho => cases hv

theorem timely (h : r.Change isOpen b e t r') (ht : r.Timely) : r'.Timely := by
  cases h with
  | keep => exact ht
  | move he hm => exact hm.timely ht
  | register he hs hw =>
    obtain ⟨h₁, h₂, h₃, h₄, h₅⟩ := ht
    constructor <;> simp_all [isUnqueued, isQueued]
  | withdraw he hs hr' =>
    have hend : Timely { r with stage := .ended (.error .closed) } := by
      constructor <;> simp [isUnqueued, isQueued]
    subst hr'
    split
    · exact hend.abandon
    · exact hend
  | giveUp d he hs hw hr' =>
    have hend : Timely { r with stage := .ended (.error (.timeout r.message.id d)) } := by
      have hsent := ht.queued (by simp [isQueued, hs])
      constructor <;> simp_all [isUnqueued, isQueued]
    subst hr'
    split
    · exact hend.abandon
    · exact hend
  | robbed hu hq he hw => exact ht.abandon
  | fill he hh ho => exact ⟨ht.unqueued, ht.queued, ht.answered, ht.late, ht.failed⟩

end Change

end Request

/-- What is known of a request later on. -/
structure Request.Becomes (r r' : Request) : Prop where
  message : r'.message = r.message
  /-- A result is for ever. -/
  final : r.isOver = true → r'.stage = r.stage ∧ r'.sent = r.sent
  since : r.stage ≠ .entered → r'.stage ≠ .entered ∧ r'.since = r.since
  vacant : r'.slot = .vacant → r.slot = .vacant

namespace Request

variable {isOpen : Bool} {b : Books} {e : ConnectionEvent} {t : Ticket} {r r' r'' : Request}

theorem Becomes.refl (r : Request) : r.Becomes r :=
  ⟨rfl, fun _ => ⟨rfl, rfl⟩, fun hs => ⟨hs, rfl⟩, id⟩

theorem Becomes.isOver (h : r.Becomes r') (ho : r.isOver = true) : r'.isOver = true := by
  simpa [Request.isOver, Request.result?, (h.final ho).1] using ho

theorem Becomes.trans (h : r.Becomes r') (h' : r'.Becomes r'') : r.Becomes r'' where
  message := h'.message.trans h.message
  final ho := by
    obtain ⟨h₁, h₂⟩ := h.final ho
    obtain ⟨h₃, h₄⟩ := h'.final (h.isOver ho)
    exact ⟨h₃.trans h₁, h₄.trans h₂⟩
  since hs := by
    obtain ⟨h₁, h₂⟩ := h.since hs
    obtain ⟨h₃, h₄⟩ := h'.since h₁
    exact ⟨h₃, h₄.trans h₂⟩
  vacant hv := h.vacant (h'.vacant hv)

theorem Change.becomes (h : r.Change isOpen b e t r') : r.Becomes r' :=
  ⟨h.message_eq, h.of_isOver, fun hs => ⟨h.stage_ne_entered hs, h.since_eq hs⟩, h.vacant_of⟩

end Request

namespace Books

variable {isOpen : Bool} {b b' z : Books} {e : ConnectionEvent} {t : Ticket} {r r' : Request}

theorem length_requests_withdraw (b : Books) (id : MessageId) :
    (b.withdraw id).requests.length = b.requests.length := by
  unfold withdraw
  split
  · exact List.length_modify ..
  · rfl

/-- A request is made by being sent, or was there before. -/
theorem Step.origin (h : b.Step isOpen e b') (hr : b'.requests[t]? = some r') :
    (∃ r, b.requests[t]? = some r ∧ r.Change isOpen b e t r') ∨
      b.requests[t]? = none ∧ ∃ m stage, e = .send m ∧
        (stage = .entered ∨ stage = .ended (.error .closed)) ∧ r' = { message := m, stage } := by
  cases hold : b.requests[t]? with
  | some r =>
    obtain ⟨r'', hr'', hch⟩ := h.change hold
    cases hr.symm.trans hr''
    exact Or.inl ⟨r, rfl, hch⟩
  | none =>
    refine Or.inr ⟨rfl, ?_⟩
    have hge := List.getElem?_eq_none_iff.1 hold
    have hlt := (List.getElem?_eq_some_iff.1 hr).1
    have habsurd : ∀ {n : Nat}, n = b.requests.length → t < n → False := by
      rintro _ rfl hn
      exact absurd hn (Nat.not_lt.2 hge)
    cases h with
    | @send m stage hs =>
      rw [List.length_append] at hlt
      obtain rfl : t = b.requests.length := Nat.le_antisymm (Nat.le_of_lt_succ hlt) hge
      rw [List.getElem?_concat_length] at hr
      exact ⟨m, stage, rfl, hs, (Option.some.inj hr).symm⟩
    | move | register | deliver => exact (habsurd (List.length_set ..) hlt).elim
    | withdraw =>
      exact (habsurd ((length_requests_withdraw _ _).trans (List.length_set ..)) hlt).elim
    | giveUp =>
      exact (habsurd ((length_requests_withdraw _ _).trans (List.length_set ..)) hlt).elim
    | _ => exact (habsurd rfl hlt).elim

/-- What holds of each new request and is kept by each change holds of all requests. -/
theorem Step.forall_requests {P : Ticket → Request → Prop} (h : b.Step isOpen e b')
    (hnew : ∀ (t : Ticket) (m : Message) (stage : RequestStage),
      stage = .entered ∨ stage = .ended (.error .closed) → P t { message := m, stage })
    (hch : ∀ t r r', b.requests[t]? = some r → r.Change isOpen b e t r' → P t r → P t r')
    (hb : ∀ (t : Ticket) r, b.requests[t]? = some r → P t r) :
    ∀ (t : Ticket) r, b'.requests[t]? = some r → P t r := by
  intro t r' hr'
  rcases h.origin hr' with ⟨r, hr, hc⟩ | ⟨-, m, stage, -, hs, rfl⟩
  · exact hch t r r' hr hc (hb t r hr)
  · exact hnew t m stage hs

/-- A request that has come back is left as it is. -/
theorem Step.kept_of_isOver (hs : b.Step isOpen e b') (hc : b.Coherent)
    (hr : b.requests[t]? = some r) (ho : r.isOver = true) : b'.requests[t]? = some r := by
  obtain ⟨r', hr', hch⟩ := hs.change hr
  have hover : ∀ {stage : RequestStage}, r.stage = stage →
      Request.isOver { r with stage } = true := by
    rintro _ rfl
    exact ho
  cases hch with
  | keep => exact hr'
  | move he hm => rw [hm.isOver_eq_false] at ho; cases ho
  | register he hst hw => cases hover hst
  | withdraw he hst => cases hover hst
  | giveUp d he hst => cases hover hst
  | robbed hu hq he hw =>
    obtain ⟨q, hq', -, -, hreg, -⟩ := hc.waiting _ t (mem_of_waiting? hw)
    cases hr.symm.trans hq'
    rw [Request.isOver_of_isRegistered hreg] at ho
    cases ho
  | fill he hh hno => rw [hno] at ho; cases ho

/-- No two requests that have not come back have the same id. -/
def DistinctInFlight (b : Books) : Prop :=
  ((b.requests.filter (!·.isOver)).map (·.message.id)).Nodup

instance (b : Books) : Decidable b.DistinctInFlight :=
  inferInstanceAs (Decidable (List.Nodup _))

theorem DistinctInFlight.eq (h : b.DistinctInFlight) (hr : b.requests[t]? = some r)
    (hq : b.requests[u]? = some q) (hro : r.isOver = false) (hqo : q.isOver = false)
    (hid : r.message.id = q.message.id) : t = u := by
  unfold DistinctInFlight at h
  rw [List.Nodup, List.pairwise_map, List.pairwise_filter, List.pairwise_iff_getElem] at h
  obtain ⟨ht, rfl⟩ := List.getElem?_eq_some_iff.1 hr
  obtain ⟨hu, rfl⟩ := List.getElem?_eq_some_iff.1 hq
  rcases Nat.lt_trichotomy t u with hlt | heq | hlt
  · exact absurd hid (h t u ht hu hlt (by simp [hro]) (by simp [hqo]))
  · exact heq
  · exact absurd hid.symm (h u t hu ht hlt (by simp [hqo]) (by simp [hro]))

/-! ## Whether a request is queued -/

/-- Every request is timely. -/
def Timely (b : Books) : Prop := ∀ (t : Ticket) r, b.requests[t]? = some r → r.Timely

theorem Timely.step (h : b.Timely) (hs : b.Step isOpen e b') : b'.Timely :=
  hs.forall_requests (fun _ m _ hstage => Request.timely_new m hstage)
    (fun _ _ _ _ hch hr => hch.timely hr) h

theorem arrivals_prefix_of_step (hs : b.Step isOpen e b') : b.arrivals <+: b'.arrivals := by
  cases hs with
  | withdraw => simp [setStage, setRequest]
  | giveUp => simp
  | arrive => exact List.prefix_append ..
  | _ => exact List.prefix_refl _

/-- A request that a step registers is registered after the frames that are here. -/
theorem Step.registered (h : b.Step isOpen e b') (hb : b.Timely) (hr : b'.requests[t]? = some r')
    (hnew : ∀ r, b.requests[t]? = some r → r.stage = .entered) :
    r'.stage = .entered ∨ (r'.isOver = true ∧ r'.sent = false) ∨ b.arrivals.length ≤ r'.since := by
  rcases h.origin hr with ⟨r, hold, hch⟩ | ⟨-, m, stage, -, hs, rfl⟩
  · have hst := hnew r hold
    have hsent := (hb t r hold).unqueued (by simp [Request.isUnqueued, hst])
    cases hch with
    | keep => exact Or.inl hst
    | move he hm => cases hm <;> simp_all [Request.isOver, Request.result?]
    | register he hs hw => exact Or.inr (Or.inr (Nat.le_refl _))
    | withdraw he hs hr' => rw [hst] at hs; cases hs
    | giveUp d he hs hw hr' => rw [hst] at hs; cases hs
    | robbed hu hq he hw => exact Or.inl (by simpa using hst)
    | fill he hh ho => exact Or.inl hst
  · rcases hs with rfl | rfl
    · exact Or.inl rfl
    · exact Or.inr (Or.inl ⟨rfl, rfl⟩)

/-! ## From one state to a later one -/

/-- What is known of later books: requests are kept, and those that were not registered yet are
registered after the frames that are here now, unless they come to nothing. -/
structure Later (b z : Books) : Prop where
  kept : ∀ (t : Ticket) r, b.requests[t]? = some r → ∃ r', z.requests[t]? = some r' ∧ r.Becomes r'
  registered : ∀ (t : Ticket) r', z.requests[t]? = some r' →
    (∀ r, b.requests[t]? = some r → r.stage = .entered) →
    r'.stage = .entered ∨ (r'.isOver = true ∧ r'.sent = false) ∨ b.arrivals.length ≤ r'.since
  arrivals : b.arrivals <+: z.arrivals

namespace Later

theorem refl (b : Books) : b.Later b where
  kept _ r hr := ⟨r, hr, .refl r⟩
  registered _ r hr hs := Or.inl (hs r hr)
  arrivals := List.prefix_refl _

theorem of_step (hb : b.Timely) (hs : b.Step isOpen e b') : b.Later b' where
  kept t r hr := by
    obtain ⟨r', hr', hch⟩ := hs.change hr
    exact ⟨r', hr', hch.becomes⟩
  registered t r' hr' hnew := hs.registered hb hr' hnew
  arrivals := arrivals_prefix_of_step hs

theorem trans (h : b.Later b') (h' : b'.Later z) : b.Later z where
  kept t r hr := by
    obtain ⟨r', hr', hb⟩ := h.kept t r hr
    obtain ⟨q, hq, hb'⟩ := h'.kept t r' hr'
    exact ⟨q, hq, hb.trans hb'⟩
  registered t q hq hnew := by
    have hle := h.arrivals.length_le
    by_cases hlater : ∀ r', b'.requests[t]? = some r' → r'.stage = .entered
    · rcases h'.registered t q hq hlater with hst | hover | hsince
      · exact Or.inl hst
      · exact Or.inr (Or.inl hover)
      · exact Or.inr (Or.inr (Nat.le_trans hle hsince))
    · obtain ⟨r', hr', hent⟩ : ∃ r', b'.requests[t]? = some r' ∧ r'.stage ≠ .entered := by
        simpa using hlater
      obtain ⟨q', hq', hb⟩ := h'.kept t r' hr'
      cases hq.symm.trans hq'
      rcases h.registered t r' hr' hnew with hst | ⟨ho, hns⟩ | hsince
      · exact absurd hst hent
      · exact Or.inr (Or.inl ⟨hb.isOver ho, (hb.final ho).2.trans hns⟩)
      · rw [(hb.since hent).2]
        exact Or.inr (Or.inr hsince)
  arrivals := h.arrivals.trans h'.arrivals

theorem getElem?_arrivals (h : b.Later z) {n : Nat} {m : Message}
    (hm : b.arrivals[n]? = some m) : z.arrivals[n]? = some m := by
  obtain ⟨l, hl⟩ := h.arrivals
  rw [← hl, List.getElem?_append_left (List.getElem?_eq_some_iff.1 hm).1, hm]

/-- A request that was queued after the frames that are here came in says so. -/
theorem length_le_since (h : b.Later z) (hz : z.Timely) (hr : z.requests[t]? = some r)
    (hsent : r.sent = true) (hnew : ∀ r, b.requests[t]? = some r → r.stage = .entered) :
    b.arrivals.length ≤ r.since := by
  rcases h.registered t r hr hnew with hst | ⟨-, hns⟩ | hle
  · rw [(hz t r hr).unqueued (by simp [Request.isUnqueued, hst])] at hsent
    cases hsent
  · rw [hns] at hsent
    cases hsent
  · exact hle

end Later

end Books

namespace Connection

variable {options : ConnectionOptions} {c d : Connection}

/-- A request is queued exactly if its stage says so, in every reachable state. -/
theorem timely (h : (machine options).Reachable c) : c.books.Timely := by
  induction h with
  | start => intro t r hr; cases hr
  | step _ hs ih => exact ih.step (step_books hs)

/-- **What a whole run keeps of requests and frames.** -/
theorem later_of_run (hc : c.books.Timely) {events : List ConnectionEvent}
    (h : c.run events = some d) : c.books.Later d.books := by
  induction events generalizing c with
  | nil =>
    cases h
    exact .refl _
  | cons e later ih =>
    rw [run_cons] at h
    obtain ⟨u, hs, hrun⟩ := Option.bind_eq_some_iff.1 h
    have hstep := step_books hs
    exact .trans (.of_step hc hstep) (ih (hc.step hstep) hrun)

end Connection

end ClusterLink
