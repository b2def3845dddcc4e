import ClusterLink.Proofs.Connection.Balance
import ClusterLink.Proofs.Connection.Open
/-!
# Late responses

A response that comes in after its request gave up finds the id that the request left behind, is
dropped and takes the id along. So every frame that is dropped as late is set against a timeout of
its own, and no frame that was asked for reaches the callback.

Results:
* `Books.Charged.step`: every frame that was dropped as late is set against a timeout of its own.
* `Books.Tallied.step`: with different ids in flight, so is every frame whose request was back.
* `Connection.late_responses_never_reach_the_callback`: what becomes of the frames of an open
  connection.
-/
namespace ClusterLink

/-! ## Counting -/

theorem countP_le_of_pointwise {α : Type} {p q : α → Bool} {l l' : List α}
    (h : ∀ (i : Nat) x, l[i]? = some x → p x = true → ∃ y, l'[i]? = some y ∧ q y = true) :
    l.countP p ≤ l'.countP q := by
  induction l generalizing l' with
  | nil => exact Nat.zero_le _
  | cons x xs ih =>
    cases l' with
    | nil =>
      have hnone : (x :: xs).countP p = 0 := by
        refine List.countP_eq_zero.2 fun y hy hp => ?_
        obtain ⟨i, hi⟩ := List.getElem?_of_mem hy
        obtain ⟨z, hz, -⟩ := h i y hi hp
        cases hz
      omega
    | cons y ys =>
      have htail : xs.countP p ≤ ys.countP q := ih fun i z hz hp => h (i + 1) z hz hp
      rw [List.countP_cons, List.countP_cons]
      by_cases hp : p x = true
      · obtain ⟨z, hz, hq⟩ := h 0 x rfl hp
        cases hz
        rw [if_pos hp, if_pos hq]
        omega
      · rw [if_neg hp]
        split <;> omega

theorem countP_lt_of_pointwise {α : Type} {p q : α → Bool} {l l' : List α} {t : Nat} {y : α}
    (h : ∀ (i : Nat) x, l[i]? = some x → p x = true → ∃ y, l'[i]? = some y ∧ q y = true)
    (ht : l'[t]? = some y) (hy : q y = true) (hx : ∀ x, l[t]? = some x → p x = false) :
    l.countP p + 1 ≤ l'.countP q := by
  induction l generalizing l' t with
  | nil =>
    have : 0 < l'.countP q := List.countP_pos_iff.2 ⟨y, List.mem_of_getElem? ht, hy⟩
    simpa using this
  | cons x xs ih =>
    cases l' with
    | nil => cases ht
    | cons z zs =>
      have htail : ∀ (i : Nat) x, xs[i]? = some x → p x = true → ∃ y, zs[i]? = some y ∧ q y = true :=
        fun i w hw hp => h (i + 1) w hw hp
      rw [List.countP_cons, List.countP_cons]
      cases t with
      | zero =>
        cases ht
        have hle := countP_le_of_pointwise htail
        rw [hx x rfl, if_pos hy]
        simp only [Bool.false_eq_true, if_false]
        omega
      | succ t =>
        have hle := ih htail ht hx
        by_cases hp : p x = true
        · obtain ⟨w, hw, hq⟩ := h 0 x rfl hp
          cases hw
          rw [if_pos hp, if_pos hq]
          omega
        · rw [if_neg hp]
          split <;> omega

theorem countP_add_le {α : Type} {p q s : α → Bool} (hp : ∀ x, p x = true → s x = true)
    (hq : ∀ x, q x = true → s x = true) (hpq : ∀ x, p x = true → q x = true → False) (l : List α) :
    l.countP p + l.countP q ≤ l.countP s := by
  induction l with
  | nil => exact Nat.le_refl _
  | cons x xs ih =>
    have hpx := hp x
    have hqx := hq x
    have hpqx := hpq x
    rw [List.countP_cons, List.countP_cons, List.countP_cons]
    cases h₁ : p x <;> cases h₂ : q x <;> cases h₃ : s x <;> simp_all <;> omega

namespace Request

variable {r : Request}

/-- The request after its caller gave up. `own` says whether it took its own slot away. -/
def expired (r : Request) (d : Duration) (own : Bool) : Request :=
  let back := { r with stage := .ended (.error (.timeout r.message.id d)) }
  if own then back.abandon else back

@[simp] theorem message_expired (r : Request) (d : Duration) (own : Bool) :
    (r.expired d own).message = r.message := by
  cases own <;> simp [expired]

@[simp] theorem timedOut_expired (r : Request) (d : Duration) (own : Bool) :
    (r.expired d own).timedOut = true := by
  cases own <;> simp [expired, timedOut]

theorem slot_expired_self (hv : r.slot = .vacant) (d : Duration) :
    (r.expired d true).slot = .abandoned := by
  simp [expired, abandon, hv]

theorem isOver_of_timedOut_vacant {id : MessageId}
    (h : ((r.timedOut && r.slot = .vacant) && r.message.id = id) = true) : r.isOver = true := by
  simp only [Bool.and_eq_true] at h
  exact isOver_of_timedOut h.1.1

end Request

namespace Books

variable {isOpen : Bool} {b b' : Books} {e : ConnectionEvent} {t : Ticket} {r q : Request}
  {id : MessageId}

/-! ## Requests that have come back -/

theorem Step.countP_over (hs : b.Step isOpen e b') (hc : b.Coherent) {p : Request → Bool}
    (hp : ∀ r, p r = true → r.isOver = true) : b.requests.countP p ≤ b'.requests.countP p :=
  countP_le_of_pointwise fun _ r hr hpr => ⟨r, hs.kept_of_isOver hc hr (hp r hpr), hpr⟩

/-- A request that comes back adds to what it is counted among. -/
theorem Step.countP_over_lt (hs : b.Step isOpen e b') (hc : b.Coherent) {p : Request → Bool}
    (hp : ∀ r, p r = true → r.isOver = true) (hr : b.requests[t]? = some r) (ho : r.isOver = false)
    (hq : b'.requests[t]? = some q) (hpq : p q = true) :
    b.requests.countP p + 1 ≤ b'.requests.countP p := by
  refine countP_lt_of_pointwise
    (fun _ r hr hpr => ⟨r, hs.kept_of_isOver hc hr (hp r hpr), hpr⟩) hq hpq fun x hx => ?_
  cases hr.symm.trans hx
  cases hpr : p r with
  | false => rfl
  | true => rw [hp r hpr] at ho; cases ho

/-- Each id that is remembered, and each frame that was dropped as late, is set against a request of
its own that came back with the property `p`. -/
def Charged (p : Request → Bool) (b : Books) : Prop :=
  ∀ id, b.late.countP (·.message.id = id) + b.expired.count id ≤
    b.requests.countP fun r => p r && r.message.id = id

theorem count_expire_le (b : Books) (id id' : MessageId) :
    (b.expire id').expired.count id ≤ b.expired.count id + if id' = id then 1 else 0 := by
  have hdrop : (b.expired.drop 1).count id ≤ b.expired.count id :=
    (List.drop_sublist 1 _).count_le _
  simp only [expire, List.count_append, List.count_singleton, beq_iff_eq]
  split <;> omega

/-- What has become of a request that gave up. -/
theorem getElem?_giveUp (hr : b.requests[t]? = some r) (d : Duration) :
    (b.giveUp t r d).requests[t]? = some (r.expired d (b.waiting? r.message.id = some t)) := by
  change ((b.setStage t r _).withdraw r.message.id).requests[t]? = _
  rw [getElem?_withdraw, setStage, b.getElem?_setRequest t t _ r hr, if_pos rfl,
    waiting?_setRequest]
  by_cases hw : b.waiting? r.message.id = some t <;> simp [hw, Request.expired]

theorem Charged.step {p : Request → Bool} (h : b.Charged p) (hc : b.Coherent)
    (hp : ∀ r, p r = true → r.isOver = true) (hs : b.Step isOpen e b')
    (hgive : ∀ (t : Ticket) r d, b.requests[t]? = some r → r.stage = .overdue →
      (b.waiting? r.message.id).isSome = true →
      p (r.expired d (b.waiting? r.message.id = some t)) = true) : b'.Charged p := by
  intro id
  have hid := h id
  have hp' : ∀ r : Request, (p r && r.message.id = id) = true → r.isOver = true := by
    intro r hr
    rw [Bool.and_eq_true] at hr
    exact hp r hr.1
  have hle := hs.countP_over hc hp'
  cases hs with
  | @giveUp t r d hr hst hw =>
    have hexp : (b.giveUp t r d).expired.count id ≤
        b.expired.count id + if r.message.id = id then 1 else 0 := by
      refine Nat.le_trans (count_expire_le _ id r.message.id) ?_
      rw [expired_withdraw]
      exact Nat.le_refl _
    rw [late_giveUp]
    by_cases heq : r.message.id = id
    · have hs : b.Step isOpen _ (b.giveUp t r d) := .giveUp hr hst hw
      have hpq := hgive t r d hr hst hw
      have ho : r.isOver = false := by simp [Request.isOver, Request.result?, hst]
      have hlt := hs.countP_over_lt hc hp' hr ho (getElem?_giveUp hr d)
        (by rw [hpq, Request.message_expired, heq]; simp)
      rw [if_pos heq] at hexp
      omega
    · rw [if_neg heq] at hexp
      omega
  | @late a hh hex =>
    have herase : (b.expired.erase a.message.id).count id + (if a.message.id = id then 1 else 0) =
        b.expired.count id := count_erase_add hex
    change (b.late ++ [a]).countP _ + (b.expired.erase a.message.id).count id ≤ _
    rw [List.countP_append, List.countP_singleton]
    simp only [decide_eq_true_eq]
    omega
  | withdraw =>
    rw [late_withdraw, expired_withdraw]
    exact Nat.le_trans hid hle
  | _ => exact Nat.le_trans hid hle

/-! ## Different ids in flight -/

/-- The frame in the reader's hand, if the request whose slot it took has come back. -/
def orphanInHand (b : Books) : List Arrival :=
  match b.hand with
  | some (a, some t) => if (b.requests[t]?).any (·.isOver) then [a] else []
  | _ => []

/-- What holds on an open connection whose requests in flight have different ids. The timeouts with a
slot taken away make up for the frames dropped as late, the others for the frames whose request has
come back, and whoever was given a response returns it. -/
structure Tallied (b : Books) : Prop where
  abandoned : b.Charged fun r => r.timedOut && r.slot = .abandoned
  vacant : ∀ id, b.orphaned.countP (·.2.message.id = id) +
      b.orphanInHand.countP (·.message.id = id) ≤
    b.requests.countP fun r => (r.timedOut && r.slot = .vacant) && r.message.id = id
  filled : ∀ (t : Ticket) r a, b.requests[t]? = some r → r.slot = .filled a → r.isOver = true →
    r.stage = .ended (.ok a)

/-- With different ids in flight, whoever takes away a slot takes its own. -/
theorem DistinctInFlight.eq_of_waiting (hd : b.DistinctInFlight) (hc : b.Coherent)
    (hr : b.requests[t]? = some r) (ho : r.isOver = false) {u : Ticket}
    (hw : b.waiting? r.message.id = some u) : u = t ∧ r.slot = .vacant := by
  obtain ⟨q, hq, hid, hv, hreg, -⟩ := hc.waiting _ u (mem_of_waiting? hw)
  obtain rfl := hd.eq hr hq ho (Request.isOver_of_isRegistered hreg) hid.symm
  cases hr.symm.trans hq
  exact ⟨rfl, hv⟩

theorem isOver_of_stage {stage : RequestStage} (hr : r.stage = stage)
    (h : Request.isOver { r with stage } = false) : r.isOver = false := by
  subst hr
  exact h

theorem Tallied.filled_step (h : b.Tallied) (hc : b.Coherent) (ha : b.Attended)
    (hd : b.DistinctInFlight) (hs : b.Step true e b') {a : Arrival}
    (hr : b'.requests[t]? = some r) (hslot : r.slot = .filled a) (ho : r.isOver = true) :
    r.stage = .ended (.ok a) := by
  rcases hs.origin hr with ⟨q, hq, hch⟩ | ⟨-, m, stage, -, -, rfl⟩
  · cases hch with
    | keep => exact h.filled t _ a hq hslot ho
    | move he hm =>
      have hvac := hc.entered t q hq
      rw [hm.slot_eq] at hslot
      cases hm <;> simp_all [Request.isOver, Request.result?]
    | register he hst hw => cases ho
    | withdraw he hst => exact absurd hst (ha.refused t q hq)
    | giveUp d he hst hw hr' =>
      obtain ⟨u, hu⟩ := Option.isSome_iff_exists.1 hw
      obtain ⟨rfl, hv⟩ := hd.eq_of_waiting hc hq (isOver_of_stage hst rfl) hu
      rw [if_pos hu, hr', Request.slot_abandon_eq_filled] at hslot
      rw [show q.slot = .filled a from hslot] at hv
      cases hv
    | robbed hu hq' he hw =>
      obtain ⟨q', hq'', -, -, hreg, -⟩ := hc.waiting _ t (mem_of_waiting? hw)
      cases hq.symm.trans hq''
      rw [Request.isOver_abandon, Request.isOver_of_isRegistered hreg] at ho
      cases ho
    | fill he hh hno => exact absurd ho (by rw [Bool.not_eq_true]; exact hno)
  · cases hslot

theorem Tallied.abandoned_step (h : b.Tallied) (hc : b.Coherent) (hd : b.DistinctInFlight)
    (hs : b.Step isOpen e b') : b'.Charged fun r => r.timedOut && r.slot = .abandoned := by
  refine h.abandoned.step hc (fun r hr => ?_) hs fun t r d hr hst hw => ?_
  · rw [Bool.and_eq_true] at hr
    exact Request.isOver_of_timedOut hr.1
  · obtain ⟨u, hu⟩ := Option.isSome_iff_exists.1 hw
    obtain ⟨rfl, hv⟩ := hd.eq_of_waiting hc hr (isOver_of_stage hst rfl) hu
    simp [hu, Request.slot_expired_self hv]

theorem orphanInHand_of_claimed {a : Arrival} (hh : b.hand = some (a, some t))
    (hr : b.requests[t]? = some r) : b.orphanInHand = if r.isOver then [a] else [] := by
  simp [orphanInHand, hh, hr]

theorem orphanInHand_of_forall_ne (h : ∀ a t, b.hand ≠ some (a, some t)) : b.orphanInHand = [] := by
  unfold orphanInHand
  split
  · next a t hh => exact absurd hh (h a t)
  · rfl

/-- A step that leaves the reader's hand and what was orphaned as they are. -/
theorem Tallied.vacant_of_eq (h : b.Tallied) (hc : b.Coherent) (hc' : b'.Coherent)
    (ha' : b'.Attended) (hs : b.Step isOpen e b') (hh : b'.hand = b.hand)
    (ho : b'.orphaned = b.orphaned) (id : MessageId) :
    b'.orphaned.countP (·.2.message.id = id) + b'.orphanInHand.countP (·.message.id = id) ≤
      b'.requests.countP fun r => (r.timedOut && r.slot = .vacant) && r.message.id = id := by
  have hid := h.vacant id
  have hle := hs.countP_over hc (p := fun r => (r.timedOut && r.slot = .vacant) && r.message.id = id)
    fun _ => Request.isOver_of_timedOut_vacant
  rw [ho]
  have hnil : b'.orphanInHand = [] →
      b.orphaned.countP (·.2.message.id = id) + b'.orphanInHand.countP (·.message.id = id) ≤
        b'.requests.countP fun r => (r.timedOut && r.slot = .vacant) && r.message.id = id := by
    intro hnil
    rw [hnil, List.countP_nil]
    omega
  by_cases hno : ∀ a t, b'.hand ≠ some (a, some t)
  · exact hnil (orphanInHand_of_forall_ne hno)
  · obtain ⟨a, t, hh'⟩ : ∃ a t, b.hand = some (a, some t) := by simpa [hh] using hno
    obtain ⟨⟨r, hr, -⟩, -⟩ := hc.claimed a t hh'
    obtain ⟨⟨r', hr', hmsg, hv, -⟩, -⟩ := hc'.claimed a t (hh.trans hh')
    have hin := orphanInHand_of_claimed hh' hr
    have hin' := orphanInHand_of_claimed (hh.trans hh') hr'
    cases hover' : r'.isOver with
    | false => exact hnil (by rw [hin', hover']; rfl)
    | true =>
      cases hover : r.isOver with
      | true =>
        rw [hover, if_pos rfl] at hin
        rw [hover', if_pos rfl] at hin'
        rw [hin] at hid
        rw [hin']
        omega
      | false =>
        -- The request has just come back, so one more is counted.
        have hto := ha'.claimed a t r' (hh.trans hh') hr' hover'
        rw [hover', if_pos rfl] at hin'
        rw [hin', List.countP_singleton]
        by_cases heq : a.message.id = id
        · have hlt := hs.countP_over_lt hc
            (p := fun r => (r.timedOut && r.slot = .vacant) && r.message.id = id)
            (fun _ => Request.isOver_of_timedOut_vacant) hr hover hr' (by simp [hto, hv, hmsg, heq])
          simp only [heq, decide_true, if_true]
          omega
        · simp only [heq, decide_false, Bool.false_eq_true, if_false]
          omega

theorem Tallied.step (h : b.Tallied) (hc : b.Coherent) (ha : b.Attended)
    (hd : b.DistinctInFlight) (hs : b.Step true e b') : b'.Tallied where
  abandoned := h.abandoned_step hc hd hs
  vacant id := by
    have hid := h.vacant id
    have hof := h.vacant_of_eq hc (hc.step hs) (ha.step hc hs) hs
    have hempty : ∀ {b : Books}, b.hand = none → b.orphanInHand = [] := by
      intro b hn
      exact orphanInHand_of_forall_ne (by simp [hn])
    cases hs with
    | aside | send | move | register => exact hof rfl rfl id
    | withdraw => exact hof (hand_withdraw ..) (orphaned_withdraw ..) id
    | giveUp => exact hof (hand_giveUp ..) (orphaned_giveUp ..) id
    | @arrive m hn =>
      have hnil : (b.arrive m).orphanInHand = [] := by
        cases hw : b.waiting? m.id with
        | none => exact orphanInHand_of_forall_ne (by simp [Books.arrive, hw])
        | some t =>
          obtain ⟨r, hr, -, -, hreg, -⟩ := hc.waiting _ t (mem_of_waiting? hw)
          rw [orphanInHand_of_claimed (b := b.arrive m) (t := t) (a := ⟨b.arrivals.length, m⟩)
            (by simp [Books.arrive, hw]) hr, Request.isOver_of_isRegistered hreg]
          rfl
      rw [hempty hn] at hid
      rw [hnil]
      exact hid
    | @deliver a t r hh hr ho =>
      have hle := (Step.deliver hh hr ho : b.Step true _ _).countP_over hc
        (p := fun r => (r.timedOut && r.slot = .vacant) && r.message.id = id)
        fun _ => Request.isOver_of_timedOut_vacant
      rw [orphanInHand_of_claimed hh hr, ho] at hid
      exact Nat.le_trans hid hle
    | @orphan a t r hh hr ho =>
      rw [orphanInHand_of_claimed hh hr, ho] at hid
      simp only [if_true, List.countP_singleton] at hid
      rw [hempty rfl, List.countP_append, List.countP_singleton]
      exact hid
    | @stray a t hh hr =>
      obtain ⟨⟨r, hr', -⟩, -⟩ := hc.claimed a t hh
      cases hr.symm.trans hr'
    | late hh | pass hh =>
      rw [orphanInHand_of_forall_ne (b := b) (by simp [hh])] at hid
      exact hid
  filled _ _ _ hr hslot ho := h.filled_step hc ha hd hs hr hslot ho

/-- A frame that was dropped, as late or for want of its request, is set against a timeout. -/
theorem Tallied.dropped_le (h : b.Tallied) (id : MessageId) :
    b.late.countP (·.message.id = id) + b.orphaned.countP (·.2.message.id = id) ≤
      b.requests.countP fun r => r.timedOut && r.message.id = id := by
  have h₁ : b.late.countP (·.message.id = id) + b.expired.count id ≤
      b.requests.countP fun r => (r.timedOut && r.slot = .abandoned) && r.message.id = id :=
    h.abandoned id
  have h₂ := h.vacant id
  have h₃ := countP_add_le (l := b.requests)
    (p := fun r => (r.timedOut && r.slot = .abandoned) && r.message.id = id)
    (q := fun r => (r.timedOut && r.slot = .vacant) && r.message.id = id)
    (s := fun r => r.timedOut && r.message.id = id)
    (by intro r hr; simp_all) (by intro r hr; simp_all) (by intro r hr hr'; simp_all)
  omega

end Books

namespace Connection

variable {options : ConnectionOptions} {c d : Connection} {events : List ConnectionEvent}

/-- Every frame that was dropped as late is set against a timeout, in every reachable state. -/
theorem charged (h : (machine options).Reachable c) : c.books.Charged Request.timedOut := by
  induction h with
  | start => intro id; exact Nat.le_refl _
  | step hr hs ih =>
    exact ih.step (coherent hr) (fun _ => Request.isOver_of_timedOut) (step_books hs)
      fun _ _ _ _ _ _ => Request.timedOut_expired ..

/-- What a run keeps whose requests in flight have different ids, if it leaves the connection
open. -/
structure Orderly (options : ConnectionOptions) (c : Connection) : Prop where
  reachable : (machine options).Reachable c
  tallied : c.books.Tallied

theorem Orderly.of_run (hrun : (machine options).run (new options) events = some c)
    (ho : c.isOpen = true)
    (hall : (machine options).Along (fun u => u.books.DistinctInFlight) (new options) events) :
    Orderly options c := by
  refine @Machine.Along.invariant _ _ _ _ (Orderly options) _ _ _ hall hrun ?_ ?_
  · refine ⟨.start, fun id => Nat.le_refl _, fun id => Nat.le_refl _, fun t r a hr => ?_⟩
    cases hr
  · rintro u e v later - hlater hd - hu hs
    have hv := isOpen_of_run ((run_machine options v later).symm.trans hlater) ho
    have hopen := isOpen_of_step hs hv
    have hb := step_books hs
    rw [hopen] at hb
    exact ⟨hu.reachable.step hs,
      hu.tallied.step (coherent hu.reachable) (attended hu.reachable hopen) hd hb⟩

/-- What becomes of a frame for which a request waited, or an id was left behind. -/
inductive Fate (c : Connection) (a : Arrival) : Prop
  /-- It was put into the slot of a request with its id. -/
  | given {t : Ticket} {r : Request} (hr : c.requests[t]? = some r)
      (hid : r.message.id = a.message.id) (hs : r.slot = .filled a)
  /-- It was dropped as late. -/
  | late (h : a ∈ c.history.late)
  /-- It took the slot of a request with its id and was dropped, as the request's time was up. -/
  | tooLate {t : Ticket} {r : Request} (ho : (t, a) ∈ c.history.orphaned)
      (hr : c.requests[t]? = some r) (hid : r.message.id = a.message.id) (hto : r.timedOut = true)
  /-- The reader has it and the slot of a request with its id. -/
  | claimed {t : Ticket} {r : Request} (hh : c.reader.hand = some (a, some t))
      (hr : c.requests[t]? = some r) (hid : r.message.id = a.message.id)
  /-- The reader has it, and its id is remembered. -/
  | known (hh : c.reader.hand = some (a, none)) (he : a.message.id ∈ c.expired)

/-- A frame has come to one of these ends if none is passed on. -/
theorem Untroubled.fate (h : Untroubled options c) (ho : c.isOpen = true) {a : Arrival}
    (ha : c.history.arrivals[a.number]? = some a.message) : c.Fate a := by
  have hc := coherent h.reachable
  rcases (accounted h.reachable).place_of_arrived ha with ⟨t, hd⟩ | ⟨t, hor⟩ | hl | hu | hh
  · obtain ⟨r, hr, hs⟩ := hc.delivered t a hd
    exact .given hr (hc.filled t r a hr hs).2.1 hs
  · obtain ⟨r, hr, hid, hto⟩ := (attended h.reachable ho).orphaned t a hor
    exact .tooLate hor hr hid hto
  · exact .late hl
  · rw [h.sparing.unasked] at hu
    cases hu
  · obtain ⟨⟨a, slot⟩, hhand, rfl⟩ := Option.map_eq_some_iff.1 hh
    cases slot with
    | some t =>
      obtain ⟨⟨r, hr, hid, -⟩, -⟩ := hc.claimed a t hhand
      exact .claimed hhand hr hid
    | none =>
      refine .known hhand (h.sparing.known a ?_)
      rw [Books.strayInHand_of_stray (b := c.books) hhand]
      exact List.mem_singleton_self a

/-- **Late responses never reach the callback.** While a connection is open, no id was on more
frames than requests were queued with it, and no id was forgotten, the callback is handed nothing:
each frame that came in found a request with its id or was late. On every run no id was on more
frames dropped as late than on requests that timed out. If requests in flight have different ids,
this holds with the frames whose request was back, and a request that was given a response and is
back returned it. -/
theorem late_responses_never_reach_the_callback (options : ConnectionOptions) :
    (∀ events c, (new options).run events = some c → c.isOpen = true →
      (machine options).Along (fun u => u.books.Matched ∧ u.books.Remembers) (new options) events →
      (new options).handed events = [] ∧
      ∀ n m, c.history.arrivals[n]? = some m → c.Fate ⟨n, m⟩) ∧
    (∀ c, (machine options).Reachable c → ∀ id, c.history.late.countP (·.message.id = id) ≤
      c.requests.countP fun r => r.timedOut && r.message.id = id) ∧
    (∀ events c, (new options).run events = some c → c.isOpen = true →
      (machine options).Along (fun u => u.books.DistinctInFlight) (new options) events →
      (∀ id, c.history.late.countP (·.message.id = id) +
          c.history.orphaned.countP (·.2.message.id = id) ≤
        c.requests.countP fun r => r.timedOut && r.message.id = id) ∧
      ∀ (t : Ticket) (r : Request) (a : Arrival), c.requests[t]? = some r → r.slot = .filled a →
        r.isOver = true → r.result? = some (.ok a)) := by
  refine ⟨fun events c hrun ho hall => ?_, fun c hc id => ?_, fun events c hrun ho hall => ?_⟩
  · have h := Untroubled.of_run hrun hall
    obtain ⟨passed, hp, hhanded, -⟩ := run_handed hrun
    have hnone : c.history.unasked = [] := h.sparing.unasked
    rw [hnone] at hp
    refine ⟨?_, fun n m hm => h.fate ho (a := ⟨n, m⟩) hm⟩
    rw [hhanded, (List.append_eq_nil_iff.1 hp.symm).2, ite_self]
  · exact Nat.le_trans (Nat.le_add_right _ _) (charged hc id)
  · have h := Orderly.of_run hrun ho hall
    refine ⟨fun id => h.tallied.dropped_le id, fun t r a hr hslot ho => ?_⟩
    simp [Request.result?, h.tallied.filled t r a hr hslot ho]

/-! ## A second try that is given the first response -/

private def retried : Message := .bare (.ofNat 1) .select

private def response : Message := .bare (.ofNat 1) .insert

/-- A request times out and is made again under its id. The response to the first comes in and goes
to the second, so that the response to the second is late. -/
private def retry : List ConnectionEvent :=
  [.reader (.start true), .send retried, .request 0 .register, .request 0 .reach, .request 0 .queue,
    .request 0 .timeOut, .request 0 .giveUp, .send retried, .request 1 .register, .request 1 .reach,
    .request 1 .queue, .reader (.arrive response), .reader .dispatch, .request 1 .take,
    .reader (.arrive response), .reader .dispatch]

theorem retry_drops_a_late_response :
    ∃ c, (new {}).run retry = some c ∧ c.result? 1 = some (.ok ⟨0, response⟩) ∧
      c.history.late = [⟨1, response⟩] ∧ (new {}).handed retry = [] ∧
      ∀ id, c.history.late.countP (·.message.id = id) +
          c.history.orphaned.countP (·.2.message.id = id) ≤
        c.requests.countP fun r => r.timedOut && r.message.id = id := by
  have hrun : (new {}).run retry = some (((new {}).run retry).getD (new {})) := by rfl
  obtain ⟨h₁, -, h₃⟩ := late_responses_never_reach_the_callback {}
  exact ⟨_, hrun, by rfl, by rfl, (h₁ _ _ hrun (by rfl) (by decide)).1,
    (h₃ _ _ hrun (by rfl) (by decide)).1⟩

end Connection

end ClusterLink
