import ClusterLink.Proofs.Connection.Ledger
import ClusterLink.Proofs.Connection.Progress
/-!
# The balance of slots and frames

A request whose time is up takes its slot away and leaves its id behind, so that the response can
still be told from a frame that nobody asked for. What makes this work is a balance for each id: the
slots that wait under it, the times it is remembered and the frames that came in with it make up for
all requests with it that may be answered. As long as no id is forgotten, a frame that finds no slot
although some request may still be answered therefore finds its id remembered.

Results:
* `Books.Balanced.step`: every step that forgets no id keeps the balance.
* `Books.Sparing.step`: where the balance holds, a frame that was asked for is not passed on.
* `Connection.Untroubled.of_run`: what a run keeps that forgets no id.
-/
namespace ClusterLink

theorem countP_modify {α : Type} {p : α → Bool} {f : α → α} (hf : ∀ x, p (f x) = p x) (l : List α)
    (t : Nat) : (l.modify t f).countP p = l.countP p := by
  induction l generalizing t with
  | nil => cases t <;> rfl
  | cons x xs ih =>
    cases t with
    | zero => simp [List.countP_cons, hf]
    | succ t => simp [List.countP_cons, ih]

namespace Request

variable {isOpen : Bool} {waiting : Option Ticket} {e : RequestEvent} {r r' : Request}

/-- Whether the request may still be answered or was: its frame was queued or may be yet. -/
def mayBeAnswered (r : Request) : Bool :=
  r.sent || match r.stage with
    | .registered | .holding | .refused => true
    | _ => false

@[simp] theorem mayBeAnswered_abandon (r : Request) : r.abandon.mayBeAnswered = r.mayBeAnswered := by
  simp [mayBeAnswered]

theorem Move.mayBeAnswered_of (h : r.Move isOpen waiting e r') (hr : r'.mayBeAnswered = true) :
    r.mayBeAnswered = true := by
  cases h <;> simp_all [mayBeAnswered]

end Request

namespace Books

variable {isOpen : Bool} {b b' : Books} {e : ConnectionEvent} {t : Ticket} {r q : Request}
  {id : MessageId}

/-- No id was forgotten: each that was ever remembered still is, or a late frame took it along. -/
def Remembers (b : Books) : Prop := b.expirations.length = b.expired.length + b.late.length

/-- No id was on more frames that came in than on frames of requests that were queued. -/
def Matched (b : Books) : Prop :=
  ∀ m ∈ b.arrivals, b.arrivals.countP (·.id = m.id) ≤
    b.requests.countP fun r => r.sent && r.message.id = m.id

instance (b : Books) : Decidable b.Remembers := inferInstanceAs (Decidable (_ = _))

instance (b : Books) : Decidable b.Matched := inferInstanceAs (Decidable (∀ m ∈ b.arrivals, _))

/-- How often a slot waits under an id. -/
def slots (b : Books) (id : MessageId) : Nat := (b.pending.map Prod.fst).count id

/-- For each id, the slots that wait, the times it is remembered and the frames that came in with it
make up for the requests that may be answered. -/
def Balanced (b : Books) : Prop :=
  ∀ id, (b.requests.countP fun r => r.mayBeAnswered && r.message.id = id) +
      b.strayInHand.countP (·.message.id = id) ≤
    b.slots id + b.expired.count id + b.arrivals.countP (·.id = id)

theorem remembers_expire (h : b.Remembers) (id : MessageId) :
    (b.expire id).Remembers ↔ b.expired.length ≠ expiredCapacity := by
  unfold Remembers at h ⊢
  simp only [expire, List.length_append, List.length_singleton]
  split
  · next hfull =>
    rw [List.length_drop, hfull, h, hfull, expiredCapacity]
    omega
  · next hroom =>
    rw [h]
    exact iff_of_true (by omega) hroom

theorem countP_setRequest (hr : b.requests[t]? = some r) (p : Request → Bool) :
    (b.setRequest t q).requests.countP p + (if p r then 1 else 0) =
      b.requests.countP p + if p q then 1 else 0 := by
  obtain ⟨hlt, rfl⟩ := List.getElem?_eq_some_iff.1 hr
  have hle := List.boole_getElem_le_countP (p := p) hlt
  simp only [setRequest, List.countP_set hlt]
  omega

theorem countP_withdraw {p : Request → Bool} (hp : ∀ r : Request, p r.abandon = p r) (b : Books)
    (id : MessageId) : (b.withdraw id).requests.countP p = b.requests.countP p := by
  unfold withdraw
  split
  · exact countP_modify hp _ _
  · rfl

theorem count_keys_filter (l : List (MessageId × Ticket)) (id id' : MessageId) :
    ((l.filter (·.1 ≠ id')).map Prod.fst).count id =
      if id = id' then 0 else (l.map Prod.fst).count id := by
  split
  · next hid =>
    subst hid
    rw [List.count_eq_zero, List.mem_map]
    rintro ⟨p, hp, rfl⟩
    simpa using (List.mem_filter.1 hp).2
  · next hid =>
    induction l with
    | nil => rfl
    | cons p l ih =>
      rw [List.filter_cons]
      split
      · rw [List.map_cons, List.map_cons, List.count_cons, List.count_cons, ih]
      · next hp =>
        have hne : (p.1 == id) = false := by
          simp only [decide_not, Bool.not_eq_true', decide_eq_false_iff_not, Decidable.not_not] at hp
          simpa [hp] using Ne.symm hid
        rw [List.map_cons, List.count_cons, hne, ih]
        rfl

theorem slots_le_one (hk : (b.pending.map Prod.fst).Nodup) (id : MessageId) : b.slots id ≤ 1 :=
  List.nodup_iff_count.1 hk id

theorem slots_eq_zero (h : b.waiting? id = none) : b.slots id = 0 := by
  refine List.count_eq_zero.2 fun hmem => ?_
  obtain ⟨⟨id', t⟩, ht, rfl⟩ := List.mem_map.1 hmem
  exact not_mem_of_waiting?_eq_none h ht

theorem count_erase_add {ids : List MessageId} {id id' : MessageId} (h : id' ∈ ids) :
    (ids.erase id').count id + (if id' = id then 1 else 0) = ids.count id := by
  have hpos := List.count_pos_iff.2 h
  rw [List.count_erase]
  by_cases heq : id' = id
  · subst heq
    simp only [beq_self_eq_true, if_true]
    omega
  · simp [heq]

/-- Taking away what waits for an id takes one slot away at most. -/
theorem slots_withdraw (hk : (b.pending.map Prod.fst).Nodup) (id id' : MessageId) :
    b.slots id ≤ (b.withdraw id').slots id + if id' = id then 1 else 0 := by
  have hle := slots_le_one hk id
  unfold withdraw
  split
  · simp only [slots, count_keys_filter] at hle ⊢
    by_cases hid : id = id'
    · rw [if_pos hid.symm, if_pos hid]
      omega
    · rw [if_neg hid]
      omega
  · omega

theorem Balanced.arrive (h : b.Balanced) (hh : b.hand = none) (hc : b.Coherent) (m : Message) :
    (b.arrive m).Balanced := by
  intro id
  have hid := h id
  have hslots : (b.arrive m).slots id = if id = m.id then 0 else b.slots id :=
    count_keys_filter b.pending id m.id
  have harr : (b.arrive m).arrivals.countP (·.id = id) =
      b.arrivals.countP (·.id = id) + if id = m.id then 1 else 0 := by
    simp [Books.arrive, List.countP_append, List.countP_singleton, eq_comm]
  rw [strayInHand_of_none hh, List.countP_nil] at hid
  rw [hslots, harr]
  change b.requests.countP _ + _ ≤ _ + b.expired.count id + _
  cases hw : b.waiting? m.id with
  | none =>
    have hzero := slots_eq_zero hw
    have hstray : (b.arrive m).strayInHand = [⟨b.arrivals.length, m⟩] :=
      strayInHand_of_stray (by simp [Books.arrive, hw])
    rw [hstray, List.countP_singleton]
    by_cases heq : id = m.id
    · subst heq
      simp only [decide_true, if_true]
      omega
    · rw [if_neg heq, if_neg heq]
      simp only [Ne.symm heq, decide_false, Bool.false_eq_true, if_false]
      omega
  | some t =>
    have hone := slots_le_one hc.keys id
    have hstray : (b.arrive m).strayInHand = [] :=
      strayInHand_of_some (t := t) (a := ⟨b.arrivals.length, m⟩) (by simp [Books.arrive, hw])
    rw [hstray, List.countP_nil]
    split <;> omega

/-- A request that gives up forgets no id only if there is room for one more. -/
theorem remembers_giveUp {d : Duration} (hm : b.Remembers)
    (hm' : (b.giveUp t r d).Remembers) : b.expired.length ≠ expiredCapacity := by
  have hw : ((b.setStage t r (.ended (.error (.timeout r.message.id d)))).withdraw
      r.message.id).Remembers := by
    unfold Remembers at hm ⊢
    rw [expirations_withdraw, expired_withdraw, late_withdraw]
    exact hm
  have hroom := (remembers_expire hw r.message.id).1 hm'
  rw [expired_withdraw] at hroom
  exact hroom

theorem expired_giveUp {d : Duration} (h : b.expired.length ≠ expiredCapacity) :
    (b.giveUp t r d).expired = b.expired ++ [r.message.id] := by
  simp only [giveUp, expire, expired_withdraw]
  exact congrArg (· ++ [r.message.id]) (if_neg h)

/-- A request whose state changes does not add to those that may be answered, if it was one of
them. -/
theorem countP_mayBeAnswered_le (hr : b.requests[t]? = some r) (hmsg : q.message = r.message)
    (hof : q.mayBeAnswered = true → r.mayBeAnswered = true) (id : MessageId) :
    ((b.setRequest t q).requests.countP fun r => r.mayBeAnswered && r.message.id = id) ≤
      b.requests.countP fun r => r.mayBeAnswered && r.message.id = id := by
  have hset := countP_setRequest (q := q) hr fun r => r.mayBeAnswered && r.message.id = id
  simp only [hmsg] at hset
  cases hq : q.mayBeAnswered with
  | false =>
    simp only [hq, Bool.false_and, Bool.false_eq_true, if_false] at hset
    omega
  | true =>
    rw [hq, hof hq] at hset
    omega

theorem Balanced.setRequest (h : b.Balanced) (hr : b.requests[t]? = some r)
    (hmsg : q.message = r.message) (hof : q.mayBeAnswered = true → r.mayBeAnswered = true) :
    (b.setRequest t q).Balanced := fun id =>
  Nat.le_trans (Nat.add_le_add_right (countP_mayBeAnswered_le hr hmsg hof id) _) (h id)

theorem Balanced.register (h : b.Balanced) (hr : b.requests[t]? = some r) (hst : r.stage = .entered)
    (hsent : r.sent = false) :
    ({ b.setRequest t { r with stage := .registered, since := b.arrivals.length } with
        pending := b.pending ++ [(r.message.id, t)] } : Books).Balanced := by
  intro id
  have hid := h id
  have hset := countP_setRequest hr
    (q := { r with stage := .registered, since := b.arrivals.length })
    fun r => r.mayBeAnswered && r.message.id = id
  have hbefore : r.mayBeAnswered = false := by simp [Request.mayBeAnswered, hst, hsent]
  have hafter : Request.mayBeAnswered
      { r with stage := .registered, since := b.arrivals.length } = true := by
    simp [Request.mayBeAnswered]
  have hslots : ((b.pending ++ [(r.message.id, t)]).map Prod.fst).count id =
      b.slots id + if r.message.id = id then 1 else 0 := by
    simp [slots, List.count_append, List.count_singleton]
  simp only [hbefore, hafter, Bool.false_and, Bool.true_and, Bool.false_eq_true, if_false,
    decide_eq_true_eq] at hset
  change (b.setRequest t _).requests.countP _ + b.strayInHand.countP _ ≤
    ((b.pending ++ [(r.message.id, t)]).map Prod.fst).count id + b.expired.count id +
      b.arrivals.countP _
  rw [hslots]
  omega

/-- A request that was refused takes away one slot and may not be answered any more. -/
theorem Balanced.withdraw (h : b.Balanced) (hc : b.Coherent) (hr : b.requests[t]? = some r)
    (hst : r.stage = .refused) (hsent : r.sent = false) :
    ((b.setStage t r (.ended (.error .closed))).withdraw r.message.id).Balanced := by
  intro id
  have hid := h id
  have hset := countP_setRequest hr (q := { r with stage := .ended (.error .closed) })
    fun r => r.mayBeAnswered && r.message.id = id
  have hbefore : r.mayBeAnswered = true := by simp [Request.mayBeAnswered, hst]
  have hafter : Request.mayBeAnswered { r with stage := .ended (.error .closed) } = false := by
    simp [Request.mayBeAnswered, hsent]
  have hslots : b.slots id ≤ _ + _ :=
    slots_withdraw (b := b.setStage t r (.ended (.error .closed))) hc.keys id r.message.id
  simp only [hbefore, hafter, Bool.false_and, Bool.true_and, Bool.false_eq_true, if_false,
    decide_eq_true_eq] at hset
  rw [countP_withdraw (fun r => by simp), strayInHand_withdraw, expired_withdraw, arrivals_withdraw]
  change (b.setRequest t _).requests.countP _ + b.strayInHand.countP _ ≤
    _ + b.expired.count id + b.arrivals.countP _
  omega

/-- A request that gives up takes away one slot and leaves its id behind. -/
theorem Balanced.giveUp {d : Duration} (h : b.Balanced) (hc : b.Coherent)
    (hr : b.requests[t]? = some r) (hsent : r.sent = true)
    (hroom : b.expired.length ≠ expiredCapacity) : (b.giveUp t r d).Balanced := by
  intro id
  have hid := h id
  have hle := countP_mayBeAnswered_le
    (q := { r with stage := .ended (.error (.timeout r.message.id d)) }) hr rfl
    (fun _ => by simp [Request.mayBeAnswered, hsent]) id
  have hslots : b.slots id ≤ _ + _ := slots_withdraw
    (b := b.setStage t r (.ended (.error (.timeout r.message.id d)))) hc.keys id r.message.id
  rw [expired_giveUp hroom, List.count_append, List.count_singleton, arrivals_giveUp]
  change ((b.setStage t r _).withdraw _).requests.countP _ +
    ((b.setStage t r _).withdraw _).strayInHand.countP _ ≤
    ((b.setStage t r _).withdraw _).slots id + (_ + _) + _
  rw [countP_withdraw (fun r => by simp), strayInHand_withdraw]
  change (b.setRequest t _).requests.countP _ + b.strayInHand.countP _ ≤ _ + (_ + _) + _
  simp only [beq_iff_eq]
  omega

/-- A step that forgets no id keeps the balance. -/
theorem Balanced.step (h : b.Balanced) (hc : b.Coherent) (ht : b.Timely) (hm : b.Remembers)
    (hm' : b'.Remembers) (hs : b.Step isOpen e b') : b'.Balanced := by
  cases hs with
  | aside => exact h
  | @send m stage hstage =>
    intro id
    have hnew : (Request.mayBeAnswered { message := m, stage }) = false := by
      rcases hstage with rfl | rfl <;> rfl
    simp only [List.countP_append, List.countP_singleton, hnew, Bool.false_and]
    exact h id
  | move hr hmove => exact h.setRequest hr hmove.message_eq hmove.mayBeAnswered_of
  | register hr hst hw =>
    exact h.register hr hst ((ht _ _ hr).unqueued (by simp [Request.isUnqueued, hst]))
  | withdraw hr hst =>
    exact h.withdraw hc hr hst ((ht _ _ hr).unqueued (by simp [Request.isUnqueued, hst]))
  | giveUp hr hst hw =>
    have hsent := (ht _ _ hr).queued (by simp [Request.isQueued, hst])
    exact h.giveUp hc hr hsent (remembers_giveUp hm hm')
  | arrive hh => exact h.arrive hh hc _
  | @deliver a t r hh hr ho =>
    intro id
    have hid := h id
    have hle := countP_mayBeAnswered_le (q := { r with slot := .filled a }) hr rfl
      (fun hq => hq) id
    rw [strayInHand_of_some hh, List.countP_nil] at hid
    change (b.setRequest t { r with slot := .filled a }).requests.countP _ + 0 ≤
      b.slots id + b.expired.count id + b.arrivals.countP _
    omega
  | orphan hh hr ho =>
    intro id
    have hid := h id
    rw [strayInHand_of_some hh] at hid
    exact hid
  | stray hh hr =>
    intro id
    have hid := h id
    rw [strayInHand_of_some hh] at hid
    exact hid
  | @late a hh hex =>
    intro id
    have hid := h id
    have herase : (b.expired.erase a.message.id).count id + (if a.message.id = id then 1 else 0) =
        b.expired.count id := count_erase_add hex
    rw [strayInHand_of_stray hh, List.countP_singleton] at hid
    change b.requests.countP _ + ([] : List Arrival).countP _ ≤
      b.slots id + (b.expired.erase a.message.id).count id + b.arrivals.countP _
    rw [List.countP_nil]
    simp only [decide_eq_true_eq] at hid
    omega
  | @pass a hh hex =>
    intro id
    have hid := h id
    rw [strayInHand_of_stray hh, List.countP_singleton] at hid
    change b.requests.countP _ + ([] : List Arrival).countP _ ≤
      b.slots id + b.expired.count id + b.arrivals.countP _
    rw [List.countP_nil]
    omega

/-! ## Frames that find no slot -/

/-- A frame that found no slot carries an id that is remembered, and none was passed on. -/
structure Sparing (b : Books) : Prop where
  known : ∀ a ∈ b.strayInHand, a.message.id ∈ b.expired
  unasked : b.unasked = []

theorem Sparing.of_eq (h : b.Sparing) (hh : b'.strayInHand = b.strayInHand)
    (hx : b'.expired = b.expired) (hu : b'.unasked = b.unasked) : b'.Sparing :=
  ⟨by rw [hh, hx]; exact h.known, by rw [hu]; exact h.unasked⟩

theorem Sparing.step (h : b.Sparing) (hm : b.Remembers) (hm' : b'.Remembers)
    (hbal : b'.Balanced) (hmatch : b'.Matched) (hs : b.Step isOpen e b') : b'.Sparing := by
  cases hs with
  | aside => exact h
  | send | move | register => exact h.of_eq rfl rfl rfl
  | withdraw =>
    exact h.of_eq (strayInHand_withdraw ..) (expired_withdraw ..) (unasked_withdraw ..)
  | @giveUp t r d hr hst hw =>
    have hroom := remembers_giveUp hm hm'
    refine ⟨fun a ha => ?_, (unasked_withdraw ..).trans h.unasked⟩
    have hsame : (b.giveUp t r d).strayInHand = b.strayInHand :=
      strayInHand_withdraw (b.setStage t r _) r.message.id
    rw [hsame] at ha
    rw [expired_giveUp hroom]
    exact List.mem_append_left _ (h.known a ha)
  | @arrive m hh =>
    refine ⟨fun a ha => ?_, h.unasked⟩
    cases hw : b.waiting? m.id with
    | some t =>
      rw [strayInHand_of_some (t := t) (a := ⟨b.arrivals.length, m⟩)
        (by simp [Books.arrive, hw])] at ha
      cases ha
    | none =>
      have hstray : (b.arrive m).strayInHand = [⟨b.arrivals.length, m⟩] :=
        strayInHand_of_stray (by simp [Books.arrive, hw])
      rw [hstray, List.mem_singleton] at ha
      subst ha
      -- The frame is one more than the slots and the requests make up for, so its id is remembered.
      have hid := hbal m.id
      have hle := hmatch m (List.mem_append_right _ (List.mem_singleton_self m))
      have hsent : ((b.arrive m).requests.countP fun r => r.sent && r.message.id = m.id) ≤
          (b.arrive m).requests.countP fun r => r.mayBeAnswered && r.message.id = m.id := by
        refine List.countP_mono_left fun r _ hr => ?_
        simp only [Bool.and_eq_true] at hr ⊢
        exact ⟨by simp [Request.mayBeAnswered, hr.1], hr.2⟩
      have hslots : (b.arrive m).slots m.id = 0 := by
        have hcount := count_keys_filter b.pending m.id m.id
        rw [if_pos rfl] at hcount
        exact hcount
      rw [hstray, hslots] at hid
      simp only [List.countP_singleton, decide_true, if_true] at hid
      have hpos : 0 < (b.arrive m).expired.count m.id := by omega
      exact List.count_pos_iff.1 hpos
  | deliver hh | orphan hh | stray hh =>
    exact h.of_eq (strayInHand_of_some hh).symm rfl rfl
  | @late a hh hex =>
    refine ⟨fun a' ha => ?_, h.unasked⟩
    cases ha
  | @pass a hh hex =>
    exact absurd (h.known a (by rw [strayInHand_of_stray hh]; exact List.mem_singleton_self a)) hex

end Books

namespace Connection

variable {options : ConnectionOptions} {c : Connection} {events : List ConnectionEvent}

/-- What a run keeps that forgets no id and sees no more frames than were asked for. -/
structure Untroubled (options : ConnectionOptions) (c : Connection) : Prop where
  reachable : (machine options).Reachable c
  balanced : c.books.Balanced
  sparing : c.books.Sparing

theorem Untroubled.of_run (hrun : (machine options).run (new options) events = some c)
    (hall : (machine options).Along (fun u => u.books.Matched ∧ u.books.Remembers) (new options)
      events) : Untroubled options c := by
  refine @Machine.Along.invariant _ _ _ _ (Untroubled options) _ _ _ hall hrun ?_ ?_
  · refine ⟨.start, fun id => Nat.le_refl _, ⟨fun a ha => ?_, rfl⟩⟩
    cases ha
  · rintro u e v later - - ⟨-, hm⟩ ⟨hmatch', hm'⟩ hu hs
    have hb := step_books hs
    have hbal := hu.balanced.step (coherent hu.reachable) (timely hu.reachable) hm hm' hb
    exact ⟨hu.reachable.step hs, hbal, hu.sparing.step hm hm' hbal hmatch' hb⟩

end Connection

end ClusterLink
