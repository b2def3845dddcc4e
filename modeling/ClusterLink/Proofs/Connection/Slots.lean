import ClusterLink.Proofs.Connection.Books
/-!
# Slots and the requests they belong to

A slot waits under the id of its request until the reader takes it, or someone takes it away. It is
empty for as long as it waits or is in the reader's hand, and it is filled at most once, with a frame
that carries the id and came in after the slot was registered.

Results:
* `Books.Coherent.step`: every step keeps the correspondence of slots and requests.
* `Connection.coherent`: it holds in every reachable state.
-/
namespace ClusterLink

namespace Books

variable {b b' : Books} {id : MessageId} {t : Ticket}

theorem mem_of_waiting? (h : b.waiting? id = some t) : (id, t) ∈ b.pending := by
  obtain ⟨l₁, l₂, hp, -⟩ := List.lookup_eq_some_iff.1 h
  rw [hp]
  exact List.mem_append_right _ (List.mem_cons_self ..)

theorem not_mem_of_waiting?_eq_none (h : b.waiting? id = none) : (id, t) ∉ b.pending := by
  intro hm
  simpa using List.lookup_eq_none_iff.1 h _ hm

theorem waiting?_of_mem (hk : (b.pending.map Prod.fst).Nodup) (h : (id, t) ∈ b.pending) :
    b.waiting? id = some t := by
  obtain ⟨l₁, l₂, hp⟩ := List.append_of_mem h
  refine List.lookup_eq_some_iff.2 ⟨l₁, l₂, hp, fun p hmem => ?_⟩
  rw [hp, List.map_append, List.nodup_append] at hk
  have := hk.2.2 p.1 (List.mem_map_of_mem hmem) id (by simp)
  simpa using Ne.symm this

/-! ## The correspondence -/

/-- What ties slots to requests. -/
structure Coherent (b : Books) : Prop where
  keys : (b.pending.map Prod.fst).Nodup
  /-- A slot that waits is empty, and its request has not come back. -/
  waiting : ∀ id t, (id, t) ∈ b.pending → ∃ r, b.requests[t]? = some r ∧ r.message.id = id ∧
    r.slot = .vacant ∧ r.isRegistered = true ∧ r.stage ≠ .missed
  /-- A slot in the reader's hand is empty and does not wait. -/
  claimed : ∀ a t, b.hand = some (a, some t) → (∃ r, b.requests[t]? = some r ∧
    r.message.id = a.message.id ∧ r.slot = .vacant ∧ r.stage ≠ .entered ∧ r.since ≤ a.number) ∧
    ∀ id, (id, t) ∉ b.pending
  /-- An empty slot of a request that has not come back waits or is in the reader's hand. -/
  vacant : ∀ (t : Ticket) r, b.requests[t]? = some r → r.isRegistered = true → r.slot = .vacant →
    (r.message.id, t) ∈ b.pending ∨ ∃ a, b.hand = some (a, some t)
  filled : ∀ (t : Ticket) r a, b.requests[t]? = some r → r.slot = .filled a →
    (t, a) ∈ b.delivered ∧ r.message.id = a.message.id ∧ r.since ≤ a.number
  delivered : ∀ t a, (t, a) ∈ b.delivered → ∃ r, b.requests[t]? = some r ∧ r.slot = .filled a
  answered : ∀ (t : Ticket) r a, b.requests[t]? = some r → r.stage = .ended (.ok a) →
    r.slot = .filled a
  entered : ∀ (t : Ticket) r, b.requests[t]? = some r → r.stage = .entered → r.slot = .vacant
  since : ∀ (t : Ticket) r, b.requests[t]? = some r → r.since ≤ b.arrivals.length

end Books

theorem Request.isRegistered_of_stage {r : Request} (h : r.stage ≠ .entered)
    (ho : r.isOver = false) : r.isRegistered = true := by
  unfold isRegistered
  unfold isOver result? at ho
  cases hs : r.stage <;> simp_all

theorem Request.isOver_of_isRegistered {r : Request} (h : r.isRegistered = true) :
    r.isOver = false := by
  unfold isRegistered at h
  unfold isOver result?
  cases hs : r.stage <;> simp_all

theorem Request.stage_of_result {r : Request} {result : Except ConnectionError Arrival}
    (h : r.result? = some result) : r.stage = .ended result := by
  unfold Request.result? at h
  split at h
  · next hs => cases h; exact hs
  · cases h

namespace Request

variable {r : Request}

@[simp] theorem message_abandon (r : Request) : r.abandon.message = r.message := by
  unfold abandon; split <;> rfl

@[simp] theorem stage_abandon (r : Request) : r.abandon.stage = r.stage := by
  unfold abandon; split <;> rfl

@[simp] theorem since_abandon (r : Request) : r.abandon.since = r.since := by
  unfold abandon; split <;> rfl

@[simp] theorem sent_abandon (r : Request) : r.abandon.sent = r.sent := by
  unfold abandon; split <;> rfl

@[simp] theorem isRegistered_abandon (r : Request) : r.abandon.isRegistered = r.isRegistered := by
  simp [isRegistered]

@[simp] theorem isOver_abandon (r : Request) : r.abandon.isOver = r.isOver := by
  simp [isOver, result?]

theorem slot_abandon_ne_vacant (r : Request) : r.abandon.slot ≠ .vacant := by
  unfold abandon; split <;> simp_all

theorem slot_abandon_of_vacant (h : r.slot = .vacant) : r.abandon.slot = .abandoned := by
  simp [abandon, h]

@[simp] theorem slot_abandon_eq_filled {a : Arrival} :
    r.abandon.slot = .filled a ↔ r.slot = .filled a := by
  unfold abandon; split <;> simp_all

end Request

namespace Request.Move

variable {isOpen : Bool} {waiting : Option Ticket} {r r' : Request} {e : RequestEvent}

theorem message_eq (h : r.Move isOpen waiting e r') : r'.message = r.message := by
  cases h <;> rfl

theorem slot_eq (h : r.Move isOpen waiting e r') : r'.slot = r.slot := by
  cases h <;> rfl

theorem since_eq (h : r.Move isOpen waiting e r') : r'.since = r.since := by
  cases h <;> rfl

theorem stage_ne_entered (h : r.Move isOpen waiting e r') : r'.stage ≠ .entered := by
  cases h <;> simp

theorem isRegistered_of (h : r.Move isOpen waiting e r') (hr' : r'.isRegistered = true) :
    r.isRegistered = true := by
  cases h <;> simp_all [isRegistered]

/-- A request whose slot waits goes on waiting. -/
theorem still_waits (h : r.Move isOpen waiting e r') (hw : waiting.isSome = true)
    (hr : r.isRegistered = true) (hm : r.stage ≠ .missed) (hv : r.slot = .vacant) :
    r'.isRegistered = true ∧ r'.stage ≠ .missed := by
  cases h <;> simp_all [isRegistered]

theorem answered (h : r.Move isOpen waiting e r') {a : Arrival} (ha : r'.stage = .ended (.ok a)) :
    r.slot = .filled a := by
  cases h <;> simp_all

end Request.Move

namespace Books

variable {isOpen : Bool} {b b' : Books} {id : MessageId} {t u : Ticket} {r q q' : Request}

theorem setRequest_cases (hr : b.requests[t]? = some r)
    (h : (b.setRequest t q).requests[u]? = some q') :
    u = t ∧ q' = q ∨ u ≠ t ∧ b.requests[u]? = some q' := by
  have hlt := (List.getElem?_eq_some_iff.1 hr).1
  simp only [setRequest, List.getElem?_set] at h
  by_cases hu : t = u
  · subst hu
    simp only [if_true, hlt, Option.some.injEq] at h
    exact Or.inl ⟨rfl, h.symm⟩
  · rw [if_neg hu] at h
    exact Or.inr ⟨Ne.symm hu, h⟩

theorem waiting?_setRequest (b : Books) (t : Ticket) (r : Request) (id : MessageId) :
    (b.setRequest t r).waiting? id = b.waiting? id := rfl

theorem mem_pending_withdraw {p : MessageId × Ticket} :
    p ∈ (b.withdraw id).pending ↔ p ∈ b.pending ∧ p.1 ≠ id := by
  unfold withdraw
  cases hw : b.waiting? id with
  | none =>
    refine ⟨fun hp => ⟨hp, ?_⟩, fun hp => hp.1⟩
    rintro rfl
    exact not_mem_of_waiting?_eq_none hw hp
  | some v => simp

theorem mem_pending_giveUp {p : MessageId × Ticket} {d : Duration} :
    p ∈ (b.giveUp t r d).pending ↔ p ∈ b.pending ∧ p.1 ≠ r.message.id :=
  mem_pending_withdraw

theorem pending_withdraw_sublist (b : Books) (id : MessageId) :
    (b.withdraw id).pending.Sublist b.pending := by
  unfold withdraw
  cases b.waiting? id with
  | none => exact List.Sublist.refl _
  | some v => exact List.filter_sublist

@[simp] theorem hand_withdraw (b : Books) (id : MessageId) : (b.withdraw id).hand = b.hand := by
  unfold withdraw; split <;> rfl

@[simp] theorem delivered_withdraw (b : Books) (id : MessageId) :
    (b.withdraw id).delivered = b.delivered := by
  unfold withdraw; split <;> rfl

@[simp] theorem arrivals_withdraw (b : Books) (id : MessageId) :
    (b.withdraw id).arrivals = b.arrivals := by
  unfold withdraw; split <;> rfl

@[simp] theorem expired_withdraw (b : Books) (id : MessageId) :
    (b.withdraw id).expired = b.expired := by
  unfold withdraw; split <;> rfl

@[simp] theorem expirations_withdraw (b : Books) (id : MessageId) :
    (b.withdraw id).expirations = b.expirations := by
  unfold withdraw; split <;> rfl

@[simp] theorem orphaned_withdraw (b : Books) (id : MessageId) :
    (b.withdraw id).orphaned = b.orphaned := by
  unfold withdraw; split <;> rfl

@[simp] theorem late_withdraw (b : Books) (id : MessageId) : (b.withdraw id).late = b.late := by
  unfold withdraw; split <;> rfl

@[simp] theorem unasked_withdraw (b : Books) (id : MessageId) :
    (b.withdraw id).unasked = b.unasked := by
  unfold withdraw; split <;> rfl

@[simp] theorem hand_giveUp (b : Books) (t : Ticket) (r : Request) (d : Duration) :
    (b.giveUp t r d).hand = b.hand := hand_withdraw ..

@[simp] theorem arrivals_giveUp (b : Books) (t : Ticket) (r : Request) (d : Duration) :
    (b.giveUp t r d).arrivals = b.arrivals := arrivals_withdraw ..

@[simp] theorem delivered_giveUp (b : Books) (t : Ticket) (r : Request) (d : Duration) :
    (b.giveUp t r d).delivered = b.delivered := delivered_withdraw ..

@[simp] theorem orphaned_giveUp (b : Books) (t : Ticket) (r : Request) (d : Duration) :
    (b.giveUp t r d).orphaned = b.orphaned := orphaned_withdraw ..

@[simp] theorem late_giveUp (b : Books) (t : Ticket) (r : Request) (d : Duration) :
    (b.giveUp t r d).late = b.late := late_withdraw ..

@[simp] theorem unasked_giveUp (b : Books) (t : Ticket) (r : Request) (d : Duration) :
    (b.giveUp t r d).unasked = b.unasked := unasked_withdraw ..

theorem withdraw_cases (h : (b.withdraw id).requests[u]? = some q') :
    ∃ q, b.requests[u]? = some q ∧
      (b.waiting? id ≠ some u ∧ q' = q ∨ b.waiting? id = some u ∧ q' = q.abandon) := by
  rw [getElem?_withdraw] at h
  split at h
  · next hw =>
    obtain ⟨q, hq, rfl⟩ := Option.map_eq_some_iff.1 h
    exact ⟨q, hq, Or.inr ⟨hw, rfl⟩⟩
  · next hw => exact ⟨q', h, Or.inl ⟨hw, rfl⟩⟩

/-- Taking a slot away changes nothing of a request but a slot that is empty. -/
theorem kept_of_withdraw (h : (b.withdraw id).requests[u]? = some q') :
    ∃ q, b.requests[u]? = some q ∧ q'.message = q.message ∧ q'.since = q.since ∧
      q'.stage = q.stage ∧ ∀ a, q'.slot = .filled a ↔ q.slot = .filled a := by
  obtain ⟨q, hq, ⟨-, rfl⟩ | ⟨-, rfl⟩⟩ := withdraw_cases h
  · exact ⟨q', hq, rfl, rfl, rfl, fun _ => Iff.rfl⟩
  · exact ⟨q, hq, q.message_abandon, q.since_abandon, q.stage_abandon,
      fun _ => Request.slot_abandon_eq_filled⟩

namespace Coherent

theorem move {e : RequestEvent} {r' : Request} (h : b.Coherent) (hr : b.requests[t]? = some r)
    (hm : r.Move isOpen (b.waiting? r.message.id) e r') : (b.setRequest t r').Coherent where
  keys := h.keys
  waiting id u hu := by
    obtain ⟨q, hq, hid, hv, hreg, hne⟩ := h.waiting id u hu
    refine ⟨_, b.getElem?_setRequest t u r' q hq, ?_⟩
    split
    · next htu =>
      subst htu
      cases hr.symm.trans hq
      have hsome : (b.waiting? r.message.id).isSome = true := by
        rw [hid, waiting?_of_mem h.keys hu]; rfl
      obtain ⟨h1, h2⟩ := hm.still_waits hsome hreg hne hv
      exact ⟨by rw [hm.message_eq]; exact hid, by rw [hm.slot_eq]; exact hv, h1, h2⟩
    · exact ⟨hid, hv, hreg, hne⟩
  claimed a u hu := by
    obtain ⟨⟨q, hq, hid, hv, hne, hsince⟩, hp⟩ := h.claimed a u hu
    refine ⟨⟨_, b.getElem?_setRequest t u r' q hq, ?_⟩, hp⟩
    split
    · next htu =>
      subst htu
      cases hr.symm.trans hq
      exact ⟨by rw [hm.message_eq]; exact hid, by rw [hm.slot_eq]; exact hv, hm.stage_ne_entered,
        by rw [hm.since_eq]; exact hsince⟩
    · exact ⟨hid, hv, hne, hsince⟩
  vacant u q hq hreg hv := by
    obtain ⟨rfl, rfl⟩ | ⟨hu, hq⟩ := setRequest_cases hr hq
    · rw [hm.message_eq]
      exact h.vacant u r hr (hm.isRegistered_of hreg) (by rw [← hm.slot_eq]; exact hv)
    · exact h.vacant u q hq hreg hv
  filled u q a hq ha := by
    obtain ⟨rfl, rfl⟩ | ⟨hu, hq⟩ := setRequest_cases hr hq
    · rw [hm.message_eq, hm.since_eq]
      exact h.filled u r a hr (by rw [← hm.slot_eq]; exact ha)
    · exact h.filled u q a hq ha
  delivered u a hu := by
    obtain ⟨q, hq, ha⟩ := h.delivered u a hu
    refine ⟨_, b.getElem?_setRequest t u r' q hq, ?_⟩
    split
    · next htu =>
      subst htu
      cases hr.symm.trans hq
      rw [hm.slot_eq]
      exact ha
    · exact ha
  answered u q a hq ha := by
    obtain ⟨rfl, rfl⟩ | ⟨hu, hq⟩ := setRequest_cases hr hq
    · rw [hm.slot_eq]
      exact hm.answered ha
    · exact h.answered u q a hq ha
  entered u q hq hs := by
    obtain ⟨rfl, rfl⟩ | ⟨hu, hq⟩ := setRequest_cases hr hq
    · exact absurd hs hm.stage_ne_entered
    · exact h.entered u q hq hs
  since u q hq := by
    obtain ⟨rfl, rfl⟩ | ⟨hu, hq⟩ := setRequest_cases hr hq
    · rw [hm.since_eq]
      exact h.since u r hr
    · exact h.since u q hq

theorem send (h : b.Coherent) {m : Message} {stage : RequestStage}
    (hs : stage = .entered ∨ stage = .ended (.error .closed)) :
    ({ b with requests := b.requests ++ [{ message := m, stage }] } : Books).Coherent := by
  have hold : ∀ {u : Ticket} {q : Request}, b.requests[u]? = some q →
      (b.requests ++ [({ message := m, stage } : Request)])[u]? = some q := by
    intro u q hq
    rw [List.getElem?_append_left (List.getElem?_eq_some_iff.1 hq).1, hq]
  have hnew : ∀ {u : Ticket} {q : Request},
      (b.requests ++ [({ message := m, stage } : Request)])[u]? = some q →
      b.requests[u]? = some q ∨ q = { message := m, stage } := by
    intro u q hq
    rcases Nat.lt_trichotomy u b.requests.length with hu | hu | hu
    · rw [List.getElem?_append_left hu] at hq
      exact Or.inl hq
    · subst hu
      rw [List.getElem?_concat_length] at hq
      exact Or.inr (Option.some.inj hq).symm
    · have hlen : (b.requests ++ [({ message := m, stage } : Request)]).length ≤ u := by
        simp only [List.length_append, List.length_singleton]
        omega
      rw [List.getElem?_eq_none hlen] at hq
      cases hq
  refine ⟨h.keys, ?_, ?_, ?_, ?_, ?_, ?_, ?_, ?_⟩
  · intro id u hu
    obtain ⟨q, hq, hrest⟩ := h.waiting id u hu
    exact ⟨q, hold hq, hrest⟩
  · intro a u hu
    obtain ⟨⟨q, hq, hrest⟩, hp⟩ := h.claimed a u hu
    exact ⟨⟨q, hold hq, hrest⟩, hp⟩
  · intro u q hq hreg hv
    rcases hnew hq with hq | rfl
    · exact h.vacant u q hq hreg hv
    · rcases hs with rfl | rfl <;> simp [Request.isRegistered] at hreg
  · intro u q a hq ha
    rcases hnew hq with hq | rfl
    · exact h.filled u q a hq ha
    · cases ha
  · intro u a hu
    obtain ⟨q, hq, ha⟩ := h.delivered u a hu
    exact ⟨q, hold hq, ha⟩
  · intro u q a hq ha
    rcases hnew hq with hq | rfl
    · exact h.answered u q a hq ha
    · rcases hs with rfl | rfl <;> cases ha
  · intro u q hq hst
    rcases hnew hq with hq | rfl
    · exact h.entered u q hq hst
    · rfl
  · intro u q hq
    rcases hnew hq with hq | rfl
    · exact h.since u q hq
    · exact Nat.zero_le _

theorem register (h : b.Coherent) (hr : b.requests[t]? = some r) (hs : r.stage = .entered)
    (hw : b.waiting? r.message.id = none) :
    ({ b.setRequest t { r with stage := .registered, since := b.arrivals.length } with
        pending := b.pending ++ [(r.message.id, t)] } : Books).Coherent where
  keys := by
    rw [List.map_append, List.nodup_append]
    refine ⟨h.keys, by simp, ?_⟩
    rintro id hid _ hid' rfl
    obtain ⟨⟨id', u⟩, hu, rfl⟩ := List.mem_map.1 hid
    simp only [List.map_cons, List.map_nil, List.mem_singleton] at hid'
    subst hid'
    exact not_mem_of_waiting?_eq_none hw hu
  waiting id u hu := by
    rcases List.mem_append.1 hu with hu | hu
    · obtain ⟨q, hq, hid, hv, hreg, hne⟩ := h.waiting id u hu
      refine ⟨_, b.getElem?_setRequest t u _ q hq, ?_⟩
      have htu : t ≠ u := by
        rintro rfl
        cases hr.symm.trans hq
        simp [Request.isRegistered, hs] at hreg
      rw [if_neg htu]
      exact ⟨hid, hv, hreg, hne⟩
    · cases List.mem_singleton.1 hu
      refine ⟨_, b.getElem?_setRequest t t _ r hr, ?_⟩
      rw [if_pos rfl]
      exact ⟨rfl, h.entered t r hr hs, rfl, by simp⟩
  claimed a u hu := by
    obtain ⟨⟨q, hq, hid, hv, hne, hsince⟩, hp⟩ := h.claimed a u hu
    have htu : t ≠ u := by
      rintro rfl
      cases hr.symm.trans hq
      exact hne hs
    refine ⟨⟨_, b.getElem?_setRequest t u _ q hq, ?_⟩, fun id hid => ?_⟩
    · rw [if_neg htu]
      exact ⟨hid, hv, hne, hsince⟩
    · rcases List.mem_append.1 hid with hid | hid
      · exact hp id hid
      · cases List.mem_singleton.1 hid
        exact htu rfl
  vacant u q hq hreg hv := by
    obtain ⟨rfl, rfl⟩ | ⟨hu, hq⟩ := setRequest_cases hr hq
    · exact Or.inl (List.mem_append_right _ (List.mem_singleton_self _))
    · rcases h.vacant u q hq hreg hv with hp | ha
      · exact Or.inl (List.mem_append_left _ hp)
      · exact Or.inr ha
  filled u q a hq ha := by
    obtain ⟨rfl, rfl⟩ | ⟨hu, hq⟩ := setRequest_cases hr hq
    · have hv := h.entered u r hr hs
      rw [show r.slot = .filled a from ha] at hv
      cases hv
    · exact h.filled u q a hq ha
  delivered u a hu := by
    obtain ⟨q, hq, ha⟩ := h.delivered u a hu
    refine ⟨_, b.getElem?_setRequest t u _ q hq, ?_⟩
    split
    · next htu => subst htu; cases hr.symm.trans hq; exact ha
    · exact ha
  answered u q a hq ha := by
    obtain ⟨rfl, rfl⟩ | ⟨hu, hq⟩ := setRequest_cases hr hq
    · cases ha
    · exact h.answered u q a hq ha
  entered u q hq hst := by
    obtain ⟨rfl, rfl⟩ | ⟨hu, hq⟩ := setRequest_cases hr hq
    · cases hst
    · exact h.entered u q hq hst
  since u q hq := by
    obtain ⟨rfl, rfl⟩ | ⟨hu, hq⟩ := setRequest_cases hr hq
    · exact Nat.le_refl _
    · exact h.since u q hq

/-- A request ends in an error and takes away what waits under its id. -/
theorem finish (h : b.Coherent) (hr : b.requests[t]? = some r) {e : ConnectionError} :
    ((b.setStage t r (.ended (.error e))).withdraw r.message.id).Coherent where
  keys := h.keys.sublist ((pending_withdraw_sublist _ _).map _)
  waiting id u hu := by
    obtain ⟨hu, hid⟩ := mem_pending_withdraw.1 hu
    obtain ⟨q, hq, hqid, hrest⟩ := h.waiting id u hu
    have htu : t ≠ u := by
      rintro rfl
      cases hr.symm.trans hq
      exact hid hqid.symm
    have hw : b.waiting? r.message.id ≠ some u := by
      intro hw
      obtain ⟨q', hq', hqid', -⟩ := h.waiting _ u (mem_of_waiting? hw)
      cases hq.symm.trans hq'
      exact hid (hqid.symm.trans hqid')
    refine ⟨q, ?_, hqid, hrest⟩
    rw [getElem?_withdraw, setStage, b.getElem?_setRequest t u _ q hq, waiting?_setRequest,
      if_neg hw, if_neg htu]
  claimed a u hu := by
    rw [hand_withdraw] at hu
    obtain ⟨⟨q, hq, hid, hv, hne, hsince⟩, hp⟩ := h.claimed a u hu
    have hw : b.waiting? r.message.id ≠ some u := fun hw => hp _ (mem_of_waiting? hw)
    refine ⟨?_, fun id hid => hp id (mem_pending_withdraw.1 hid).1⟩
    rw [getElem?_withdraw, setStage, b.getElem?_setRequest t u _ q hq, waiting?_setRequest,
      if_neg hw]
    refine ⟨_, rfl, ?_⟩
    split
    · next htu =>
      subst htu
      cases hr.symm.trans hq
      exact ⟨hid, hv, by simp, hsince⟩
    · exact ⟨hid, hv, hne, hsince⟩
  vacant u q' hq' hreg hv := by
    rw [hand_withdraw]
    obtain ⟨q, hq, ⟨hw, rfl⟩ | ⟨-, rfl⟩⟩ := withdraw_cases hq'
    · obtain ⟨rfl, rfl⟩ | ⟨hu, hq⟩ := setRequest_cases hr hq
      · simp [Request.isRegistered] at hreg
      · rcases h.vacant u q' hq hreg hv with hp | ha
        · refine Or.inl (mem_pending_withdraw.2 ⟨hp, fun hid => ?_⟩)
          rw [show q'.message.id = r.message.id from hid] at hp
          exact hw (waiting?_of_mem h.keys hp)
        · exact Or.inr ha
    · exact absurd hv q.slot_abandon_ne_vacant
  filled u q' a hq' ha := by
    obtain ⟨q, hq, hmessage, hsince, -, hslot⟩ := kept_of_withdraw hq'
    rw [delivered_withdraw, hmessage, hsince]
    obtain ⟨rfl, rfl⟩ | ⟨hu, hq⟩ := setRequest_cases hr hq
    · exact h.filled u r a hr ((hslot a).1 ha)
    · exact h.filled u q a hq ((hslot a).1 ha)
  delivered u a hu := by
    rw [delivered_withdraw] at hu
    obtain ⟨q, hq, ha⟩ := h.delivered u a hu
    rw [getElem?_withdraw, setStage, b.getElem?_setRequest t u _ q hq]
    have hslot : (if t = u then { r with stage := .ended (.error e) } else q).slot = .filled a := by
      split
      · next htu => subst htu; cases hr.symm.trans hq; exact ha
      · exact ha
    split
    · exact ⟨_, rfl, Request.slot_abandon_eq_filled.2 hslot⟩
    · exact ⟨_, rfl, hslot⟩
  answered u q' a hq' ha := by
    obtain ⟨q, hq, -, -, hstage, hslot⟩ := kept_of_withdraw hq'
    rw [hstage] at ha
    obtain ⟨rfl, rfl⟩ | ⟨hu, hq⟩ := setRequest_cases hr hq
    · cases ha
    · exact (hslot a).2 (h.answered u q a hq ha)
  entered u q' hq' hs := by
    obtain ⟨q, hq, hcase⟩ := withdraw_cases hq'
    have hstage : q.stage = .entered := by
      rcases hcase with ⟨-, rfl⟩ | ⟨-, rfl⟩
      · exact hs
      · simpa using hs
    obtain ⟨rfl, rfl⟩ | ⟨hu, hq⟩ := setRequest_cases hr hq
    · cases hstage
    · rcases hcase with ⟨-, rfl⟩ | ⟨hw, rfl⟩
      · exact h.entered u q' hq hstage
      · obtain ⟨q', hq', -, -, hreg, -⟩ := h.waiting _ u (mem_of_waiting? hw)
        cases hq.symm.trans hq'
        simp [Request.isRegistered, hstage] at hreg
  since u q' hq' := by
    obtain ⟨q, hq, -, hsince, -⟩ := kept_of_withdraw hq'
    rw [arrivals_withdraw, hsince]
    obtain ⟨rfl, rfl⟩ | ⟨hu, hq⟩ := setRequest_cases hr hq
    · exact h.since u r hr
    · exact h.since u q hq

theorem expire (h : b.Coherent) (id : MessageId) : (b.expire id).Coherent :=
  ⟨h.keys, h.waiting, h.claimed, h.vacant, h.filled, h.delivered, h.answered, h.entered, h.since⟩

theorem arrive (h : b.Coherent) (hh : b.hand = none) (m : Message) : (b.arrive m).Coherent where
  keys := h.keys.sublist (List.filter_sublist.map _)
  waiting id u hu := h.waiting id u (List.mem_filter.1 hu).1
  claimed a u hu := by
    have hpair : (⟨b.arrivals.length, m⟩, b.waiting? m.id) = (a, some u) := Option.some.inj hu
    obtain ⟨rfl, hw⟩ := Prod.mk.inj hpair
    obtain ⟨r, hr, hid, hv, hreg, -⟩ := h.waiting _ u (mem_of_waiting? hw)
    refine ⟨⟨r, hr, hid, hv, ?_, h.since u r hr⟩, fun id hp => ?_⟩
    · intro hs
      simp [Request.isRegistered, hs] at hreg
    · obtain ⟨hp, hne⟩ := List.mem_filter.1 hp
      obtain ⟨r', hr', hid', -⟩ := h.waiting id u hp
      cases hr.symm.trans hr'
      exact absurd (hid'.symm.trans hid) (by simpa using hne)
  vacant u r hr hreg hv := by
    rcases h.vacant u r hr hreg hv with hp | ⟨a, ha⟩
    · by_cases hid : r.message.id = m.id
      · have hw := waiting?_of_mem h.keys hp
        rw [hid] at hw
        exact Or.inr ⟨⟨b.arrivals.length, m⟩, by simp [Books.arrive, hw]⟩
      · exact Or.inl (List.mem_filter.2 ⟨hp, by simpa using hid⟩)
    · rw [hh] at ha
      cases ha
  filled := h.filled
  delivered := h.delivered
  answered := h.answered
  entered := h.entered
  since u r hr := by
    have := h.since u r hr
    simp only [Books.arrive, List.length_append, List.length_singleton]
    omega

theorem deliver {a : Arrival} (h : b.Coherent) (hh : b.hand = some (a, some t))
    (hr : b.requests[t]? = some r) (ho : r.isOver = false) :
    ({ b.setRequest t { r with slot := .filled a } with
        hand := none, delivered := b.delivered ++ [(t, a)] } : Books).Coherent := by
  obtain ⟨⟨r', hr', hid, hv, hne, hsince⟩, hp⟩ := h.claimed a t hh
  cases hr.symm.trans hr'
  constructor
  · exact h.keys
  · intro id u hu
    obtain ⟨q, hq, hrest⟩ := h.waiting id u hu
    refine ⟨_, b.getElem?_setRequest t u _ q hq, ?_⟩
    have htu : t ≠ u := by
      rintro rfl
      exact hp id hu
    rw [if_neg htu]
    exact hrest
  · intro a' u hu
    cases hu
  · intro u q hq hreg hvq
    obtain ⟨rfl, rfl⟩ | ⟨hu, hq⟩ := setRequest_cases hr hq
    · cases hvq
    · rcases h.vacant u q hq hreg hvq with hmem | ⟨a', ha'⟩
      · exact Or.inl hmem
      · rw [hh] at ha'
        cases ha'
        exact absurd rfl hu
  · intro u q a' hq ha'
    obtain ⟨rfl, rfl⟩ | ⟨hu, hq⟩ := setRequest_cases hr hq
    · cases ha'
      exact ⟨List.mem_append_right _ (List.mem_singleton_self _), hid, hsince⟩
    · obtain ⟨hd, hrest⟩ := h.filled u q a' hq ha'
      exact ⟨List.mem_append_left _ hd, hrest⟩
  · intro u a' hu
    rcases List.mem_append.1 hu with hu | hu
    · obtain ⟨q, hq, ha'⟩ := h.delivered u a' hu
      refine ⟨_, b.getElem?_setRequest t u _ q hq, ?_⟩
      have htu : t ≠ u := by
        rintro rfl
        cases hr.symm.trans hq
        rw [hv] at ha'
        cases ha'
      rw [if_neg htu]
      exact ha'
    · cases List.mem_singleton.1 hu
      refine ⟨_, b.getElem?_setRequest t t _ r hr, ?_⟩
      rw [if_pos rfl]
  · intro u q a' hq hs
    obtain ⟨rfl, rfl⟩ | ⟨hu, hq⟩ := setRequest_cases hr hq
    · simp [Request.isOver, Request.result?, show r.stage = .ended (.ok a') from hs] at ho
    · exact h.answered u q a' hq hs
  · intro u q hq hs
    obtain ⟨rfl, rfl⟩ | ⟨hu, hq⟩ := setRequest_cases hr hq
    · exact absurd hs hne
    · exact h.entered u q hq hs
  · intro u q hq
    obtain ⟨rfl, rfl⟩ | ⟨hu, hq⟩ := setRequest_cases hr hq
    · exact h.since u r hr
    · exact h.since u q hq

/-- The reader is done with a frame that no request waits for. -/
theorem letGo {expired : List MessageId} {orphaned : List (Ticket × Arrival)}
    {late unasked : List Arrival} (h : b.Coherent)
    (hh : ∀ a t r, b.hand = some (a, some t) → b.requests[t]? = some r → r.isRegistered = false) :
    ({ b with hand := none, expired, orphaned, late, unasked } : Books).Coherent where
  keys := h.keys
  waiting := h.waiting
  claimed a u hu := by cases hu
  vacant u r hr hreg hv := by
    rcases h.vacant u r hr hreg hv with hp | ⟨a, ha⟩
    · exact Or.inl hp
    · rw [hh a u r ha hr] at hreg
      cases hreg
  filled := h.filled
  delivered := h.delivered
  answered := h.answered
  entered := h.entered
  since := h.since

/-- Every step keeps the correspondence of slots and requests. -/
theorem step {e : ConnectionEvent} (h : b.Coherent) (hs : b.Step isOpen e b') : b'.Coherent := by
  cases hs with
  | aside => exact h
  | send hs => exact h.send hs
  | move hr hm => exact h.move hr hm
  | register hr hs hw => exact h.register hr hs hw
  | withdraw hr hs => exact h.finish hr
  | giveUp hr hs hw => exact (h.finish hr).expire _
  | arrive hh => exact h.arrive hh _
  | deliver hh hr ho => exact h.deliver hh hr ho
  | @orphan a u q hh hr ho =>
    refine h.letGo fun a' t r ha hr' => ?_
    rw [hh] at ha
    cases ha
    cases hr.symm.trans hr'
    cases hreg : q.isRegistered with
    | false => rfl
    | true => rw [Request.isOver_of_isRegistered hreg] at ho; cases ho
  | stray hh hr =>
    obtain ⟨⟨r, hr', -⟩, -⟩ := h.claimed _ _ hh
    cases hr.symm.trans hr'
  | late hh he =>
    refine h.letGo fun a' t r ha hr => ?_
    rw [hh] at ha
    cases ha
  | pass hh he =>
    refine h.letGo fun a' t r ha hr => ?_
    rw [hh] at ha
    cases ha

end Coherent

end Books

namespace Connection

variable {options : ConnectionOptions} {c d : Connection}

theorem coherent_new (options : ConnectionOptions) : (new options).books.Coherent := by
  constructor <;> intros <;> simp_all [new, books, Reader.hand]

/-- Slots and requests correspond in every reachable state. -/
theorem coherent (h : (machine options).Reachable c) : c.books.Coherent := by
  refine @Machine.invariant _ _ _ (fun c => c.books.Coherent) (coherent_new options) ?_ c h
  exact fun c e d hc hs => hc.step (step_books hs)

end Connection

end ClusterLink
