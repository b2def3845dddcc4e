import ClusterLink.Connection.Calls
import ClusterLink.Proofs.Connection.Ledger
import ClusterLink.Proofs.Connection.Progress
/-!
# Requests and their responses

A response is a frame that came in after its request was registered and that carries the request's
id, and nobody else is given it. For as long as no time runs out and no two requests in flight share
an id, a peer that answers each request once has each of its answers returned by the request it is
for, whatever else it sends in between, and all the rest goes to the callback in order, up to what is
late.

Results:
* `Books.Answering.step`: what every step keeps in such a stretch.
* `Connection.responses_reach_their_requests`: where responses come from and where they go.
-/
namespace ClusterLink

/-- Whether the caller finds the time up. -/
def ConnectionEvent.isTimeOut : ConnectionEvent → Bool
  | request _ .timeOut => true
  | _ => false

/-- Whether the time is up and the caller has not taken the slot away. -/
def Request.isOverdue (r : Request) : Bool :=
  match r.stage with
  | .overdue => true
  | _ => false

/-- Sorts frames that no slot waits for. One whose id is remembered takes it along, the others are
passed on. What comes first are the ids that are remembered in the end. -/
def sift (expired : List MessageId) (frames : List Arrival) : List MessageId × List Arrival :=
  frames.foldl (fun (left, passed) a =>
    if a.message.id ∈ left then (left.erase a.message.id, passed) else (left, passed ++ [a]))
    (expired, [])

theorem sift_concat (expired : List MessageId) (frames : List Arrival) (a : Arrival) :
    sift expired (frames ++ [a]) =
      if a.message.id ∈ (sift expired frames).1 then
        ((sift expired frames).1.erase a.message.id, (sift expired frames).2)
      else ((sift expired frames).1, (sift expired frames).2 ++ [a]) := by
  unfold sift
  rw [List.foldl_append]
  rfl

namespace Books

/-- Whether a request is still to be given a response: it was not made yet, or it has neither come
back nor been given one. -/
def awaits (b : Books) (t : Ticket) : Bool :=
  match b.requests[t]? with
  | none => true
  | some r => !r.isOver && r.slot = .vacant

/-- The requests at the end that were to be given a response since the start. -/
def awaited (start finish : Books) : List (Request × Ticket) :=
  finish.requests.zipIdx.filter fun p => start.awaits p.2

/-- The frames that came in between two states, in their order. -/
def came (start finish : Books) : List Arrival :=
  ((finish.arrivals.drop start.arrivals.length).zipIdx start.arrivals.length).map
    fun p => ⟨p.2, p.1⟩

/-- The frames that came in between two states and do not carry the id of an awaited request. -/
def unrelated (start finish : Books) : List Arrival :=
  (start.came finish).filter fun a => a.message.id ∉ (start.awaited finish).map (·.1.message.id)

/-- The peer answers no awaited request before it is queued, and none of them twice. -/
def AnswersOnce (start finish : Books) : Prop :=
  ∀ p ∈ start.awaited finish, ∀ a ∈ start.came finish, a.message.id = p.1.message.id →
    p.1.sent = true ∧ p.1.since ≤ a.number ∧
      ∀ a' ∈ start.came finish, a'.message.id = a.message.id → a' = a

instance (start finish : Books) : Decidable (start.AnswersOnce finish) := by
  unfold AnswersOnce
  infer_instance

variable {isOpen : Bool} {o b b' z : Books} {e : ConnectionEvent} {t u : Ticket} {r q : Request}
  {a : Arrival}

/-- Whoever is to be given a response now was to be given one before. -/
theorem Later.awaits (h : o.Later b) (hr : b.requests[t]? = some r) (ho : r.isOver = false)
    (hv : r.slot = .vacant) : o.awaits t = true := by
  unfold Books.awaits
  cases hq : o.requests[t]? with
  | none => rfl
  | some q =>
    obtain ⟨r', hr', hbec⟩ := h.kept t q hq
    cases hr.symm.trans hr'
    have hqo : q.isOver = false := by
      cases hqo : q.isOver with
      | false => rfl
      | true => rw [hbec.isOver hqo] at ho; cases ho
    simp [hqo, hbec.vacant hv]

theorem mem_awaited : (r, t) ∈ o.awaited z ↔ z.requests[t]? = some r ∧ o.awaits t = true := by
  simp [awaited, List.mem_zipIdx_iff_getElem?]

theorem mem_came :
    a ∈ o.came z ↔ o.arrivals.length ≤ a.number ∧ z.arrivals[a.number]? = some a.message := by
  obtain ⟨n, m⟩ := a
  have hiff : (⟨n, m⟩ : Arrival) ∈ o.came z ↔
      (m, n) ∈ (z.arrivals.drop o.arrivals.length).zipIdx o.arrivals.length := by
    unfold came
    rw [List.mem_map]
    refine ⟨?_, fun h => ⟨_, h, rfl⟩⟩
    rintro ⟨⟨m', n'⟩, hmem, heq⟩
    cases heq
    exact hmem
  rw [hiff, List.mk_mem_zipIdx_iff_le_and_getElem?_sub, List.getElem?_drop]
  refine and_congr_right fun hle => ?_
  rw [Nat.add_sub_cancel' hle]

theorem came_arrive (h : o.arrivals.length ≤ b.arrivals.length) (m : Message) :
    o.came (b.arrive m) = o.came b ++ [⟨b.arrivals.length, m⟩] := by
  unfold came
  have harr : (b.arrive m).arrivals = b.arrivals ++ [m] := rfl
  rw [harr, List.drop_append_of_le_length h, List.zipIdx_append, List.map_append, List.length_drop]
  simp [Nat.add_sub_cancel' h]

end Books

/-- A request that nobody has let down: its slot is taken away only after it was refused, its time is
not up, and if it was queued it ends in a response. -/
structure Request.OnTime (r : Request) : Prop where
  slot : r.slot = .abandoned → r.isOver = true ∧ r.sent = false
  stage : r.stage ≠ .missed
  result : r.sent = true → r.isOver = true → ∃ a, r.stage = .ended (.ok a)

namespace Request.OnTime

variable {isOpen : Bool} {waiting : Option Ticket} {b : Books} {e : RequestEvent} {r r' : Request}

theorem move (h : r.OnTime) (ht : r.Timely) (hm : r.Move isOpen waiting e r')
    (ho : r.stage ≠ .overdue) : r'.OnTime := by
  have hover := hm.isOver_eq_false
  obtain ⟨h₁, h₂, h₃⟩ := h
  have hslot : r.slot ≠ .abandoned := by
    intro hs
    rw [(h₁ hs).1] at hover
    cases hover
  have hsent := ht.unqueued
  cases hm <;> constructor <;> simp_all [Request.isUnqueued, Request.isOver, Request.result?]

end Request.OnTime

namespace Books

variable {isOpen : Bool} {o b b' z : Books} {e : ConnectionEvent} {t : Ticket} {r : Request}
  {a : Arrival} {m : Message}

/-- No request is overdue, and none of those that are to be given a response is let down. -/
structure Punctual (o b : Books) : Prop where
  overdue : ∀ (t : Ticket) r, b.requests[t]? = some r → r.stage ≠ .overdue
  onTime : ∀ (t : Ticket) r, b.requests[t]? = some r → o.awaits t = true → r.OnTime

theorem Punctual.step (h : o.Punctual b) (hc : b.Coherent) (ht : b.Timely)
    (hd : b.DistinctInFlight) (hs : b.Step isOpen e b') (he : e.isTimeOut = false) :
    o.Punctual b' where
  overdue := by
    refine hs.forall_requests (fun t m stage hstage => ?_) (fun t r r' hr hch hne => ?_) h.overdue
    · rcases hstage with rfl | rfl <;> simp
    · cases hch with
      | keep => exact hne
      | @move e' r' heq hm =>
        subst heq
        cases hm <;> simp_all [ConnectionEvent.isTimeOut]
      | register => simp
      | withdraw heq hst hr' => subst hr'; split <;> simp
      | giveUp d heq hst hw hr' => exact absurd hst hne
      | robbed => simpa
      | fill => exact hne
  onTime := by
    refine hs.forall_requests (fun t m stage hstage _ => ?_) (fun t r r' hr hch hon hw => ?_)
      h.onTime
    · rcases hstage with rfl | rfl <;> constructor <;> simp
    · have hon := hon hw
      have hne := h.overdue t r hr
      cases hch with
      | keep => exact hon
      | move heq hm => exact hon.move (ht t r hr) hm hne
      | register heq hst hw =>
        obtain ⟨h₁, h₂, h₃⟩ := hon
        constructor <;> simp_all [Request.isOver, Request.result?]
      | withdraw heq hst hr' =>
        have hsent := (ht t r hr).unqueued (by simp [Request.isUnqueued, hst])
        subst hr'
        constructor <;> split <;> simp_all [Request.isOver, Request.result?]
      | giveUp d heq hst hw hr' => exact absurd hst hne
      | @robbed u q hu hq hby hw =>
        -- Whoever takes the slot away is in flight under the same id.
        rcases hby with ⟨-, hst⟩ | ⟨-, hst⟩
        · exact absurd hst (h.overdue u q hq)
        · obtain ⟨r', hr', hid, hv, hreg, -⟩ := hc.waiting _ t (mem_of_waiting? hw)
          cases hr.symm.trans hr'
          have hqo : q.isOver = false := by simp [Request.isOver, Request.result?, hst]
          exact absurd (hd.eq hq hr hqo (Request.isOver_of_isRegistered hreg) hid.symm) hu
      | fill heq hh ho => exact ⟨by simp, hon.stage, hon.result⟩

/-- The ids of the awaited requests. -/
def awaitedIds (o z : Books) : List MessageId := (o.awaited z).map (·.1.message.id)

theorem mem_awaitedIds {id : MessageId} :
    id ∈ o.awaitedIds z ↔ ∃ t r, (r, t) ∈ o.awaited z ∧ r.message.id = id := by
  unfold awaitedIds
  rw [List.mem_map]
  exact ⟨fun ⟨(r, t), h, hid⟩ => ⟨t, r, h, hid⟩, fun ⟨t, r, h, hid⟩ => ⟨(r, t), h, hid⟩⟩

/-- How far the frames have come that came in since the state `o`, seen from the last state `z`:
answers are with their requests, and the others have been sorted. -/
structure Answering (o z b : Books) : Prop where
  before : o.arrivals.length ≤ b.arrivals.length
  hand : ∀ a slot, b.hand = some (a, slot) → o.arrivals.length ≤ a.number
  fresh : ∀ t a, (t, a) ∈ b.delivered → o.awaits t = true → o.arrivals.length ≤ a.number
  answered : ∀ t r, (r, t) ∈ o.awaited z → ∀ a ∈ o.came b, a.message.id = r.message.id →
    (t, a) ∈ b.delivered ∨ b.hand = some (a, some t)
  sorted : ∃ frames, (o.came b).filter (fun a => a.message.id ∉ o.awaitedIds z) =
      frames ++ b.strayInHand ∧
    b.expired = (sift o.expired frames).1 ∧ b.unasked = o.unasked ++ (sift o.expired frames).2

theorem Answering.start (hc : o.Coherent) (hh : o.hand = none) : Answering o z o where
  before := Nat.le_refl _
  hand a slot h := by rw [hh] at h; cases h
  fresh t a h hw := by
    obtain ⟨r, hr, ha⟩ := hc.delivered t a h
    simp [awaits, hr, ha] at hw
  answered t r hmem a ha hid := by
    obtain ⟨hle, hget⟩ := mem_came.1 ha
    have := (List.getElem?_eq_some_iff.1 hget).1
    omega
  sorted := ⟨[], by simp [came, strayInHand_of_none hh], by simp [sift], by simp [sift]⟩

/-- When the answer to a request comes in, the request's slot waits for it. -/
theorem Answering.waiting_of_answer (h : Answering o z b) (hp : o.Punctual b) (hc : b.Coherent)
    (hacc : b.Accounted) (hh : b.hand = none) (hl : (b.arrive m).Later z)
    (hz : z.Timely) (hans : o.AnswersOnce z) (hmem : (r, t) ∈ o.awaited z)
    (hid : m.id = r.message.id) : b.waiting? m.id = some t := by
  obtain ⟨hr, hw⟩ := mem_awaited.1 hmem
  have hcame : (⟨b.arrivals.length, m⟩ : Arrival) ∈ o.came z := by
    refine mem_came.2 ⟨h.before, hl.getElem?_arrivals ?_⟩
    exact List.getElem?_concat_length
  obtain ⟨hsent, hsince, honce⟩ := hans _ hmem _ hcame hid
  -- An answer that came in before would be another one.
  have hnone : ∀ a, (t, a) ∈ b.delivered → a.message.id = m.id → False := by
    intro a hda haid
    have harr := hacc.arrived_of_places (places_pos_of_delivered hda)
    have hlt := (List.getElem?_eq_some_iff.1 harr).1
    have harr' : (b.arrive m).arrivals[a.number]? = some a.message := by
      change (b.arrivals ++ [m])[a.number]? = _
      rw [List.getElem?_append_left hlt, harr]
    have ha := honce a (mem_came.2 ⟨h.fresh t a hda hw, hl.getElem?_arrivals harr'⟩) haid
    rw [ha] at hlt
    exact Nat.lt_irrefl _ hlt
  -- The request was registered before.
  have hold : ¬∀ q, b.requests[t]? = some q → q.stage = .entered := by
    intro hnew
    have hle := hl.length_le_since hz hr hsent hnew
    change (b.arrivals ++ [m]).length ≤ r.since at hle
    rw [List.length_append, List.length_singleton] at hle
    exact absurd (Nat.lt_of_lt_of_le (Nat.lt_of_succ_le hle) hsince) (Nat.lt_irrefl _)
  obtain ⟨q, hq, hent⟩ : ∃ q, b.requests[t]? = some q ∧ q.stage ≠ .entered := by simpa using hold
  obtain ⟨r', hr', hbec⟩ := hl.kept t q hq
  cases hr.symm.trans hr'
  have hon := hp.onTime t q hq hw
  have hqid : q.message.id = m.id := by rw [hid, hbec.message]
  have hqo : q.isOver = false := by
    cases ho : q.isOver with
    | false => rfl
    | true =>
      obtain ⟨a, ha⟩ := hon.result ((hbec.final ho).2 ▸ hsent) ho
      obtain ⟨hda, haid, -⟩ := hc.filled t q a hq (hc.answered t q a hq ha)
      exact (hnone a hda (haid.symm.trans hqid)).elim
  have hv : q.slot = .vacant := by
    cases hs : q.slot with
    | vacant => rfl
    | filled a =>
      obtain ⟨hda, haid, -⟩ := hc.filled t q a hq hs
      exact (hnone a hda (haid.symm.trans hqid)).elim
    | abandoned =>
      rw [(hon.slot hs).1] at hqo
      cases hqo
  rcases hc.vacant t q hq (Request.isRegistered_of_stage hent hqo) hv with hpend | ⟨a, ha⟩
  · rw [← hqid]
    exact waiting?_of_mem hc.keys hpend
  · rw [hh] at ha
    cases ha

theorem Answering.of_eq (h : Answering o z b) (ha : b'.arrivals = b.arrivals)
    (hh : b'.hand = b.hand) (hd : b'.delivered = b.delivered) (he : b'.expired = b.expired)
    (hu : b'.unasked = b.unasked) : Answering o z b' := by
  have hcame : o.came b' = o.came b := by unfold came; rw [ha]
  have hstray : b'.strayInHand = b.strayInHand := by unfold strayInHand; rw [hh]
  obtain ⟨h₁, h₂, h₃, h₄, h₅⟩ := h
  exact ⟨by rwa [ha], by rwa [hh], by rwa [hd], by rwa [hcame, hd, hh],
    by rwa [hcame, hstray, he, hu]⟩

theorem Answering.arrive (h : Answering o z b) (hp : o.Punctual b) (hc : b.Coherent)
    (hacc : b.Accounted) (ho : o.Later b) (hh : b.hand = none) (hl : (b.arrive m).Later z)
    (hz : z.Timely) (hans : o.AnswersOnce z) : Answering o z (b.arrive m) where
  before := Nat.le_trans h.before (by simp [Books.arrive])
  hand a slot ha := by
    cases ha
    exact h.before
  fresh := h.fresh
  answered t r hmem a ha hid := by
    rw [came_arrive h.before, List.mem_append, List.mem_singleton] at ha
    rcases ha with ha | rfl
    · rcases h.answered t r hmem a ha hid with hd | hhand
      · exact Or.inl hd
      · rw [hh] at hhand
        cases hhand
    · right
      change some (_, b.waiting? m.id) = _
      rw [h.waiting_of_answer hp hc hacc hh hl hz hans hmem hid]
  sorted := by
    obtain ⟨frames, hf, he, hu⟩ := h.sorted
    refine ⟨frames, ?_, he, hu⟩
    rw [came_arrive h.before, List.filter_append, hf, strayInHand_of_none hh, List.append_nil]
    congr 1
    cases hw : b.waiting? m.id with
    | none =>
      have hmem : m.id ∉ o.awaitedIds z := by
        intro hmem
        obtain ⟨t, r, hmem, hid⟩ := mem_awaitedIds.1 hmem
        have := h.waiting_of_answer hp hc hacc hh hl hz hans hmem hid.symm
        rw [hw] at this
        cases this
      simp [strayInHand, Books.arrive, hw, hmem]
    | some t =>
      -- Whatever waits is a request that was awaited from the start.
      have hmem : m.id ∈ o.awaitedIds z := by
        obtain ⟨r, hr, hid, hv, hreg, -⟩ := hc.waiting _ t (mem_of_waiting? hw)
        obtain ⟨q, hq, hbec⟩ := hl.kept t r hr
        refine mem_awaitedIds.2 ⟨t, q, mem_awaited.2 ⟨hq, ?_⟩, by rw [hbec.message, hid]⟩
        exact ho.awaits hr (Request.isOver_of_isRegistered hreg) hv
      simp [strayInHand, Books.arrive, hw, hmem]

theorem came_subset (h : b.Later z) (ha : a ∈ o.came b) : a ∈ o.came z := by
  obtain ⟨hle, hget⟩ := mem_came.1 ha
  exact mem_came.2 ⟨hle, h.getElem?_arrivals hget⟩

/-- With a frame in the reader's hand that took no slot, all answers are with their requests. -/
theorem Answering.answered_of_stray (h : Answering o z b) (hh : b.hand = some (a, none)) (t : Ticket)
    (r : Request) (hmem : (r, t) ∈ o.awaited z) (a' : Arrival) (ha : a' ∈ o.came b)
    (hid : a'.message.id = r.message.id) :
    (t, a') ∈ b.delivered ∨ (none : Option (Arrival × Option Ticket)) = some (a', some t) := by
  rcases h.answered t r hmem a' ha hid with hd | hhand
  · exact Or.inl hd
  · rw [hh] at hhand
    cases hhand

theorem Answering.step (h : Answering o z b) (hp : o.Punctual b) (hc : b.Coherent)
    (hacc : b.Accounted) (ho : o.Later b) (hl : b'.Later z) (hz : z.Timely)
    (hans : o.AnswersOnce z) (hs : b.Step isOpen e b') : Answering o z b' := by
  cases hs with
  | aside => exact h
  | send | move | register => exact h.of_eq rfl rfl rfl rfl rfl
  | withdraw =>
    exact h.of_eq (arrivals_withdraw ..) (hand_withdraw ..) (delivered_withdraw ..)
      (expired_withdraw ..) (unasked_withdraw ..)
  | giveUp hr hst hw => exact absurd hst (hp.overdue _ _ hr)
  | arrive hh => exact h.arrive hp hc hacc ho hh hl hz hans
  | @deliver a t q hh hr hover =>
    obtain ⟨frames, hf, he, hu⟩ := h.sorted
    refine ⟨h.before, fun a slot ha => by (cases ha), ?_, ?_, frames, ?_, he, hu⟩
    · intro u a' hmem hw
      rcases List.mem_append.1 hmem with hmem | hmem
      · exact h.fresh u a' hmem hw
      · cases List.mem_singleton.1 hmem
        exact h.hand a _ hh
    · intro u r hmem a' ha' hid
      rcases h.answered u r hmem a' ha' hid with hd | hhand
      · exact Or.inl (List.mem_append_left _ hd)
      · rw [hh] at hhand
        cases hhand
        exact Or.inl (List.mem_append_right _ (List.mem_singleton_self _))
    · rw [strayInHand_of_some hh] at hf
      exact hf
  | @orphan a t q hh hr hover =>
    obtain ⟨frames, hf, he, hu⟩ := h.sorted
    refine ⟨h.before, fun a slot ha => by (cases ha), h.fresh, ?_, frames, ?_, he, hu⟩
    · intro u r hmem a' ha' hid
      rcases h.answered u r hmem a' ha' hid with hd | hhand
      · exact Or.inl hd
      · rw [hh] at hhand
        cases hhand
        -- A request that was queued does not come back before its answer is in its slot.
        obtain ⟨hr', hw⟩ := mem_awaited.1 hmem
        obtain ⟨r', hr'', hbec⟩ := hl.kept t q hr
        cases hr'.symm.trans hr''
        have hsent := (hans _ hmem a (came_subset hl ha') hid).1
        obtain ⟨a', hst⟩ := (hp.onTime t q hr hw).result ((hbec.final hover).2 ▸ hsent) hover
        obtain ⟨⟨q', hq', -, hv, -⟩, -⟩ := hc.claimed a t hh
        cases hr.symm.trans hq'
        rw [hc.answered t q a' hr hst] at hv
        cases hv
    · rw [strayInHand_of_some hh] at hf
      exact hf
  | @stray a t hh hr =>
    obtain ⟨⟨r, hr', -⟩, -⟩ := hc.claimed _ _ hh
    cases hr.symm.trans hr'
  | @late a hh hex =>
    obtain ⟨frames, hf, he, hu⟩ := h.sorted
    have hsift := sift_concat o.expired frames a
    rw [← he, if_pos hex] at hsift
    refine ⟨h.before, fun a slot ha => by (cases ha), h.fresh, h.answered_of_stray hh, frames ++ [a],
      ?_, by rw [hsift], by rw [hsift]; exact hu⟩
    rw [strayInHand_of_stray hh] at hf
    exact hf.trans (List.append_nil _).symm
  | @pass a hh hex =>
    obtain ⟨frames, hf, he, hu⟩ := h.sorted
    have hsift := sift_concat o.expired frames a
    rw [← he, if_neg hex] at hsift
    refine ⟨h.before, fun a slot ha => by (cases ha), h.fresh, h.answered_of_stray hh, frames ++ [a],
      ?_, by rw [hsift], ?_⟩
    · rw [strayInHand_of_stray hh] at hf
      exact hf.trans (List.append_nil _).symm
    · rw [hsift, ← List.append_assoc, ← hu]

end Books

namespace Connection

variable {options : ConnectionOptions} {c d : Connection} {t : Ticket} {r : Request} {a : Arrival}
  {events : List ConnectionEvent}

theorem requestSteps_of_ended {result : Except ConnectionError Arrival}
    (hr : d.requests[t]? = some r) (hs : r.stage = .ended result) (fuel : Nat) :
    requestSteps fuel d t = d := by
  cases fuel with
  | zero => rfl
  | succ n => simp [requestSteps, hr, Request.next?, hs]

theorem attend_of_ended (hr : d.requests[t]? = some r) (hs : r.stage = .ended (.ok a)) :
    (d.attend t).result? t = some (.ok a) := by
  unfold attend
  rw [requestSteps_of_ended hr hs]
  simp [Connection.result?, Request.result?, hr, hs]

/-- A caller that finds its response takes it. -/
theorem attend_of_filled (hr : d.requests[t]? = some r) (hs : r.stage = .waiting)
    (ha : r.slot = .filled a) : (d.attend t).result? t = some (.ok a) := by
  have hnext : r.next? = some .take := by simp [Request.next?, hs, ha]
  have hstep : d.stepRequest t r .take = some (d.setStage t r (.ended (.ok a))) := by
    simp [stepRequest, hs, ha]
  have hset : (d.setStage t r (.ended (.ok a))).requests[t]? =
      some { r with stage := .ended (.ok a) } := by
    have hlt := (List.getElem?_eq_some_iff.1 hr).1
    simp [setStage, setRequest, hlt]
  unfold attend
  rw [requestSteps, hr, Option.bind_some, hnext, Option.bind_some, hstep]
  change (requestSteps 3 _ t).result? t = _
  rw [requestSteps_of_ended hset rfl]
  simp [Connection.result?, Request.result?, hset]

/-- What is known of a state between two others, if no time runs out in between. -/
structure Midway (options : ConnectionOptions) (c d u : Connection) : Prop where
  reachable : (machine options).Reachable u
  later : c.books.Later u.books
  punctual : c.books.Punctual u.books
  answering : c.books.Answering d.books u.books

theorem Midway.start (hc : (machine options).Reachable c)
    (hdue : ∀ r ∈ c.requests, r.isOverdue = false) (hh : c.reader.hand = none) :
    Midway options c d c where
  reachable := hc
  later := .refl _
  punctual := by
    refine ⟨fun t r hr hs => ?_, fun t r hr hw => ?_⟩
    · have := hdue r (List.mem_of_getElem? hr)
      simp [Request.isOverdue, hs] at this
    · simp only [Books.awaits, hr, Bool.and_eq_true, Bool.not_eq_true', decide_eq_true_eq] at hw
      refine ⟨fun hs => ?_, fun hs => ?_, fun _ ho => ?_⟩
      · rw [hw.2] at hs
        cases hs
      · -- A slot that nobody took away still waits, and its request has not missed it.
        have hreg : r.isRegistered = true := by simp [Request.isRegistered, hs]
        rcases (coherent hc).vacant t r hr hreg hw.2 with hp | ⟨a, ha⟩
        · obtain ⟨r', hr', -, -, -, hne⟩ := (coherent hc).waiting _ t hp
          cases hr.symm.trans hr'
          exact hne hs
        · cases hh.symm.trans ha
      · rw [hw.1] at ho
        cases ho
  answering := .start (coherent hc) hh

theorem Midway.of_run (hc : (machine options).Reachable c)
    (hrun : (machine options).run c events = some d)
    (hd : (machine options).Along (fun u => u.books.DistinctInFlight) c events)
    (hevents : ∀ e ∈ events, e.isTimeOut = false) (hdue : ∀ r ∈ c.requests, r.isOverdue = false)
    (hh : c.reader.hand = none) (hans : c.books.AnswersOnce d.books) : Midway options c d d := by
  have hz := timely (hc.run hrun)
  refine @Machine.Along.invariant _ _ _ _ (Midway options c d) _ _ _ hd hrun
    (.start hc hdue hh) ?_
  rintro u e v later he hlater hdu - hu hs
  have hb := step_books hs
  have hv := hu.reachable.step hs
  have hlv := later_of_run (timely hv) ((run_machine options v later).symm.trans hlater)
  have hcu := coherent hu.reachable
  have htu := timely hu.reachable
  exact ⟨hv, hu.later.trans (.of_step htu hb),
    hu.punctual.step hcu htu hdu hb (hevents e he),
    hu.answering.step hu.punctual hcu (accounted hu.reachable) hu.later hlv hz hans hb⟩

/-- An awaited request whose answer came in has it once the caller looks. -/
theorem Midway.attend (h : Midway options c d d) (hh : d.reader.hand = none)
    (hans : c.books.AnswersOnce d.books) (hmem : (r, t) ∈ c.books.awaited d.books)
    (ha : a ∈ c.books.came d.books) (hid : a.message.id = r.message.id) :
    (d.attend t).result? t = some (.ok a) := by
  obtain ⟨hr, hw⟩ := Books.mem_awaited.1 hmem
  have hc := coherent h.reachable
  have hsent := (hans _ hmem a ha hid).1
  rcases h.answering.answered t r hmem a ha hid with hd | hhand
  · obtain ⟨r', hr', hslot⟩ := hc.delivered t a hd
    cases hr.symm.trans hr'
    have hon := h.punctual.onTime t r hr hw
    cases ho : r.isOver with
    | true =>
      obtain ⟨a', ha'⟩ := hon.result hsent ho
      have hslot' := hc.answered t r a' hr ha'
      rw [hslot] at hslot'
      cases hslot'
      exact attend_of_ended hr ha'
    | false =>
      refine attend_of_filled hr ?_ hslot
      have hoverdue := h.punctual.overdue t r hr
      have hmissed := hon.stage
      have hunsent := (timely h.reachable t r hr).unqueued
      cases hs : r.stage <;>
        simp_all [Request.isUnqueued, Request.isOver, Request.result?]
  · cases hh.symm.trans hhand

/-- What a request returns was put into its slot. -/
theorem delivered_of_result (hc : (machine options).Reachable c)
    (h : c.result? t = some (.ok a)) : (t, a) ∈ c.books.delivered := by
  obtain ⟨r, hr, hres⟩ := Option.bind_eq_some_iff.1 h
  exact ((coherent hc).filled t r a hr
    ((coherent hc).answered t r a hr (Request.stage_of_result hres))).1

/-- **Responses reach the requests they are for.** A request that returns a response returns a frame
with its id that came in after it was registered. No other request returns that frame, and the
callback is not handed it. In a stretch without timeouts in which requests in flight have different
ids, a peer that answers each of them once has all answers returned, each by the request it is for,
and the callback is handed the other frames in their order, except for those that are late. -/
theorem responses_reach_their_requests (options : ConnectionOptions) :
    (∀ c, (machine options).Reachable c → ∀ (t : Ticket) (r : Request) (a : Arrival),
      c.requests[t]? = some r → r.result? = some (.ok a) → a.message.id = r.message.id ∧
        c.history.arrivals[a.number]? = some a.message ∧ r.since ≤ a.number) ∧
    (∀ c events, (new options).run events = some c → ∀ t a, c.result? t = some (.ok a) →
      (∀ u a', c.result? u = some (.ok a') → a'.number = a.number → u = t) ∧
      ∀ a' ∈ (new options).handed events, a'.number ≠ a.number) ∧
    (∀ c d events, (machine options).Reachable c → c.run events = some d →
      (machine options).Along (fun u => u.books.DistinctInFlight) c events →
      (∀ e ∈ events, e.isTimeOut = false) → (∀ r ∈ c.requests, r.isOverdue = false) →
      c.reader.hand = none → d.reader.hand = none → c.books.AnswersOnce d.books →
      (∀ p ∈ c.books.awaited d.books, ∀ a ∈ c.books.came d.books, a.message.id = p.1.message.id →
        (d.attend p.2).result? p.2 = some (.ok a)) ∧
      c.handed events =
        if d.hasCallback then (sift c.expired (c.books.unrelated d.books)).2 else []) := by
  refine ⟨fun c hc t r a hr hres => ?_, fun c events hrun t a ht => ?_, ?_⟩
  · have hslot := (coherent hc).answered t r a hr (Request.stage_of_result hres)
    obtain ⟨hd, hid, hsince⟩ := (coherent hc).filled t r a hr hslot
    exact ⟨hid.symm, (accounted hc).arrived_of_places (Books.places_pos_of_delivered hd), hsince⟩
  · have hc : (machine options).Reachable c := Machine.Reachable.start.run hrun
    have hd := delivered_of_result hc ht
    have hplaces := Books.places_pos_of_delivered hd
    refine ⟨fun u a' hu hn => ?_, fun a' ha' hn => ?_⟩
    · have hd' := delivered_of_result hc hu
      obtain rfl := (accounted hc).eq_of_number (Books.places_pos_of_delivered hd') hplaces hn
      exact (accounted hc).delivered_once hd' hd
    · obtain ⟨passed, hp, hhanded, -⟩ := run_handed hrun
      have hmem : a' ∈ c.history.unasked := by
        rw [hhanded] at ha'
        rw [hp]
        split at ha'
        · exact List.mem_append_right _ ha'
        · cases ha'
      obtain rfl := (accounted hc).eq_of_number (Books.places_pos_of_unasked hmem) hplaces hn
      exact (accounted hc).not_unasked_of_delivered hd hmem
  · intro c d events hc hrun hdist hevents hdue hch hdh hans
    have h := Midway.of_run hc ((run_machine options c events).trans hrun) hdist hevents hdue hch
      hans
    refine ⟨fun p hp a ha hid => h.attend hdh hans hp ha hid, ?_⟩
    obtain ⟨frames, hf, -, hu⟩ := h.answering.sorted
    obtain ⟨passed, hp, hhanded, -⟩ := run_handed hrun
    rw [Books.strayInHand_of_none (b := d.books) hdh, List.append_nil] at hf
    have hpassed : passed = (sift c.expired (c.books.unrelated d.books)).2 := by
      refine List.append_cancel_left (hp.symm.trans (hu.trans ?_))
      rw [← hf]
      rfl
    rw [hhanded, hpassed]

/-! ## Two answers that cross -/

private def question (n : Nat) : Message := .bare (.ofNat n) .select

private def frame (n : Nat) : Message := .bare (.ofNat n) .insert

private def makes (t : Ticket) (m : Message) : List ConnectionEvent :=
  [.send m, .request t .register, .request t .reach, .request t .queue]

private def receives (m : Message) : List ConnectionEvent :=
  [.reader (.arrive m), .reader .dispatch]

/-- A request times out before anything comes in. -/
private def opening : List ConnectionEvent :=
  .reader (.start true) :: makes 0 (question 9) ++
    [.request 0 .timeOut, .request 0 .giveUp]

/-- Two more requests are made and answered in the other order, among frames that nobody waits for:
one that nobody asked for, the late response, and another frame with its id. -/
private def exchange : List ConnectionEvent :=
  makes 1 (question 1) ++ makes 2 (question 2) ++ receives (frame 7) ++
    [.reader .comeBack] ++ receives (frame 9) ++ receives (frame 2) ++ receives (frame 9) ++
    [.reader .comeBack] ++ receives (frame 1)

private def opened : Connection := ((new {}).run opening).getD (new {})

private def exchanged : Connection := (opened.run exchange).getD opened

theorem opened_reachable : (machine {}).Reachable opened := by
  have h : (new {}).run opening = some opened := by rfl
  exact Machine.Reachable.start.run h

theorem crossing_answers_reach_their_requests :
    (exchanged.attend 1).result? 1 = some (.ok ⟨4, frame 1⟩) ∧
      (exchanged.attend 2).result? 2 = some (.ok ⟨2, frame 2⟩) ∧
      opened.handed exchange = [⟨0, frame 7⟩, ⟨3, frame 9⟩] := by
  have hrun : opened.run exchange = some exchanged := by rfl
  obtain ⟨-, -, h⟩ := responses_reach_their_requests {}
  obtain ⟨hans, hhanded⟩ := h opened exchanged exchange opened_reachable hrun (by decide)
    (by decide) (by decide) (by rfl) (by rfl) (by decide)
  refine ⟨?_, ?_, ?_⟩
  · exact hans (⟨question 1, .waiting, .filled ⟨4, frame 1⟩, 0, true⟩, 1)
      (Books.mem_awaited.2 ⟨rfl, rfl⟩) ⟨4, frame 1⟩ (by decide) rfl
  · exact hans (⟨question 2, .waiting, .filled ⟨2, frame 2⟩, 0, true⟩, 2)
      (Books.mem_awaited.2 ⟨rfl, rfl⟩) ⟨2, frame 2⟩ (by decide) rfl
  · rw [hhanded]
    decide

end Connection

end ClusterLink
