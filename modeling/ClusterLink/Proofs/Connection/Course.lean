import ClusterLink.Proofs.Connection.Ledger
import ClusterLink.Proofs.Connection.Outgoing
import ClusterLink.Proofs.Connection.Progress
import Mathlib.Data.List.Nodup
/-!
# Requests on their course

On an open connection whose requests all have different ids, nobody gets in the way of a request but
its own time. One whose time does not run out goes from stage to stage up to its response, and finds
in its slot the frame that carried its id.

Results:
* `Books.Tended.step`: no step brings a request off its course whose time does not run out, and each
  frame that comes in for it is put where it finds it.
* `Books.Posted.step`, `Books.Posted.queue`: the messages that were queued are those of the requests
  that say so.
* `Connection.ahead_stepRequest`: every step of a caller brings its request closer to its end.
* `Connection.exists_request_step`: a request on its course waits for nothing but its response.
-/
namespace ClusterLink

namespace Books

variable {b : Books} {t u : Ticket} {r q : Request}

/-- All requests have different ids. -/
def Distinct (b : Books) : Prop := (b.requests.map (·.message.id)).Nodup

theorem Distinct.eq (h : b.Distinct) (hr : b.requests[t]? = some r) (hq : b.requests[u]? = some q)
    (hid : r.message.id = q.message.id) : t = u := by
  obtain ⟨ht, rfl⟩ := List.getElem?_eq_some_iff.1 hr
  obtain ⟨hu, rfl⟩ := List.getElem?_eq_some_iff.1 hq
  have heq : (b.requests.map (·.message.id))[t]? = (b.requests.map (·.message.id))[u]? := by
    rw [List.getElem?_map, List.getElem?_map, List.getElem?_eq_getElem ht,
      List.getElem?_eq_getElem hu, Option.map_some, Option.map_some, hid]
  exact (List.getElem?_inj (by rwa [List.length_map]) h).1 heq

/-- The slot that waits for the id of a request is its own. -/
theorem Distinct.waiting_eq (h : b.Distinct) (hc : b.Coherent) (hr : b.requests[t]? = some r)
    (hw : b.waiting? r.message.id = some u) : u = t ∧ r.isRegistered = true := by
  obtain ⟨q, hq, hid, -, hreg, -⟩ := hc.waiting _ u (mem_of_waiting? hw)
  obtain rfl := h.eq hq hr hid
  cases hr.symm.trans hq
  exact ⟨rfl, hreg⟩

end Books

/-! ## One request -/

namespace Request

variable {isOpen : Bool} {b : Books} {e : ConnectionEvent} {t : Ticket} {r r' : Request}

/-- Whether a request is on its way to a response, or has it. -/
structure OnCourse (r : Request) : Prop where
  slot : r.slot ≠ .abandoned
  refused : r.stage ≠ .refused
  overdue : r.stage ≠ .overdue
  missed : r.stage ≠ .missed
  failed : ∀ e, r.stage ≠ .ended (.error e)

/-- Nothing but its own time brings a request off its course. -/
theorem OnCourse.change (h : r.OnCourse) (hc : b.Coherent) (hd : b.Distinct)
    (hr : b.requests[t]? = some r) (hch : r.Change true b e t r') (he : e ≠ .request t .timeOut) :
    r'.OnCourse := by
  obtain ⟨h₁, h₂, h₃, h₄, h₅⟩ := h
  cases hch with
  | keep => exact ⟨h₁, h₂, h₃, h₄, h₅⟩
  | move he' hm =>
    subst he'
    cases hm with
    | duplicate hs hw =>
      obtain ⟨u, hu⟩ := Option.isSome_iff_exists.1 hw
      have hreg := (hd.waiting_eq hc hr hu).2
      simp [isRegistered, hs] at hreg
    | timeOut => exact absurd rfl he
    | lose hs ha => exact absurd ha h₁
    | _ => constructor <;> simp_all
  | register => constructor <;> simp_all
  | withdraw he' hs => exact absurd hs h₂
  | giveUp d he' hs => exact absurd hs h₃
  | robbed hu hq hby hw =>
    obtain ⟨r'', hr'', hid, -⟩ := hc.waiting _ t (Books.mem_of_waiting? hw)
    cases hr.symm.trans hr''
    exact absurd (hd.eq hq hr hid.symm) hu
  | fill => exact ⟨by simp, h₂, h₃, h₄, h₅⟩

/-- A slot keeps the frame that was put into it. -/
theorem Change.filled_of {a : Arrival} (h : r.Change isOpen b e t r') (hc : b.Coherent)
    (hr : b.requests[t]? = some r) (ha : r.slot = .filled a) : r'.slot = .filled a := by
  cases h with
  | keep => exact ha
  | move he hm => rw [hm.slot_eq]; exact ha
  | register => exact ha
  | withdraw he hs hr' => subst hr'; split <;> simpa
  | giveUp d he hs hw hr' => subst hr'; split <;> simpa
  | robbed => simpa
  | fill he hh =>
    obtain ⟨⟨q, hq, -, hv, -⟩, -⟩ := hc.claimed _ t hh
    cases hr.symm.trans hq
    rw [hv] at ha
    cases ha

/-- A step that does not queue the frame leaves it as it was. -/
theorem Change.sent_eq (h : r.Change isOpen b e t r') (he : e ≠ .request t .queue) :
    r'.sent = r.sent := by
  cases h with
  | move he' hm => cases hm <;> first | rfl | exact absurd he' he
  | withdraw he' hs hr' => subst hr'; split <;> simp
  | giveUp d he' hs hw hr' => subst hr'; split <;> simp
  | _ => simp

end Request

/-! ## The requests that are wanted -/

namespace Books

variable {isOpen : Bool} {b b' : Books} {e : ConnectionEvent} {t u : Ticket} {r r' q : Request}
  {m : Message} {wanted : Message → Prop} {sent : List Message}

theorem Step.hand_of_ne {x : Arrival × Option Ticket} (hs : b.Step isOpen e b')
    (hh : b.hand = some x) (he : e ≠ .reader .dispatch) : b'.hand = some x := by
  cases hs with
  | aside | send | move | register => exact hh
  | withdraw => rwa [hand_withdraw]
  | giveUp => rwa [hand_giveUp]
  | arrive hn => rw [hn] at hh; cases hh
  | _ => exact absurd rfl he

/-- Frames come in one by one. -/
theorem Step.arrivals_cases (hs : b.Step isOpen e b') :
    b'.arrivals = b.arrivals ∨
      ∃ m, e = .reader (.arrive m) ∧ b.hand = none ∧ b' = b.arrive m := by
  cases hs with
  | withdraw => exact Or.inl (arrivals_withdraw ..)
  | giveUp => exact Or.inl (arrivals_giveUp ..)
  | arrive hn => exact Or.inr ⟨_, rfl, hn, rfl⟩
  | _ => exact Or.inl rfl

/-- The messages of the requests stay as they are. -/
theorem Step.messages_isPrefix (hs : b.Step isOpen e b') :
    b.requests.map (·.message) <+: b'.requests.map (·.message) := by
  refine List.prefix_iff_getElem?.2 fun t ht => ?_
  rw [List.length_map] at ht
  obtain ⟨r', hr', hch⟩ := hs.change (List.getElem?_eq_getElem ht)
  rw [List.getElem?_map, hr', Option.map_some, hch.message_eq, List.getElem_map]

/-- Only `send` makes a request. -/
theorem Step.messages_eq (hs : b.Step isOpen e b') (he : ∀ m, e ≠ .send m) :
    b'.requests.map (·.message) = b.requests.map (·.message) := by
  refine (List.IsPrefix.eq_of_length_le hs.messages_isPrefix ?_).symm
  rw [List.length_map, List.length_map]
  refine Nat.le_of_not_lt fun hlt => ?_
  rcases hs.origin (List.getElem?_eq_getElem hlt) with ⟨r, hr, -⟩ | ⟨-, m, stage, hsend, -⟩
  · exact absurd (List.getElem?_eq_some_iff.1 hr).1 (Nat.lt_irrefl _)
  · exact he m hsend

/-- Whether the requests that are wanted are on their course, and the frames that came in for them
are in their slots or about to be put there. -/
structure Tended (wanted : Message → Prop) (b : Books) : Prop where
  onCourse : ∀ (t : Ticket) r, b.requests[t]? = some r → wanted r.message → r.OnCourse
  received : ∀ (t : Ticket) r, b.requests[t]? = some r → wanted r.message → ∀ (n : Nat) m,
    b.arrivals[n]? = some m → m.id = r.message.id →
      r.slot = .filled ⟨n, m⟩ ∨ b.hand = some (⟨n, m⟩, some t)

/-- Whether a frame is the first that comes in for a wanted request, and the request was queued. -/
def Expects (wanted : Message → Prop) (b : Books) (m : Message) : Prop :=
  ∀ (t : Ticket) r, b.requests[t]? = some r → wanted r.message → m.id = r.message.id →
    r.sent = true ∧ ∀ m' ∈ b.arrivals, m'.id ≠ m.id

/-- The slot of a wanted request waits for the first frame that comes in for it. -/
theorem Tended.waiting_of_expects (h : b.Tended wanted) (hc : b.Coherent) (ht : b.Timely)
    (hacc : b.Accounted) (hh : b.hand = none) (hm : b.Expects wanted m)
    (hr : b.requests[t]? = some r) (hw : wanted r.message) (hid : m.id = r.message.id) :
    b.waiting? m.id = some t := by
  obtain ⟨hsent, hfirst⟩ := hm t r hr hw hid
  obtain ⟨h₁, h₂, h₃, h₄, h₅⟩ := h.onCourse t r hr hw
  have hv : r.slot = .vacant := by
    cases hs : r.slot with
    | vacant => rfl
    | abandoned => exact absurd hs h₁
    | filled a =>
      obtain ⟨hd, haid, -⟩ := hc.filled t r a hr hs
      have harr := hacc.arrived_of_places (places_pos_of_delivered hd)
      exact absurd (haid.symm.trans hid.symm) (hfirst _ (List.mem_of_getElem? harr))
  have hreg : r.isRegistered = true := by
    cases hs : r.stage with
    | entered =>
      have := (ht t r hr).unqueued (by simp [Request.isUnqueued, hs])
      rw [this] at hsent
      cases hsent
    | ended result =>
      cases result with
      | error e => exact absurd hs (h₅ e)
      | ok a => rw [hc.answered t r a hr hs] at hv; cases hv
    | _ => simp [Request.isRegistered, hs]
  rcases hc.vacant t r hr hreg hv with hp | ⟨a, ha⟩
  · rw [hid]
    exact waiting?_of_mem hc.keys hp
  · rw [hh] at ha
    cases ha

/-- The frame in the reader's hand for a wanted request is put into the request's slot. -/
theorem Tended.filled_of_dispatch (h : b.Tended wanted) (hc : b.Coherent)
    (hs : b.Step isOpen (.reader .dispatch) b') {a : Arrival} (hh : b.hand = some (a, some t))
    (hr : b.requests[t]? = some r) (hw : wanted r.message) (hr' : b'.requests[t]? = some r') :
    r'.slot = .filled a ∨ b'.hand = some (a, some t) := by
  cases hs with
  | aside => exact Or.inr hh
  | @deliver a' u q hh' hq ho =>
    cases hh.symm.trans hh'
    rw [getElem?_setRequest b t t _ r hr, if_pos rfl] at hr'
    cases hr'
    exact Or.inl rfl
  | @orphan a' u q hh' hq ho =>
    -- A request on its course ends with a frame in its slot.
    cases hh.symm.trans hh'
    cases hr.symm.trans hq
    obtain ⟨⟨q', hq', -, hv, -⟩, -⟩ := hc.claimed a t hh
    cases hr.symm.trans hq'
    have hfailed := (h.onCourse t r hr hw).failed
    cases hst : r.stage with
    | ended result =>
      cases result with
      | error e => exact absurd hst (hfailed e)
      | ok a' => rw [hc.answered t r a' hr hst] at hv; cases hv
    | _ => simp [Request.isOver, Request.result?, hst] at ho
  | stray hh' hq =>
    cases hh.symm.trans hh'
    rw [hr] at hq
    cases hq
  | late hh' => cases hh.symm.trans hh'
  | pass hh' => cases hh.symm.trans hh'

/-- What every step keeps in which no request is made and no wanted one runs out of time. -/
theorem Tended.step (h : b.Tended wanted) (hc : b.Coherent) (ht : b.Timely) (hacc : b.Accounted)
    (hd : b.Distinct) (hs : b.Step true e b') (hsend : ∀ m, e ≠ .send m)
    (htime : ∀ (t : Ticket) r, e = .request t .timeOut → b.requests[t]? = some r → ¬ wanted r.message)
    (harr : ∀ m, e = .reader (.arrive m) → b.Expects wanted m) : b'.Tended wanted := by
  have hold : ∀ (t : Ticket) r', b'.requests[t]? = some r' →
      ∃ r, b.requests[t]? = some r ∧ r.Change true b e t r' := by
    intro t r' hr'
    rcases hs.origin hr' with hr | ⟨-, m, -, he, -⟩
    · exact hr
    · exact absurd he (hsend m)
  refine ⟨fun t r' hr' hw => ?_, fun t r' hr' hw n m hm hid => ?_⟩
  · obtain ⟨r, hr, hch⟩ := hold t r' hr'
    rw [hch.message_eq] at hw
    exact (h.onCourse t r hr hw).change hc hd hr hch fun he => htime t r he hr hw
  · obtain ⟨r, hr, hch⟩ := hold t r' hr'
    rw [hch.message_eq] at hw hid
    have hkeep : b.arrivals[n]? = some m →
        r'.slot = .filled ⟨n, m⟩ ∨ b'.hand = some (⟨n, m⟩, some t) := by
      intro hm
      rcases h.received t r hr hw n m hm hid with ha | hh
      · exact Or.inl (hch.filled_of hc hr ha)
      · by_cases he : e = .reader .dispatch
        · subst he
          exact h.filled_of_dispatch hc hs hh hr hw hr'
        · exact Or.inr (hs.hand_of_ne hh he)
    rcases hs.arrivals_cases with harrivals | ⟨m₀, he, hh, rfl⟩
    · exact hkeep (harrivals ▸ hm)
    · rcases Nat.lt_trichotomy n b.arrivals.length with hn | hn | hn
      · refine hkeep ?_
        rwa [Books.arrive, List.getElem?_append_left hn] at hm
      · subst hn
        obtain rfl : m₀ = m := by
          rw [Books.arrive, List.getElem?_concat_length] at hm
          exact Option.some.inj hm
        have hwait := h.waiting_of_expects hc ht hacc hh (harr m₀ he) hr hw hid
        right
        rw [Books.arrive, hwait]
      · rw [Books.arrive, List.getElem?_eq_none (by
          simp only [List.length_append, List.length_singleton]; omega)] at hm
        cases hm

/-- What a new request keeps. -/
theorem Tended.send (h : b.Tended wanted) (hm : ∀ m' ∈ b.arrivals, m'.id ≠ m.id) :
    ({ b with requests := b.requests ++ [{ message := m, stage := .entered }] } : Books).Tended
      wanted := by
  have hold : ∀ {t : Ticket} {r : Request},
      (b.requests ++ [({ message := m, stage := .entered } : Request)])[t]? = some r →
      b.requests[t]? = some r ∨ r = { message := m, stage := .entered } := by
    intro t r hr
    rcases Nat.lt_or_ge t b.requests.length with ht | ht
    · rw [List.getElem?_append_left ht] at hr
      exact Or.inl hr
    · rw [List.getElem?_append_right ht] at hr
      exact Or.inr (List.mem_singleton.1 (List.mem_of_getElem? hr))
  refine ⟨fun t r hr hw => ?_, fun t r hr hw n m' hn hid => ?_⟩
  · rcases hold hr with hr | rfl
    · exact h.onCourse t r hr hw
    · constructor <;> simp
  · rcases hold hr with hr | rfl
    · exact h.received t r hr hw n m' hn hid
    · exact absurd hid (hm m' (List.mem_of_getElem? hn))

/-! ## The messages that were queued -/

/-- Whether the queued messages are those of the requests that say so, each of them once. -/
structure Posted (b : Books) (sent : List Message) : Prop where
  origin : ∀ m ∈ sent, ∃ (t : Ticket) (r : Request), b.requests[t]? = some r ∧ r.message = m ∧
    r.sent = true
  covered : ∀ (t : Ticket) r, b.requests[t]? = some r → r.sent = true → r.message ∈ sent
  distinct : (sent.map (·.id)).Nodup

theorem Posted.step (h : b.Posted sent) (hs : b.Step isOpen e b')
    (he : ∀ t, e ≠ .request t .queue) : b'.Posted sent where
  origin m hm := by
    obtain ⟨t, r, hr, hmessage, hsent⟩ := h.origin m hm
    obtain ⟨r', hr', hch⟩ := hs.change hr
    exact ⟨t, r', hr', hch.message_eq.trans hmessage, (hch.sent_eq (he t)).trans hsent⟩
  covered t r' hr' hsent := by
    rcases hs.origin hr' with ⟨r, hr, hch⟩ | ⟨-, m, stage, -, -, rfl⟩
    · rw [hch.message_eq]
      exact h.covered t r hr ((hch.sent_eq (he t)).symm.trans hsent)
    · cases hsent
  distinct := h.distinct

theorem Posted.queue (h : b.Posted sent) (hd : b.Distinct) (hr : b.requests[t]? = some r)
    (hsent : r.sent = false) :
    (b.setRequest t { r with stage := .waiting, sent := true }).Posted (sent ++ [r.message]) where
  origin m hm := by
    rcases List.mem_append.1 hm with hm | hm
    · obtain ⟨u, q, hq, hmessage, hqsent⟩ := h.origin m hm
      refine ⟨u, _, b.getElem?_setRequest t u _ q hq, ?_⟩
      split
      · next htu =>
        subst htu
        cases hr.symm.trans hq
        exact ⟨hmessage, rfl⟩
      · exact ⟨hmessage, hqsent⟩
    · refine ⟨t, _, b.getElem?_setRequest t t _ r hr, ?_⟩
      rw [if_pos rfl]
      exact ⟨(List.mem_singleton.1 hm).symm, rfl⟩
  covered u q' hq' hqsent := by
    obtain ⟨rfl, rfl⟩ | ⟨-, hq⟩ := setRequest_cases hr hq'
    · exact List.mem_append_right _ (List.mem_singleton_self _)
    · exact List.mem_append_left _ (h.covered u q' hq hqsent)
  distinct := by
    rw [List.map_append, List.map_singleton]
    refine List.Nodup.append h.distinct (List.nodup_singleton _) ?_
    rw [List.disjoint_singleton]
    intro hid
    obtain ⟨m, hm, hid⟩ := List.mem_map.1 hid
    obtain ⟨u, q, hq, rfl, hqsent⟩ := h.origin m hm
    obtain rfl := hd.eq hq hr hid
    cases hr.symm.trans hq
    rw [hsent] at hqsent
    cases hqsent

end Books

/-! ## A connection that asks -/

/-- A step of a connection that makes requests, and that nobody closes. -/
def ConnectionEvent.isCalm : ConnectionEvent → Bool
  | send _ | request .. => true
  | writer e => e.isCalm
  | reader .dispatch | reader (.arrive _) => true
  | _ => false

/-- How many steps the caller has to take at most. -/
def Request.ahead (r : Request) : Nat :=
  match r.stage with
  | .entered => 6
  | .registered => 5
  | .holding => 4
  | .waiting => 3
  | .overdue => 2
  | .refused | .missed => 1
  | .ended _ => 0

namespace Connection

variable {c d : Connection} {t : Ticket} {r r' : Request} {wanted : Message → Prop}
  {sent : List Message}

/-- How many steps the callers have to take at most. -/
def ahead (c : Connection) : Nat := (c.requests.map Request.ahead).sum

theorem sum_ahead_set {requests : List Request} (hr : requests[t]? = some r) (r' : Request) :
    ((requests.set t r').map Request.ahead).sum + r.ahead =
      (requests.map Request.ahead).sum + r'.ahead := by
  induction requests generalizing t with
  | nil => cases hr
  | cons q later ih =>
    cases t with
    | zero =>
      cases hr
      simp only [List.set_cons_zero, List.map_cons, List.sum_cons]
      omega
    | succ t =>
      have := ih hr
      simp only [List.set_cons_succ, List.map_cons, List.sum_cons]
      omega

theorem ahead_setRequest_lt (hr : c.requests[t]? = some r) (hlt : r'.ahead < r.ahead) :
    (c.setRequest t r').ahead < c.ahead := by
  have hsum := sum_ahead_set hr r'
  change ((c.requests.set t r').map Request.ahead).sum < (c.requests.map Request.ahead).sum
  omega

theorem ahead_withdraw (c : Connection) (id : MessageId) : (c.withdraw id).ahead = c.ahead := by
  unfold withdraw
  split
  · unfold ahead
    congr 1
    refine List.ext_getElem? fun u => ?_
    simp only [abandon, unregister, List.getElem?_map, List.getElem?_modify]
    cases c.requests[u]? with
    | none => rfl
    | some q =>
      simp only [Option.map_eq_map, Option.map_some, Option.some.injEq]
      split
      · split <;> rfl
      · rfl
  · rfl

/-- Every step of a caller brings its request closer to its end. -/
theorem ahead_stepRequest {e : RequestEvent} (hr : c.requests[t]? = some r)
    (h : c.stepRequest t r e = some d) : d.ahead < c.ahead := by
  have hset : ∀ r' : Request, r'.ahead < r.ahead → (c.setRequest t r').ahead < c.ahead :=
    fun r' => ahead_setRequest_lt hr
  unfold stepRequest at h
  split at h
  · next hs =>
    split at h <;> cases h <;> exact hset _ (by simp [Request.ahead, hs])
  · next hs =>
    cases h
    refine hset _ ?_
    split <;> simp [Request.ahead, hs]
  · next hs =>
    split at h
    · cases h; exact hset _ (by simp [Request.ahead, hs])
    · split at h <;> cases h; exact hset _ (by simp [Request.ahead, hs])
  · next hs =>
    cases h
    rw [ahead_withdraw]
    exact hset _ (by simp [Request.ahead, hs])
  · next hs =>
    split at h <;> cases h <;> exact hset _ (by simp [Request.ahead, hs])
  · next hs =>
    split at h <;> cases h; exact hset _ (by simp [Request.ahead, hs])
  · next hs =>
    split at h
    · cases h
      refine Nat.lt_of_le_of_lt (Nat.le_of_eq (ahead_withdraw _ _)) ?_
      exact hset _ (by simp [Request.ahead, hs])
    · cases h; exact hset _ (by simp [Request.ahead, hs])
  · next hs =>
    split at h <;> cases h <;> exact hset _ (by simp [Request.ahead, hs])
  · cases h

theorem ahead_fill (c : Connection) (t : Ticket) (a : Arrival) : (c.fill t a).ahead = c.ahead := by
  unfold fill
  split
  · rfl
  · next r hr =>
    split
    · rfl
    · have := sum_ahead_set hr { r with slot := .filled a }
      exact Nat.add_right_cancel this

/-- Putting a frame where it belongs brings no request further. -/
theorem ahead_dispatch (h : c.stepReader .dispatch = some d) : d.ahead = c.ahead := by
  cases hr : c.reader with
  | claimed a slot =>
    cases slot with
    | some t =>
      simp only [stepReader, hr, Option.some.injEq] at h
      subst h
      exact ahead_fill ..
    | none =>
      simp only [stepReader, hr, Option.some.injEq, dispatchUnclaimed] at h
      subst h
      split <;> rfl
  | _ => simp only [stepReader, hr] at h; cases h

/-- A caller whose request is on its course can go on until it waits for its response. -/
theorem exists_request_step (hw : c.writer.isServing = true)
    (hroom : c.queue.length < c.capacity) (hr : c.requests[t]? = some r) (h : r.OnCourse)
    (hover : r.isOver = false) (hv : r.stage = .waiting → r.slot ≠ .vacant) :
    ∃ e d, e ≠ .timeOut ∧ c.step (.request t e) = some d := by
  have hgo : ∀ e, e ≠ .timeOut → (∃ d, c.stepRequest t r e = some d) →
      ∃ e d, e ≠ .timeOut ∧ c.step (.request t e) = some d := by
    rintro e he ⟨d, hd⟩
    exact ⟨e, d, he, by rw [step, hr, Option.bind_some, hd]⟩
  cases hs : r.stage with
  | entered =>
    refine hgo .register (by decide) ?_
    simp only [stepRequest, hs]
    split <;> exact ⟨_, rfl⟩
  | registered =>
    refine hgo .reach (by decide) ?_
    simp only [stepRequest, hs]
    exact ⟨_, rfl⟩
  | holding =>
    refine hgo .queue (by decide) ?_
    simp only [stepRequest, hs, hw, Bool.not_true, Bool.false_eq_true, if_false, if_pos hroom]
    exact ⟨_, rfl⟩
  | waiting =>
    refine hgo .take (by decide) ?_
    simp only [stepRequest, hs]
    split
    · next ha => exact absurd ha (hv hs)
    · exact ⟨_, rfl⟩
    · exact ⟨_, rfl⟩
  | refused => exact absurd hs h.refused
  | overdue => exact absurd hs h.overdue
  | missed => exact absurd hs h.missed
  | ended => simp [Request.isOver, Request.result?, hs] at hover

/-! ## What is kept -/

theorem outgoing_withdraw (c : Connection) (id : MessageId) :
    (c.withdraw id).outgoing = c.outgoing := by
  unfold withdraw
  split <;> rfl

/-- A caller that does not queue its frame leaves alone what is sent. -/
theorem outgoing_stepRequest {e : RequestEvent} (h : c.stepRequest t r e = some d)
    (he : e ≠ .queue) : d.outgoing = c.outgoing := by
  unfold stepRequest at h
  split at h
  · split at h <;> cases h <;> rfl
  · cases h; rfl
  · exact absurd rfl he
  · cases h; exact outgoing_withdraw ..
  · split at h <;> cases h <;> rfl
  · split at h <;> cases h; rfl
  · split at h
    · cases h; exact outgoing_withdraw ..
    · cases h; rfl
  · split at h <;> cases h <;> rfl
  · cases h

/-- What queueing a frame on an open connection comes to. -/
theorem eq_of_queue (hw : c.writer.isServing = true) (h : c.stepRequest t r .queue = some d) :
    r.stage = .holding ∧
      d = (c.setRequest t { r with stage := .waiting, sent := true }).enqueue r.message.encode := by
  cases hs : r.stage with
  | holding =>
    simp only [stepRequest, hs, hw, Bool.not_true, Bool.false_eq_true, if_false] at h
    split at h
    · cases h; exact ⟨rfl, rfl⟩
    · cases h
  | _ => simp only [stepRequest, hs] at h; cases h

theorem eq_of_arrive {m : Message} (h : c.stepReader (.arrive m) = some d) :
    c.reader = .reading ∧ d = c.arrive m := by
  cases hr : c.reader with
  | reading =>
    simp only [stepReader, hr, Option.some.injEq] at h
    exact ⟨rfl, h.symm⟩
  | _ => simp only [stepReader, hr] at h; cases h

/-- Putting a frame into a slot does nothing else. -/
theorem closing_fill (c : Connection) (t : Ticket) (a : Arrival) :
    (c.fill t a).closing = c.closing ∧ (c.fill t a).hasCallback = c.hasCallback ∧
      (c.fill t a).outgoing = c.outgoing := by
  unfold fill
  split
  · exact ⟨rfl, rfl, rfl⟩
  · split <;> exact ⟨rfl, rfl, rfl⟩

/-- The reader leaves alone what is sent. -/
theorem outgoing_stepReader {e : ReaderEvent} (h : c.stepReader e = some d) :
    d.outgoing = c.outgoing := by
  unfold stepReader at h
  split at h
  · cases h; rfl
  · cases h; rfl
  · cases h; exact (closing_fill ..).2.2
  · cases h
    unfold dispatchUnclaimed
    split <;> rfl
  · cases h; rfl
  · cases h; rfl
  · cases h; rfl
  · cases h
    unfold beginClose
    split <;> rfl
  · split at h <;> cases h; rfl
  · cases h

/-- Whether an open connection asks: it takes frames but hands none of them to a callback, what was
queued are the messages of its requests, and those of them that are wanted are tended. -/
structure Asking (wanted : Message → Prop) (sent : List Message) (c : Connection) : Prop where
  coherent : c.books.Coherent
  timely : c.books.Timely
  accounted : c.books.Accounted
  opened : c.closing = .notYet
  callback : c.hasCallback = false
  reader : c.reader = .reading ∨ ∃ a slot, c.reader = .claimed a slot
  tended : c.books.Tended wanted
  posted : c.books.Posted sent

namespace Asking

/-- What a calm step does to those parts of a connection that its books do not show. -/
structure Calm (c d : Connection) (e : ConnectionEvent) : Prop where
  opened : d.closing = .notYet
  callback : d.hasCallback = false
  reader : (e ≠ .reader .dispatch ∧ d.reader = c.reader) ∨
    (∃ a slot, c.reader = .claimed a slot ∧ d.reader = .reading) ∨
    ∃ m a slot, e = .reader (.arrive m) ∧ d.reader = .claimed a slot

theorem calm {e : ConnectionEvent} (hopened : c.closing = .notYet) (hcallback : c.hasCallback = false)
    (hs : c.step e = some d) (he : e.isCalm = true) : Calm c d e := by
  have hopen : c.isClosed = false := by rw [isClosed, hopened]; rfl
  cases e with
  | send m => cases hs; exact ⟨hopened, hcallback, Or.inl ⟨fun h => (by cases h), rfl⟩⟩
  | request t e =>
    obtain ⟨r, -, hs⟩ := Option.bind_eq_some_iff.1 hs
    have hu := stepRequest_untouched hs
    exact ⟨hu.closing.trans hopened, hu.hasCallback.trans hcallback,
      Or.inl ⟨fun h => (by cases h), hu.reader⟩⟩
  | writer e =>
    obtain ⟨-, heq⟩ := stepWriter_outgoing hopen hs he
    refine ⟨?_, ?_, Or.inl ⟨fun h => (by cases h), ?_⟩⟩
    · rw [heq]; exact hopened
    · rw [heq]; exact hcallback
    · rw [heq]
  | reader e =>
    cases e with
    | dispatch =>
      cases hr : c.reader with
      | claimed a slot =>
        cases slot with
        | some t =>
          simp only [step, stepReader, hr, Option.some.injEq] at hs
          subst hs
          obtain ⟨h₁, h₂, -⟩ := closing_fill c t a
          exact ⟨h₁.trans hopened, h₂.trans hcallback, Or.inr (Or.inl ⟨a, _, hr, rfl⟩)⟩
        | none =>
          simp only [step, stepReader, hr, Option.some.injEq, dispatchUnclaimed, hcallback,
            Bool.false_eq_true, if_false] at hs
          subst hs
          split
          · exact ⟨hopened, rfl, Or.inr (Or.inl ⟨a, _, hr, rfl⟩)⟩
          · exact ⟨hopened, rfl, Or.inr (Or.inl ⟨a, _, hr, rfl⟩)⟩
      | _ => simp only [step, stepReader, hr] at hs; cases hs
    | arrive m =>
      cases hr : c.reader with
      | reading =>
        simp only [step, stepReader, hr, Option.some.injEq] at hs
        subst hs
        exact ⟨hopened, hcallback, Or.inr (Or.inr ⟨m, _, _, rfl, rfl⟩)⟩
      | _ => simp only [step, stepReader, hr] at hs; cases hs
    | _ => cases he
  | _ => cases he

/-- What a calm step sends: a step of the writer, or the message of a request that is queued. -/
theorem advances {e : ConnectionEvent} (hopened : c.closing = .notYet)
    (hw : c.writer.isServing = true) (hs : c.step e = some d) (he : e.isCalm = true) :
    ((∀ t, e ≠ .request t .queue) ∧ c.outgoing.Advances [] d.outgoing) ∨
      ∃ (t : Ticket) (r : Request), e = .request t .queue ∧ c.requests[t]? = some r ∧
        r.stage = .holding ∧ c.outgoing.Advances [r.message] d.outgoing ∧
        d.books = c.books.setRequest t { r with stage := .waiting, sent := true } := by
  have hopen : c.isClosed = false := by rw [isClosed, hopened]; rfl
  cases e with
  | send m => cases hs; exact Or.inl ⟨fun _ h => (by cases h), .rest⟩
  | request t e =>
    obtain ⟨r, hr, hs⟩ := Option.bind_eq_some_iff.1 hs
    by_cases he : e = .queue
    · subst he
      obtain ⟨hstage, rfl⟩ := eq_of_queue hw hs
      exact Or.inr ⟨t, r, rfl, hr, hstage, .enqueue r.message, rfl⟩
    · refine Or.inl ⟨fun u h => he ?_, outgoing_stepRequest hs he ▸ .rest⟩
      cases h
      rfl
  | writer e => exact Or.inl ⟨fun _ h => (by cases h), .write (stepWriter_outgoing hopen hs he).1⟩
  | reader e =>
    exact Or.inl ⟨fun _ h => (by cases h), outgoing_stepReader hs ▸ .rest⟩
  | _ => cases he

/-- Every calm step of a connection that asks keeps it so, if no wanted request runs out of time and
a frame that comes in for a wanted request is the first one. -/
theorem step {e : ConnectionEvent} (h : c.Asking wanted sent) (hd : c.books.Distinct)
    (hw : c.writer.isServing = true) (hs : c.step e = some d) (he : e.isCalm = true)
    (hsend : ∀ m, e = .send m → ∀ m' ∈ c.history.arrivals, m'.id ≠ m.id)
    (htime : ∀ (t : Ticket) r, e = .request t .timeOut → c.requests[t]? = some r →
      ¬ wanted r.message)
    (harr : ∀ m, e = .reader (.arrive m) → c.books.Expects wanted m) :
    ∃ more, d.Asking wanted (sent ++ more) ∧ c.outgoing.Advances more d.outgoing := by
  have hopen : c.isOpen = true := by rw [isOpen, isClosed, h.opened, hw]; rfl
  have hb := step_books hs
  rw [hopen] at hb
  have hcalm := calm h.opened h.callback hs he
  have htended : d.books.Tended wanted := by
    cases e with
    | send m =>
      cases hs
      have hclosed : c.isClosed = false := by rw [isClosed, h.opened]; rfl
      have hsent := h.tended.send (hsend m rfl)
      rw [show (c.send m).books = { c.books with
        requests := c.requests ++ [{ message := m, stage := .entered }] } by
          simp only [send, hclosed, Bool.false_eq_true, if_false]; rfl]
      exact hsent
    | _ =>
      exact h.tended.step h.coherent h.timely h.accounted hd hb (fun _ h => (by cases h)) htime harr
  have hreader : d.reader = .reading ∨ ∃ a slot, d.reader = .claimed a slot := by
    rcases hcalm.reader with ⟨-, hr⟩ | ⟨a, slot, -, hr⟩ | ⟨m, a, slot, -, hr⟩
    · rw [hr]; exact h.reader
    · exact Or.inl hr
    · exact Or.inr ⟨a, slot, hr⟩
  rcases advances h.opened hw hs he with ⟨hq, hadv⟩ | ⟨t, r, rfl, hr, hstage, hadv, hbooks⟩
  · refine ⟨[], ?_, hadv⟩
    rw [List.append_nil]
    exact ⟨h.coherent.step hb, h.timely.step hb, h.accounted.step h.coherent hb, hcalm.opened,
      hcalm.callback, hreader, htended, h.posted.step hb hq⟩
  · have hsent := (h.timely t r hr).unqueued (by simp [Request.isUnqueued, hstage])
    refine ⟨[r.message], ?_, hadv⟩
    exact ⟨h.coherent.step hb, h.timely.step hb, h.accounted.step h.coherent hb, hcalm.opened,
      hcalm.callback, hreader, htended, hbooks ▸ h.posted.queue hd hr hsent⟩

end Asking

/-- A connection asks as soon as it is read. -/
theorem asking_new (options : ConnectionOptions) (wanted : Message → Prop) :
    Asking wanted [] { new options with reader := .reading } where
  coherent := coherent_new options
  timely t r hr := by cases hr
  accounted := accounted (c := new options) .start
  opened := rfl
  callback := rfl
  reader := Or.inl rfl
  tended := ⟨fun t r hr => (by cases hr), fun t r hr => (by cases hr)⟩
  posted := ⟨fun m hm => (by cases hm), fun t r hr => (by cases hr), List.nodup_nil⟩

end Connection

end ClusterLink
