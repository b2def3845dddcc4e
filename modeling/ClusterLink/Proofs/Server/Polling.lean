import Mathlib.Algebra.Order.BigOperators.Group.List
import Mathlib.Algebra.Order.Group.Nat
import ClusterLink.Proofs.Connection.Sending
import ClusterLink.Proofs.Registry.Indexes
import ClusterLink.Server.Broadcast
/-!
# What the requests to all slaves come to

All slaves are asked at once and under one id, and what happens on their connections mixes in any
way. Every connection keeps its own slots, so a request has to do with nothing but its connection:
what it comes to is what it would come to there if no other slave existed, and none of them can keep
another from whatever it does.

Results:
* `SlaveRequests.run_seen`: what happens on all connections together happens on each alone.
* `SlaveRequests.exists_run_iff`: and whatever can happen on each alone can happen on all together.
* `SlaveRequests.asked_of_run`, `SlaveRequests.sendResult?_of_run`: a request is made once, on its own
  connection, and comes to what it would come to there alone.
* `SlaveRequests.Going.inevitable_outcomes`: all requests come back.
* `SlaveRequests.slaves_are_asked_independently`: all of it, in whatever order things happen.
-/
namespace ClusterLink.SlaveRequests

variable {r : Registry} {table : Connections} {m : Message} {s t u : SlaveRequests} {e : Event}
  {events : List Event} {ds : List Delivery} {d : Delivery} {id : ConnectionId} {i : Nat}
  {ticket : Ticket}

/-! ## What a step does -/

/-- The connections that the requests go to. -/
def deliveries (s : SlaveRequests) : List Delivery := s.targets.map (·.1)

/-- All that a step can do. -/
inductive Step (m : Message) (s : SlaveRequests) : Event → SlaveRequests → Prop
  | ask {i : Nat} {d : Delivery} (hd : s.targets[i]? = some (d, none)) :
    Step m s (.ask i) {
      connections := s.connections.set d.connection ((s.connections d.connection).send m)
      targets := s.targets.set i (d, some (s.connections d.connection).requests.length) }
  | on {id : ConnectionId} {x : ConnectionEvent} {c : Connection}
      (hc : (s.connections id).step x = some c) :
    Step m s (.on id x) { s with connections := s.connections.set id c }

theorem step_iff : step m s e = some t ↔ Step m s e t := by
  constructor
  · intro h
    cases e with
    | ask i =>
      simp only [step] at h
      split at h
      · next hd => cases h; exact .ask hd
      · cases h
    | on id x =>
      obtain ⟨c, hc, rfl⟩ := Option.map_eq_some_iff.1 h
      exact .on hc
  · intro h
    cases h with
    | ask hd => simp only [step, hd]
    | on hc => rw [step, hc, Option.map_some]

theorem getElem?_deliveries {state : Option Ticket} (hd : s.targets[i]? = some (d, state)) :
    s.deliveries[i]? = some d := by
  rw [deliveries, List.getElem?_map, hd, Option.map_some]

theorem Step.deliveries_eq (h : Step m s e t) : t.deliveries = s.deliveries := by
  cases h with
  | on => rfl
  | @ask i d hd =>
    obtain ⟨hlt, hget⟩ := List.getElem?_eq_some_iff.1 (getElem?_deliveries hd)
    calc (s.targets.set i (d, _)).map (·.1) = s.deliveries.set i d := List.map_set ..
      _ = s.deliveries.set i s.deliveries[i] := by rw [hget]
      _ = s.deliveries := List.set_getElem_self hlt

/-! ## One connection among all -/

/-- What an event is to one connection: the making of a request on it, or a step of its own. -/
def Event.on? (ds : List Delivery) (m : Message) (id : ConnectionId) : Event → Option ConnectionEvent
  | .ask i => if (ds[i]?).map (·.connection) = some id then some (.send m) else none
  | .on other x => if other = id then some x else none

/-- What one connection sees of some events. -/
def seen (ds : List Delivery) (m : Message) (id : ConnectionId) (events : List Event) :
    List ConnectionEvent :=
  events.filterMap (Event.on? ds m id)

theorem seen_cons (ds : List Delivery) (m : Message) (id : ConnectionId) (e : Event)
    (later : List Event) :
    seen ds m id (e :: later) = (e.on? ds m id).toList ++ seen ds m id later := by
  unfold seen
  cases h : e.on? ds m id <;> simp [h]

/-- A step of the whole is a step of the connection that sees it. -/
theorem Step.run_on? (h : Step m s e t) (id : ConnectionId) :
    (s.connections id).run (e.on? s.deliveries m id).toList = some (t.connections id) := by
  cases h with
  | @ask i d hd =>
    rw [Event.on?, getElem?_deliveries hd, Option.map_some]
    dsimp only
    by_cases hid : id = d.connection
    · subst hid
      rw [if_pos rfl, Connections.set_self]
      rfl
    · rw [if_neg fun heq => hid (Option.some.inj heq).symm, Connections.set_of_ne _ hid]
      rfl
  | @on other x c hc =>
    dsimp only [Event.on?]
    by_cases hid : id = other
    · subst hid
      rw [if_pos rfl, Connections.set_self, Option.toList_some, Connection.run_cons, hc]
      rfl
    · rw [if_neg (Ne.symm hid), Connections.set_of_ne _ hid]
      rfl

/-- **What happens on all connections together happens on each alone.** -/
theorem run_seen (h : (machine r table m).run s events = some t) : t.deliveries = s.deliveries ∧
    ∀ id, (s.connections id).run (seen s.deliveries m id events) = some (t.connections id) := by
  induction events generalizing s with
  | nil =>
    cases h
    exact ⟨rfl, fun _ => rfl⟩
  | cons e later ih =>
    obtain ⟨u, hs, hlater⟩ := Option.bind_eq_some_iff.1 h
    have hstep := step_iff.1 hs
    obtain ⟨hsame, hrun⟩ := ih hlater
    rw [hstep.deliveries_eq] at hsame hrun
    refine ⟨hsame, fun id => ?_⟩
    rw [seen_cons]
    exact Connection.run_append (hstep.run_on? id) (hrun id)

/-- The targets that are asked in the course of some events. -/
def asked (events : List Event) : List Nat :=
  events.filterMap fun
    | .ask i => some i
    | .on .. => none

@[simp] theorem asked_ask (i : Nat) (later : List Event) :
    asked (.ask i :: later) = i :: asked later := rfl

@[simp] theorem asked_on (id : ConnectionId) (x : ConnectionEvent) (later : List Event) :
    asked (.on id x :: later) = asked later := rfl

theorem mem_asked : i ∈ asked events ↔ .ask i ∈ events := by
  induction events with
  | nil => simp [asked]
  | cons e later ih => cases e <;> simp [ih]

/-- Whether some events ask targets that have not been asked, and none of them twice. -/
structure AsksOnce (s : SlaveRequests) (events : List Event) : Prop where
  nodup : (asked events).Nodup
  unasked : ∀ i ∈ asked events, ∃ d, s.targets[i]? = some (d, none)

theorem Step.asksOnce_iff (h : Step m s e t) {later : List Event} :
    AsksOnce s (e :: later) ↔ AsksOnce t later := by
  cases h with
  | on => exact ⟨fun h => ⟨h.nodup, h.unasked⟩, fun h => ⟨h.nodup, h.unasked⟩⟩
  | @ask i d hd =>
    have hlt := (List.getElem?_eq_some_iff.1 hd).1
    constructor
    · rintro ⟨hnodup, hunasked⟩
      obtain ⟨hnot, hnodup⟩ := List.nodup_cons.1 hnodup
      refine ⟨hnodup, fun j hj => ?_⟩
      have hne : i ≠ j := fun heq => hnot (heq ▸ hj)
      rw [List.getElem?_set_ne hne]
      exact hunasked j (List.mem_cons_of_mem i hj)
    · rintro ⟨hnodup, hunasked⟩
      have hold : ∀ j ∈ asked later, i ≠ j ∧ ∃ d, s.targets[j]? = some (d, none) := by
        intro j hj
        obtain ⟨d', hd'⟩ := hunasked j hj
        have hne : i ≠ j := by
          rintro rfl
          rw [List.getElem?_set_self hlt] at hd'
          cases hd'
        rw [List.getElem?_set_ne hne] at hd'
        exact ⟨hne, d', hd'⟩
      refine ⟨List.nodup_cons.2 ⟨fun hi => (hold i hi).1 rfl, hnodup⟩, fun j hj => ?_⟩
      rcases List.mem_cons.1 hj with rfl | hj
      · exact ⟨d, hd⟩
      · exact (hold j hj).2

/-- **Whatever can happen on each connection alone can happen on all together**, as long as no target
is asked twice. No slave keeps another from anything. -/
theorem exists_run_iff : (∃ t, (machine r table m).run s events = some t) ↔
    AsksOnce s events ∧
      ∀ id, ∃ c, (s.connections id).run (seen s.deliveries m id events) = some c := by
  constructor
  · rintro ⟨t, h⟩
    refine ⟨?_, fun id => ⟨_, (run_seen h).2 id⟩⟩
    induction events generalizing s with
    | nil => exact ⟨List.nodup_nil, fun i hi => by cases hi⟩
    | cons e later ih =>
      obtain ⟨u, hs, hlater⟩ := Option.bind_eq_some_iff.1 h
      exact (step_iff.1 hs).asksOnce_iff.2 (ih hlater)
  · rintro ⟨hasks, hall⟩
    induction events generalizing s with
    | nil => exact ⟨s, rfl⟩
    | cons e later ih =>
      have hstep : ∃ u, Step m s e u := by
        cases e with
        | ask i =>
          obtain ⟨d, hd⟩ := hasks.unasked i List.mem_cons_self
          exact ⟨_, .ask hd⟩
        | on id x =>
          obtain ⟨c, hc⟩ := hall id
          rw [seen_cons, Event.on?, if_pos rfl, Option.toList_some, List.singleton_append,
            Connection.run_cons] at hc
          obtain ⟨u, hu, -⟩ := Option.bind_eq_some_iff.1 hc
          exact ⟨_, .on hu⟩
      obtain ⟨u, hu⟩ := hstep
      obtain ⟨t, ht⟩ := ih (hu.asksOnce_iff.1 hasks) fun id => by
        obtain ⟨c, hc⟩ := hall id
        rw [seen_cons, Connection.run_append_eq (hu.run_on? id)] at hc
        rw [hu.deliveries_eq]
        exact ⟨c, hc⟩
      exact ⟨t, by rw [Machine.run_cons, show (machine r table m).step s e = some u from
        step_iff.2 hu, Option.bind_some, ht]⟩

/-! ## One request among all -/

theorem asked_append (first later : List Event) :
    asked (first ++ later) = asked first ++ asked later := List.filterMap_append

/-- What happens on one connection besides the requests to all slaves. -/
def own (id : ConnectionId) (events : List Event) : List ConnectionEvent :=
  events.filterMap fun
    | .ask _ => none
    | .on other x => if other = id then some x else none

/-- A connection that is not asked sees its own steps only. -/
theorem seen_eq_own (h : ∀ j ∈ asked events, (ds[j]?).map (·.connection) ≠ some id) :
    seen ds m id events = own id events := by
  refine List.filterMap_congr fun e he => ?_
  cases e with
  | ask j => exact if_neg (h j (mem_asked.2 he))
  | on => rfl

theorem deliveries_new (r : Registry) (table : Connections) :
    (new r table).deliveries = r.deliveries := by
  rw [deliveries, new, List.map_map]
  exact List.map_id _

/-- **A request is made once, on its own connection.** -/
theorem asked_of_run (hrun : (machine r table m).run (new r table) events = some s)
    (ht : s.targets[i]? = some (d, some ticket)) :
    ∃ before after u v, events = before ++ .ask i :: after ∧
      (machine r table m).run (new r table) before = some u ∧ u.targets[i]? = some (d, none) ∧
      ticket = (u.connections d.connection).requests.length ∧
      v.connections d.connection = (u.connections d.connection).send m ∧
      v.deliveries = u.deliveries ∧ (machine r table m).run v after = some s := by
  have hstart : (new r table).targets[i]? ≠ some (d, some ticket) := by
    simp [new]
  obtain ⟨before, e, after, u, v, rfl, hu, hnot, hs, hv, hall⟩ :=
    Machine.onset (P := fun s : SlaveRequests => s.targets[i]? = some (d, some ticket)) hstart hrun ht
  have hstep := step_iff.1 hs
  have hsame := hstep.deliveries_eq
  have hasked := hall.head
  cases hstep with
  | on => exact absurd hasked hnot
  | @ask j d' hd =>
    by_cases hj : j = i
    · subst hj
      have hlt := (List.getElem?_eq_some_iff.1 hd).1
      rw [List.getElem?_set_self hlt] at hasked
      cases hasked
      exact ⟨before, after, u, _, rfl, hu, hd, rfl, Connections.set_self .., hsame, hv⟩
    · rw [List.getElem?_set_ne hj] at hasked
      exact absurd hasked hnot

/-- **A request comes to what it would come to alone**, if no two slaves share a connection. -/
theorem sendResult?_of_run (hdistinct : (r.deliveries.map (·.connection)).Nodup)
    (hrun : (machine r table m).run (new r table) events = some s)
    (ht : s.targets[i]? = some (d, some ticket)) :
    ∃ before after, events = before ++ .ask i :: after ∧
      (table d.connection).sendResult? m (own d.connection before) (own d.connection after) =
        ((s.connections d.connection).result? ticket).map (·.map Arrival.message) := by
  have hnodup := (exists_run_iff.1 ⟨s, hrun⟩).1.nodup
  obtain ⟨before, after, u, v, rfl, hu, hd, rfl, hv, hsame, hlater⟩ := asked_of_run hrun ht
  refine ⟨before, after, rfl, ?_⟩
  rw [asked_append, asked_ask] at hnodup
  have hmiddle := List.nodup_middle.1 hnodup
  have hi : r.deliveries[i]? = some d := by
    rw [← deliveries_new r table, ← (run_seen hu).1]
    exact getElem?_deliveries hd
  -- Whoever else is asked is asked on another connection.
  have hother : ∀ j ∈ asked before ++ asked after,
      (r.deliveries[j]?).map (·.connection) ≠ some d.connection := by
    intro j hj heq
    have hlt : i < (r.deliveries.map (·.connection)).length := by
      rw [List.length_map]
      exact (List.getElem?_eq_some_iff.1 hi).1
    have hij : (r.deliveries.map (·.connection))[i]? = (r.deliveries.map (·.connection))[j]? := by
      rw [List.getElem?_map, List.getElem?_map, hi, heq]
      rfl
    rw [(List.getElem?_inj hlt hdistinct).1 hij] at hmiddle
    exact (List.nodup_cons.1 hmiddle).1 hj
  have hbefore : (table d.connection).run (own d.connection before) =
      some (u.connections d.connection) := by
    rw [← seen_eq_own fun j hj => hother j (List.mem_append_left _ hj), ← deliveries_new r table]
    exact (run_seen hu).2 d.connection
  have hafter : ((u.connections d.connection).send m).run (own d.connection after) =
      some (s.connections d.connection) := by
    rw [← seen_eq_own fun j hj => hother j (List.mem_append_right _ hj), ← hv,
      ← deliveries_new r table, ← (run_seen hu).1, ← hsame]
    exact (run_seen hlater).2 d.connection
  rw [Connection.sendResult?, hbefore]
  simp only [Option.bind_eq_bind, Option.bind_some, hafter]

/-! ## All outcomes -/

theorem mapM_eq_some_iff {α β : Type} {f : α → Option β} {xs : List α} {ys : List β} :
    xs.mapM f = some ys ↔ xs.map f = ys.map some := by
  induction xs generalizing ys with
  | nil => cases ys <;> simp
  | cons x xs ih =>
    cases ys with
    | nil => simp [List.mapM_cons, Option.bind_eq_some_iff]
    | cons y ys => simp [List.mapM_cons, Option.bind_eq_some_iff, ih]

theorem exists_mapM {α β : Type} {f : α → Option β} {xs : List α} (h : ∀ x ∈ xs, ∃ y, f x = some y) :
    ∃ ys, xs.mapM f = some ys := by
  refine ⟨xs.filterMap f, mapM_eq_some_iff.2 ?_⟩
  induction xs with
  | nil => rfl
  | cons x xs ih =>
    obtain ⟨y, hy⟩ := h x List.mem_cons_self
    rw [List.filterMap_cons_some hy, List.map_cons, List.map_cons, hy,
      ih fun z hz => h z (List.mem_cons_of_mem x hz)]

theorem outcome?_eq_some_iff {x : Delivery × Option Ticket} {result : Except ConnectionError Message} :
    s.outcome? x = some (d, result) ↔ ∃ ticket, x = (d, some ticket) ∧
      ((s.connections d.connection).result? ticket).map (·.map Arrival.message) = some result := by
  obtain ⟨d', state⟩ := x
  cases state with
  | none => simp [outcome?]
  | some ticket =>
    simp only [outcome?, Option.map_eq_some_iff, Prod.mk.injEq, Option.some.injEq]
    constructor
    · rintro ⟨a, ha, rfl, rfl⟩
      exact ⟨ticket, ⟨rfl, rfl⟩, a, ha, rfl⟩
    · rintro ⟨_, ⟨rfl, rfl⟩, a, ha, rfl⟩
      exact ⟨a, ha, rfl, rfl⟩

/-- The outcomes stand in the places of the targets. -/
theorem getElem?_outcomes {outs : List (Delivery × Except ConnectionError Message)}
    (h : s.outcomes? = some outs) (i : Nat) :
    (s.targets[i]?).map s.outcome? = (outs[i]?).map some := by
  rw [← List.getElem?_map, mapM_eq_some_iff.1 h, List.getElem?_map]

theorem map_fst_outcomes {outs : List (Delivery × Except ConnectionError Message)}
    (h : s.outcomes? = some outs) : outs.map (·.1) = s.deliveries := by
  refine List.ext_getElem? fun i => ?_
  have hi := getElem?_outcomes h i
  rw [deliveries, List.getElem?_map, List.getElem?_map]
  cases hx : s.targets[i]? with
  | none =>
    rw [hx] at hi
    rw [Option.map_eq_none_iff.1 hi.symm]
    rfl
  | some x =>
    rw [hx] at hi
    obtain ⟨⟨d, result⟩, hy, heq⟩ := Option.map_eq_some_iff.1 hi.symm
    obtain ⟨ticket, rfl, -⟩ := outcome?_eq_some_iff.1 heq.symm
    rw [hy]
    rfl

/-! ## Coming back -/

/-- Whether an event brings the requests on: a target is asked, or the caller of a request or the
writer goes on, on one of the connections. -/
def Event.goesOn (ds : List Delivery) : Event → Prop
  | .ask _ => True
  | .on id (.request ..) => ∃ d ∈ ds, d.connection = id
  | .on id (.writer x) => (∃ d ∈ ds, d.connection = id) ∧ x ≠ .interrupted
  | .on .. => False

/-- Whether the connections are in states that they can come to, and every request that was made is
found on its connection. -/
structure Going (ds : List Delivery) (s : SlaveRequests) : Prop where
  deliveries_eq : s.deliveries = ds
  reachable : ∀ id, ∃ options, (Connection.machine options).Reachable (s.connections id)
  made : ∀ (i : Nat) d ticket, s.targets[i]? = some (d, some ticket) →
    ticket < (s.connections d.connection).requests.length

theorem length_requests_le {c c' : Connection} {x : ConnectionEvent} (h : c.step x = some c') :
    c.requests.length ≤ c'.requests.length := by
  have hle := (Connection.step_books h).messages_isPrefix.length_le
  rwa [List.length_map, List.length_map] at hle

theorem Going.step (h : Going ds s) (hs : Step m s e t) : Going ds t := by
  refine ⟨hs.deliveries_eq.trans h.deliveries_eq, fun id => ?_, ?_⟩
  · obtain ⟨options, hc⟩ := h.reachable id
    exact ⟨options, Connection.reachable_of_run hc (hs.run_on? id)⟩
  have hkept : ∀ id, (s.connections id).requests.length ≤ (t.connections id).requests.length := by
    intro id
    refine Connection.kept_of_run
      (P := fun c => (s.connections id).requests.length ≤ c.requests.length)
      (fun _ _ _ hle hstep => Nat.le_trans hle (length_requests_le hstep)) (Nat.le_refl _)
      (hs.run_on? id)
  intro j d ticket hj
  cases hs with
  | on => exact Nat.lt_of_lt_of_le (h.made j d ticket hj) (hkept _)
  | @ask i d' hd =>
    by_cases hij : i = j
    · subst hij
      rw [List.getElem?_set_self (List.getElem?_eq_some_iff.1 hd).1] at hj
      cases hj
      dsimp only
      rw [Connections.set_self, Connection.send, List.length_append]
      exact Nat.lt_succ_self _
    · rw [List.getElem?_set_ne hij] at hj
      exact Nat.lt_of_lt_of_le (h.made j d ticket hj) (hkept _)

/-- A measure of the connections, added up over all that are asked. -/
def total (f : Connection → Nat) (s : SlaveRequests) : Nat :=
  (s.deliveries.map fun d => f (s.connections d.connection)).sum

/-- How many targets are still to be asked. -/
def unasked (s : SlaveRequests) : Nat := s.targets.countP (·.2.isNone)

section
variable {f : Connection → Nat} {c : Connection}

theorem total_lt (hid : ∃ d ∈ s.deliveries, d.connection = id) (hlt : f c < f (s.connections id)) :
    total f { s with connections := s.connections.set id c } < total f s := by
  refine List.sum_lt_sum _ _ (fun d _ => ?_) ?_
  · by_cases hd : d.connection = id
    · dsimp only
      rw [hd, Connections.set_self]
      exact Nat.le_of_lt hlt
    · dsimp only
      rw [Connections.set_of_ne _ hd]
  · obtain ⟨d, hd, rfl⟩ := hid
    refine ⟨d, hd, ?_⟩
    dsimp only
    rwa [Connections.set_self]

theorem total_eq (heq : f c = f (s.connections id)) :
    total f { s with connections := s.connections.set id c } = total f s := by
  refine congrArg List.sum (List.map_congr_left fun d _ => ?_)
  by_cases hd : d.connection = id
  · dsimp only
    rw [hd, Connections.set_self, heq]
  · dsimp only
    rw [Connections.set_of_ne _ hd]

end

/-- What is left to be done, the most important first. -/
def ranks : List (SlaveRequests → Nat) :=
  [unasked, total Connection.ahead, total fun c => c.outgoing.work]

theorem Going.lowers (h : Going ds s) (hs : Step m s e t) (he : e.goesOn ds) :
    Machine.Lowers ranks t s := by
  cases hs with
  | @ask i d hd =>
    refine .head ?_
    obtain ⟨hlt, hget⟩ := List.getElem?_eq_some_iff.1 hd
    have hpos : 0 < s.targets.countP (·.2.isNone) :=
      List.countP_pos_iff.2 ⟨_, List.getElem_mem hlt, by rw [hget]; rfl⟩
    rw [unasked, unasked, List.countP_set hlt, hget]
    exact Nat.sub_lt hpos Nat.one_pos
  | @on id x c hc =>
    cases x with
    | request ticket x =>
      obtain ⟨q, hq, hstep⟩ := Option.bind_eq_some_iff.1 hc
      exact .cons rfl (.head
        (total_lt (h.deliveries_eq ▸ he) (Connection.ahead_stepRequest hq hstep)))
    | writer x =>
      refine .cons rfl (.cons (total_eq ?_)
        (.head (total_lt (h.deliveries_eq ▸ he.1) (Connection.work_stepWriter hc he.2))))
      have hbooks : c.books = (s.connections id).books := Connection.stepWriter_books hc
      have hrequests : c.requests = (s.connections id).requests := congrArg Books.requests hbooks
      rw [Connection.ahead, hrequests, Connection.ahead]
    | _ => exact he.elim

/-- Where no request can go on, all of them have come back. -/
theorem Going.outcomes_of_stuck (h : Going ds s)
    (hstuck : ∀ e : Event, e.goesOn ds → SlaveRequests.step m s e = none) :
    ∃ outs, s.outcomes? = some outs := by
  have hback : ∀ x ∈ s.targets, ∃ y, s.outcome? x = some y := by
    rintro ⟨d, state⟩ hx
    obtain ⟨i, hi⟩ := List.getElem?_of_mem hx
    have hd : ∃ d' ∈ ds, d'.connection = d.connection :=
      ⟨d, h.deliveries_eq ▸ List.mem_of_getElem? (getElem?_deliveries hi), rfl⟩
    cases state with
    | none =>
      have hask := hstuck (.ask i) trivial
      rw [step_iff.2 (.ask hi)] at hask
      cases hask
    | some ticket =>
      have hno : ∀ {x c}, (Event.on d.connection x).goesOn ds →
          (s.connections d.connection).step x = some c → False := by
        intro x c hgo hc
        have hnone := hstuck (.on d.connection x) hgo
        rw [step_iff.2 (.on hc)] at hnone
        cases hnone
      obtain ⟨options, hreach⟩ := h.reachable d.connection
      obtain ⟨q, hq⟩ : ∃ q, (s.connections d.connection).requests[ticket]? = some q :=
        ⟨_, List.getElem?_eq_getElem (h.made i d ticket hi)⟩
      cases ho : q.isOver with
      | false =>
        rcases Connection.exists_step_of_unfinished (Connection.isWithin hreach) hq ho with
          ⟨x, c, hc⟩ | ⟨x, c, hx, hc⟩
        · exact (hno (x := .request ticket x) hd hc).elim
        · exact (hno (x := .writer x) ⟨hd, hx⟩ hc).elim
      | true =>
        obtain ⟨result, hresult⟩ := Option.isSome_iff_exists.1 ho
        refine ⟨(d, result.map Arrival.message), outcome?_eq_some_iff.2 ⟨ticket, rfl, ?_⟩⟩
        rw [Connection.result?, hq, Option.bind_some, hresult, Option.map_some]
  exact exists_mapM hback

theorem going_new (htable : ∀ id, ∃ options, (Connection.machine options).Reachable (table id)) :
    Going r.deliveries (new r table) where
  deliveries_eq := deliveries_new r table
  reachable := htable
  made i d ticket hi := by simp [new] at hi

theorem going_of_run (htable : ∀ id, ∃ options, (Connection.machine options).Reachable (table id))
    (hrun : (machine r table m).run (new r table) events = some s) : Going r.deliveries s :=
  @Machine.run_induction _ _ (machine r table m) (fun _ s => Going r.deliveries s) _ _
    (going_new htable) (fun _ _ _ _ _ hu hs => hu.step (step_iff.1 hs)) events hrun

/-- **All requests come back**, whatever has happened so far: the callers and the writers cannot go
on for ever, and as long as a request has not come back one of them can. -/
theorem Going.inevitable_outcomes (h : Going r.deliveries s) :
    (machine r table m).Inevitable (Event.goesOn r.deliveries)
      (fun t => ∃ outs, t.outcomes? = some outs) s :=
  Machine.inevitable_of_lowers ranks
    (fun _ _ _ hs he hstep => ⟨hs.step (step_iff.1 hstep), hs.lowers (step_iff.1 hstep) he⟩)
    (fun _ hs hstuck => hs.outcomes_of_stuck hstuck) h

/-! ## All requests -/

/-- What the requests to all slaves have come to after some events. -/
structure Answered (r : Registry) (table : Connections) (m : Message) (events : List Event)
    (s : SlaveRequests) : Prop where
  /-- There is one outcome for each connection of each slave, in their order. -/
  one_each : ∀ outs, s.outcomes? = some outs →
    outs.map (·.1) = r.slaveNodes.flatMap fun n => n.connections.map fun c => ⟨n.id, c⟩
  /-- It is what the request comes to on that connection alone, and a response came in there. -/
  alone : ∀ outs, s.outcomes? = some outs → ∀ (i : Nat) d result, outs[i]? = some (d, result) →
    ∃ before after, events = before ++ .ask i :: after ∧
      (table d.connection).sendResult? m (own d.connection before) (own d.connection after) =
        some result ∧
      Connection.ComesBack m (own d.connection after) result
  /-- All requests come back. -/
  returns : (machine r table m).Inevitable (Event.goesOn r.deliveries)
    (fun t => ∃ outs, t.outcomes? = some outs) s

/-- **The slaves are asked independently.** If no two of them share a connection, then whatever
happens on the connections before, while and after the slaves are asked, the requests come back with
one outcome for each connection, which is what the same request would have come to on this connection
with nothing but its own steps. Nor does one slave limit what another can do: any steps that are
possible on each connection alone are possible together, in any order. -/
theorem slaves_are_asked_independently (calls : List Registry.Call) (table : Connections)
    (m : Message) (hdistinct : ((Registry.after calls).deliveries.map (·.connection)).Nodup)
    (htable : ∀ id, ∃ options, (Connection.machine options).Reachable (table id)) :
    let r := Registry.after calls
    (∀ events s, (machine r table m).run (new r table) events = some s →
      Answered r table m events s) ∧
    ∀ events, (∃ s, (machine r table m).run (new r table) events = some s) ↔
      AsksOnce (new r table) events ∧
        ∀ id, ∃ c, (table id).run (seen r.deliveries m id events) = some c := by
  intro r
  refine ⟨fun events s hrun => ?_, fun events => ?_⟩
  · constructor
    case one_each =>
      intro outs houts
      rw [map_fst_outcomes houts, (run_seen hrun).1, deliveries_new]
      rfl
    case alone =>
      intro outs houts i d result hi
      have hplace := getElem?_outcomes houts i
      rw [hi] at hplace
      obtain ⟨x, hx, houtcome⟩ := Option.map_eq_some_iff.1 hplace
      obtain ⟨ticket, rfl, hresult⟩ := outcome?_eq_some_iff.1 houtcome
      obtain ⟨before, after, rfl, halone⟩ := sendResult?_of_run hdistinct hrun hx
      obtain ⟨options, hreach⟩ := htable d.connection
      rw [hresult] at halone
      exact ⟨before, after, rfl, halone, Connection.comesBack_of_sendResult? hreach halone⟩
    case returns => exact (going_of_run htable hrun).inevitable_outcomes
  · rw [exists_run_iff, deliveries_new]
    rfl

/-! ### Five requests under one id -/

/-- Two connections of one slave, one of another, two of a third, and a master. -/
private def polled : List Registry.Call :=
  [.register "b" .slave [] ⟨0⟩, .register "a" .slave [] ⟨1⟩, .addConnection "a" ⟨2⟩,
    .register "m" .master [] ⟨4⟩, .register "c" .slave [] ⟨3⟩, .addConnection "c" ⟨5⟩]

private def poll : Message := .bare (.ofNat 7) .select

private def reply (body : Bytes) (h : body.length < bodyLimit) : Message :=
  ⟨poll.id, .insert, body, h⟩

/-- One connection is closed already, and on one a request under the id is under way. -/
private def prepared (id : ConnectionId) : List ConnectionEvent :=
  if id = ⟨0⟩ then [.close, .closing .announce, .closing .detach, .closing (.shutDown (.ok ()))]
  else if id = ⟨3⟩ then [.send poll, .request 0 .register]
  else [.reader (.start false)]

private def links : Connections := fun id =>
  ((Connection.new {}).run (prepared id)).getD (.new {})

private theorem links_reachable (id : ConnectionId) :
    ∃ options, (Connection.machine options).Reachable (links id) := by
  refine ⟨{}, ?_⟩
  unfold links
  cases hrun : (Connection.new {}).run (prepared id) with
  | none => exact .start
  | some c => exact Connection.reachable_of_run .start hrun

private theorem deliveries_polled : (Registry.after polled).deliveries =
    [⟨"a", ⟨1⟩⟩, ⟨"a", ⟨2⟩⟩, ⟨"b", ⟨0⟩⟩, ⟨"c", ⟨3⟩⟩, ⟨"c", ⟨5⟩⟩] := by
  have hnodes : (Registry.after polled).slaveNodes =
      [⟨"a", .slave, [], [⟨1⟩, ⟨2⟩], []⟩, ⟨"b", .slave, [], [⟨0⟩], []⟩,
        ⟨"c", .slave, [], [⟨3⟩, ⟨5⟩], []⟩] :=
    Registry.sorted_unique (by decide) (by decide) (by decide)
  rw [Registry.deliveries, hnodes]
  rfl

private def queues (id : ConnectionId) : List Event :=
  [.on id (.request 0 .register), .on id (.request 0 .reach), .on id (.request 0 .queue)]

private def answers (id : ConnectionId) (m : Message) : List Event :=
  [.on id (.reader (.arrive m)), .on id (.reader .dispatch)]

/-- All are asked; the second answers before the first, and the last does not answer. -/
private def polling : List Event :=
  [.ask 0, .ask 3, .ask 1, .on ⟨3⟩ (.request 1 .register), .ask 4, .ask 2] ++
    queues ⟨2⟩ ++ queues ⟨1⟩ ++ queues ⟨5⟩ ++ answers ⟨2⟩ (reply [2] (by decide)) ++
    answers ⟨1⟩ (reply [1] (by decide)) ++
    [.on ⟨5⟩ (.request 0 .timeOut), .on ⟨2⟩ (.request 0 .take), .on ⟨5⟩ (.request 0 .giveUp),
      .on ⟨1⟩ (.request 0 .take)]

private def replies : List (Delivery × Except ConnectionError Message) :=
  [(⟨"a", ⟨1⟩⟩, .ok (reply [1] (by decide))), (⟨"a", ⟨2⟩⟩, .ok (reply [2] (by decide))),
    (⟨"b", ⟨0⟩⟩, .error .closed), (⟨"c", ⟨3⟩⟩, .error (.duplicateId poll.id)),
    (⟨"c", ⟨5⟩⟩, .error (.timeout poll.id defaultTimeout))]

private theorem run_polling : ((machine (.after polled) links poll).run
    (new (.after polled) links) polling).bind outcomes? = some replies := by
  rw [new, deliveries_polled]
  rfl

/-- Each answer is the outcome of the request on the connection that it came in on. -/
theorem crossing_answers_stay_with_their_slaves : ∃ s,
    (machine (.after polled) links poll).run (new (.after polled) links) polling = some s ∧
    s.outcomes? = some replies ∧ Answered (.after polled) links poll polling s ∧
    ∃ before after, polling = before ++ .ask 1 :: after ∧
      (links ⟨2⟩).sendResult? poll (own ⟨2⟩ before) (own ⟨2⟩ after) =
        some (.ok (reply [2] (by decide))) := by
  obtain ⟨s, hrun, houtcomes⟩ := Option.bind_eq_some_iff.1 run_polling
  have hdistinct : ((Registry.after polled).deliveries.map (·.connection)).Nodup := by
    rw [deliveries_polled]
    decide
  have h := (slaves_are_asked_independently polled links poll hdistinct links_reachable).1 _ s hrun
  obtain ⟨before, after, hsplit, halone, -⟩ := h.alone replies houtcomes 1 _ _ rfl
  exact ⟨s, hrun, houtcomes, h, before, after, hsplit, halone⟩

end ClusterLink.SlaveRequests
