/-!
# Machines

What several threads do to shared data is a machine: a state, and events that are the steps no
other thread can interrupt. An event is either impossible in a state or leads to one other state, so
an interleaving of the threads is a list of events.

Results:
* `Machine.reachable_iff`: a state is reachable exactly if some run leads to it.
* `Machine.run_induction`: what each step keeps, told what happened before, holds after a run.
* `Machine.invariant`: what the start has and every step keeps holds in every reachable state.
* `Machine.Along.invariant`: the same of a run, from what all of its states have.
* `Machine.onset`: what holds after a run and not before it has a step from which on it held.
-/

namespace ClusterLink

/-- A start and the steps from it. -/
structure Machine (State Event : Type) where
  start : State
  step : State → Event → Option State

namespace Machine

variable {State Event : Type}

/-- The state after some events, if each is possible where it happens. -/
def run (m : Machine State Event) : State → List Event → Option State
  | s, [] => some s
  | s, e :: later => (m.step s e).bind fun t => m.run t later

/-- The states that a run can lead to. -/
inductive Reachable (m : Machine State Event) : State → Prop where
  | start : Reachable m m.start
  | step {s t : State} {e : Event} : Reachable m s → m.step s e = some t → Reachable m t

@[simp] theorem run_nil (m : Machine State Event) (s : State) : m.run s [] = some s := rfl

theorem run_cons (m : Machine State Event) (s : State) (e : Event) (later : List Event) :
    m.run s (e :: later) = (m.step s e).bind fun t => m.run t later := rfl

theorem run_append (m : Machine State Event) (s : State) (first later : List Event) :
    m.run s (first ++ later) = (m.run s first).bind fun t => m.run t later := by
  induction first generalizing s with
  | nil => rfl
  | cons e es ih =>
    rw [List.cons_append, run_cons, run_cons]
    cases m.step s e with
    | none => rfl
    | some t => exact ih t

theorem run_concat {m : Machine State Event} {s t u : State} {events : List Event} {e : Event}
    (hrun : m.run s events = some t) (hs : m.step t e = some u) :
    m.run s (events ++ [e]) = some u := by
  rw [run_append, hrun, Option.bind_some, run_cons, hs, Option.bind_some, run_nil]

/-- What holds before a run and is kept by each step, told what happened up to there, holds after
it. -/
theorem run_induction {m : Machine State Event} {Inv : List Event → State → Prop} {s t : State}
    (hstart : Inv [] s)
    (hstep : ∀ events u e v, m.run s events = some u → Inv events u → m.step u e = some v →
      Inv (events ++ [e]) v)
    {events : List Event} (hrun : m.run s events = some t) : Inv events t := by
  have hrest : ∀ later done u, m.run s done = some u → Inv done u → m.run u later = some t →
      Inv (done ++ later) t := by
    intro later
    induction later with
    | nil =>
      intro done u _ hinv hlater
      cases hlater
      rwa [List.append_nil]
    | cons e later ih =>
      intro done u hdone hinv hlater
      obtain ⟨v, hs, hv⟩ := Option.bind_eq_some_iff.1 hlater
      have hall := ih (done ++ [e]) v (run_concat hdone hs) (hstep done u e v hdone hinv hs) hv
      rwa [List.append_assoc, List.singleton_append] at hall
  exact hrest events [] s rfl hstart hrun

theorem Reachable.run {m : Machine State Event} {s t : State} (h : m.Reachable s)
    {events : List Event} (hrun : m.run s events = some t) : m.Reachable t := by
  induction events generalizing s with
  | nil =>
    cases hrun
    exact h
  | cons e es ih =>
    rw [run_cons] at hrun
    cases hstep : m.step s e with
    | none => rw [hstep] at hrun; cases hrun
    | some u =>
      rw [hstep] at hrun
      exact ih (h.step hstep) hrun

theorem reachable_iff (m : Machine State Event) (s : State) :
    m.Reachable s ↔ ∃ events, m.run m.start events = some s := by
  constructor
  · intro h
    induction h with
    | start => exact ⟨[], rfl⟩
    | @step s t e _ hstep ih =>
      obtain ⟨events, hrun⟩ := ih
      exact ⟨events ++ [e], run_concat hrun hstep⟩
  · rintro ⟨events, hrun⟩
    exact Reachable.start.run hrun

/-- Whether all states of a run have a property. -/
def Along (m : Machine State Event) (P : State → Prop) : State → List Event → Prop
  | s, [] => P s
  | s, e :: later => P s ∧ ∀ t, m.step s e = some t → m.Along P t later

instance Along.decidable (m : Machine State Event) (P : State → Prop) [DecidablePred P] :
    (s : State) → (events : List Event) → Decidable (m.Along P s events)
  | s, [] => inferInstanceAs (Decidable (P s))
  | s, e :: later =>
    match h : m.step s e with
    | none => decidable_of_iff (P s)
      ⟨fun hp => ⟨hp, fun t ht => by rw [h] at ht; cases ht⟩, And.left⟩
    | some t =>
      have := Along.decidable m P t later
      decidable_of_iff (P s ∧ m.Along P t later)
        ⟨fun hp => ⟨hp.1, fun u hu => by rw [h] at hu; cases hu; exact hp.2⟩,
          fun hp => ⟨hp.1, hp.2 t h⟩⟩

theorem Along.head {m : Machine State Event} {P : State → Prop} {s : State} {events : List Event}
    (h : m.Along P s events) : P s := by
  cases events with
  | nil => exact h
  | cons e later => exact h.1

theorem Along.of_append {m : Machine State Event} {P : State → Prop} {s t : State}
    {first later : List Event} (h : m.Along P s (first ++ later)) (hrun : m.run s first = some t) :
    P t := by
  induction first generalizing s with
  | nil =>
    cases hrun
    exact h.head
  | cons e es ih =>
    obtain ⟨u, hs, hu⟩ := Option.bind_eq_some_iff.1 hrun
    exact ih (h.2 u hs) hu

/-- All states of a run are the ones that its first events lead to. -/
theorem along_iff {m : Machine State Event} {P : State → Prop} {s : State} {events : List Event} :
    m.Along P s events ↔
      ∀ first later t, events = first ++ later → m.run s first = some t → P t := by
  constructor
  · rintro h first later t rfl hrun
    exact h.of_append hrun
  · intro h
    induction events generalizing s with
    | nil => exact h [] [] s rfl rfl
    | cons e later ih =>
      refine ⟨h [] (e :: later) s rfl rfl, fun t hs => ih fun first rest u hsplit hrun => ?_⟩
      apply h (e :: first) rest u (by rw [hsplit, List.cons_append])
      rw [run_cons, hs, Option.bind_some, hrun]

/-- What holds at the first state of a run, and is kept by every step from which the last state can
still be reached, holds at the last. -/
theorem Along.invariant {m : Machine State Event} {P Inv : State → Prop} {s d : State}
    {events : List Event} (hall : m.Along P s events) (hrun : m.run s events = some d)
    (hstart : Inv s)
    (hstep : ∀ u e t later, e ∈ events → m.run t later = some d → P u → P t → Inv u →
      m.step u e = some t → Inv t) : Inv d := by
  induction events generalizing s with
  | nil =>
    cases hrun
    exact hstart
  | cons e later ih =>
    rw [run_cons] at hrun
    cases hs : m.step s e with
    | none => rw [hs] at hrun; cases hrun
    | some t =>
      rw [hs] at hrun
      have hrest := hall.2 t hs
      have ht := hstep s e t later (List.mem_cons_self ..) hrun hall.1 hrest.head hstart hs
      exact ih hrest hrun ht fun u x v w hx => hstep u x v w (List.mem_cons_of_mem e hx)

theorem Along.concat {m : Machine State Event} {P : State → Prop} {s t u : State}
    {events : List Event} {e : Event} (hall : m.Along P s events) (hrun : m.run s events = some t)
    (hs : m.step t e = some u) (hu : P u) : m.Along P s (events ++ [e]) := by
  induction events generalizing s with
  | nil =>
    cases hrun
    refine ⟨hall, fun v hv => ?_⟩
    rw [hs] at hv
    cases hv
    exact hu
  | cons first later ih =>
    obtain ⟨v, hv, hlater⟩ := Option.bind_eq_some_iff.1 hrun
    refine ⟨hall.1, fun w hw => ?_⟩
    rw [hv] at hw
    cases hw
    exact ih (hall.2 v hv) hlater

/-- What holds after a run and did not hold before it was brought about by one of its steps, and has
held since. -/
theorem onset {m : Machine State Event} {P : State → Prop} {s t : State} {events : List Event}
    (hstart : ¬ P s) (hrun : m.run s events = some t) (ht : P t) :
    ∃ before e later u v, events = before ++ e :: later ∧ m.run s before = some u ∧ ¬ P u ∧
      m.step u e = some v ∧ m.run v later = some t ∧ m.Along P v later := by
  refine @run_induction _ _ m (fun events t => P t → ∃ before e later u v,
    events = before ++ e :: later ∧ m.run s before = some u ∧ ¬ P u ∧ m.step u e = some v ∧
      m.run v later = some t ∧ m.Along P v later) s t ?_ ?_ events hrun ht
  · intro hs
    exact absurd hs hstart
  · intro done u e v hdone hinv hs hv
    by_cases hu : P u
    · obtain ⟨before, e', later, x, y, rfl, hx, hnot, hy, hlater, hall⟩ := hinv hu
      exact ⟨before, e', later ++ [e], x, y, by simp, hx, hnot, hy, run_concat hlater hs,
        hall.concat hlater hs hv⟩
    · exact ⟨done, e, [], u, v, rfl, hdone, hu, hs, rfl, hv⟩

theorem invariant {m : Machine State Event} {Inv : State → Prop} (hstart : Inv m.start)
    (hstep : ∀ s e t, Inv s → m.step s e = some t → Inv t) {s : State} (h : m.Reachable s) :
    Inv s := by
  induction h with
  | start => exact hstart
  | step _ hs ih => exact hstep _ _ _ ih hs

end Machine

end ClusterLink
