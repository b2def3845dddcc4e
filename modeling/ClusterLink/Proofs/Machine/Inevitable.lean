import ClusterLink.Machine
/-!
# What comes about whatever the schedule

Several parties that all have something left to do may take turns in any way. What they come to is
inevitable if no way of taking turns avoids it: there is a step until then, and every step leads on
to it.

Work is measured by ranks, the most important first. A step may add work of lower ranks if it does
some of a higher one, as in a pipeline, where what leaves one stage enters the next.

Results:
* `Machine.wellFounded_lowers`: ranks cannot be lowered for ever.
* `Machine.inevitable_of_lowers`: what holds where no step is left is inevitable if every step lowers
  the ranks.
-/
namespace ClusterLink.Machine

variable {State Event : Type}

/-- Whether a state with a property is reached however steps by the events that `may` happen are
taken. -/
inductive Inevitable (m : Machine State Event) (may : Event → Prop) (Q : State → Prop) :
    State → Prop where
  | now {s : State} (h : Q s) : Inevitable m may Q s
  | later {s : State} (hsome : ∃ e t, may e ∧ m.step s e = some t)
      (hall : ∀ e t, may e → m.step s e = some t → Inevitable m may Q t) : Inevitable m may Q s

/-- What follows from something inevitable is inevitable. -/
theorem Inevitable.mono {m : Machine State Event} {may : Event → Prop} {Q R : State → Prop}
    (h : ∀ t, Q t → R t) {s : State} (hs : m.Inevitable may Q s) : m.Inevitable may R s := by
  induction hs with
  | now hq => exact .now (h _ hq)
  | later hsome _ ih => exact .later hsome ih

/-- Whether the first rank in which two states differ is lower in the first of them. -/
def Lowers : (ranks : List (State → Nat)) → State → State → Prop
  | [], _, _ => False
  | rank :: later, t, s => rank t < rank s ∨ (rank t = rank s ∧ Lowers later t s)

theorem wellFounded_lowers (ranks : List (State → Nat)) : WellFounded (Lowers ranks) := by
  induction ranks with
  | nil => exact ⟨fun s => ⟨s, fun t h => absurd h id⟩⟩
  | cons rank later ih =>
    have hlex := InvImage.wf (fun s => (rank s, s)) (Prod.lex ⟨Nat.lt, Nat.lt_wfRel.wf⟩ ⟨_, ih⟩).wf
    refine Subrelation.wf (fun {t s} h => ?_) hlex
    rcases h with hlt | ⟨heq, hlow⟩
    · exact Prod.Lex.left _ _ hlt
    · have hright : Prod.Lex Nat.lt (Lowers later) (rank s, t) (rank s, s) := .right _ hlow
      exact show Prod.Lex Nat.lt (Lowers later) (rank t, t) (rank s, s) from heq ▸ hright

theorem Lowers.cons {rank : State → Nat} {later : List (State → Nat)} {s t : State}
    (heq : rank t = rank s) (h : Lowers later t s) : Lowers (rank :: later) t s :=
  Or.inr ⟨heq, h⟩

theorem Lowers.head {rank : State → Nat} {later : List (State → Nat)} {s t : State}
    (h : rank t < rank s) : Lowers (rank :: later) t s :=
  Or.inl h

variable {m : Machine State Event} {may : Event → Prop} {Q : State → Prop}

/-- If every step lowers the ranks, and whoever can take none is where they are to come to, then they
come there. -/
theorem inevitable_of_lowers {Inv : State → Prop} (ranks : List (State → Nat))
    (hstep : ∀ s e t, Inv s → may e → m.step s e = some t → Inv t ∧ Lowers ranks t s)
    (hstuck : ∀ s, Inv s → (∀ e, may e → m.step s e = none) → Q s) {s : State} (h : Inv s) :
    m.Inevitable may Q s := by
  induction s using (wellFounded_lowers ranks).induction with
  | h s ih =>
    by_cases hsome : ∃ e t, may e ∧ m.step s e = some t
    · refine .later hsome fun e t he ht => ?_
      obtain ⟨hinv, hlow⟩ := hstep s e t h he ht
      exact ih t hlow hinv
    · refine .now (hstuck s h fun e he => ?_)
      cases ht : m.step s e with
      | none => rfl
      | some t => exact absurd ⟨e, t, he, ht⟩ hsome

end ClusterLink.Machine
