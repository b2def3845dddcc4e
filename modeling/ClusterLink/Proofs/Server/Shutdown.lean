import ClusterLink.Proofs.Server.Membership
/-!
# A shutdown misses no connection

A shutdown raises the flag before it takes its snapshot, and a thread looks at the flag again after
it has registered its connection. A connection that is missing from the snapshot was taken out before
it, and then it is closed, or it was registered after it, and then its thread has yet to look and
will find the flag raised. One that is in the snapshot is closed by the shutdown, whatever its thread
does in the meantime.

Results:
* `SessionTable.FirstOnly.step`: only the first call to shut down does anything.
* `SessionTable.Sweep.step`: what is known of a connection, by how far its thread has come.
* `SessionTable.shutdown_misses_no_connection`: all are closed, and the hook has run once.
-/
namespace ClusterLink

/-- What a call to shut down still has to close, once it has taken its snapshot. -/
def ShutdownStage.left? : ShutdownStage → Option (List ConnectionId)
  | flagged => none
  | closing left => some left
  | returned => some []

namespace SessionTable

open SessionStage (memberAt)

variable {t u : SessionTable} {e : SessionEvent} {i : Nat} {c : ConnectionId}

/-! ## The calls to shut down -/

/-- Only the first call to shut down does anything. -/
structure FirstOnly (t : SessionTable) : Prop where
  raised : t.isShutDown = true ↔ t.shutdowns ≠ []
  further : ∀ k stage, t.shutdowns[k + 1]? = some stage → stage = .returned
  hooks : t.hooks = if t.shutdowns[0]? = some .returned then 1 else 0

namespace FirstOnly

theorem start : FirstOnly {} where
  raised := by simp
  further := by simp
  hooks := rfl

theorem shutdowns_eq_nil (h : FirstOnly t) (hflag : t.isShutDown = false) : t.shutdowns = [] := by
  by_contra hne
  rw [h.raised.2 hne] at hflag
  cases hflag

/-- A call that is not over is the first. -/
theorem eq_zero (h : FirstOnly t) {k : Nat} {stage : ShutdownStage}
    (hk : t.shutdowns[k]? = some stage) (hstage : stage ≠ .returned) : k = 0 := by
  cases k with
  | zero => rfl
  | succ k => exact absurd (h.further k stage hk) hstage

/-- The first call moves on. -/
theorem advance (h : FirstOnly t) {k : Nat} {stage next : ShutdownStage}
    (hk : t.shutdowns[k]? = some stage) (hstage : stage ≠ .returned)
    (hraised : u.isShutDown = t.isShutDown) (hshutdowns : u.shutdowns = t.shutdowns.set k next)
    (hhooks : u.hooks = if next = .returned then t.hooks + 1 else t.hooks) : FirstOnly u := by
  obtain rfl := h.eq_zero hk hstage
  constructor
  · rw [hraised, h.raised, hshutdowns]
    simp
  · intro j stage' hj
    rw [hshutdowns, getElem?_set_entry hk, if_neg (Nat.succ_ne_zero j)] at hj
    exact h.further j stage' hj
  · rw [hhooks, h.hooks, hshutdowns, getElem?_set_entry hk, hk]
    simp [hstage]

theorem step (h : FirstOnly t) (hs : t.Step e u) : FirstOnly u := by
  cases hs with
  | raise hflag =>
    have hnil := h.shutdowns_eq_nil hflag
    have hhooks := h.hooks
    constructor
    · simp
    · simp [hnil]
    · simpa [hnil] using hhooks
  | raiseAgain hflag =>
    have hpos := List.length_pos_iff.2 (h.raised.1 hflag)
    constructor
    · simp [hflag]
    · intro k stage hk
      dsimp only at hk
      rw [List.getElem?_append] at hk
      split at hk
      · exact h.further k stage hk
      · exact List.mem_singleton.1 (List.mem_of_getElem? hk)
    · dsimp only
      rw [List.getElem?_append_left hpos]
      exact h.hooks
  | snapshot hk horder => exact h.advance hk nofun rfl rfl rfl
  | closeNext hk hclosed => exact h.advance hk nofun rfl rfl rfl
  | finish hk => exact h.advance hk nofun rfl rfl rfl
  | _ => exact ⟨h.raised, h.further, h.hooks⟩

end FirstOnly

/-! ## What a step leaves behind -/

theorem closed_of_step (hs : t.Step e u) (hc : c ∈ t.closed) : c ∈ u.closed := by
  cases hs with
  | giveUp hi hclosed => exact (hclosed c).2 (Or.inl hc)
  | stopServing hi hclosed => exact (hclosed c).2 (Or.inl hc)
  | hangUp hi hstage hclosed => exact (hclosed c).2 (Or.inl hc)
  | closeNext hk hclosed => exact (hclosed c).2 (Or.inl hc)
  | _ => exact hc

theorem takenOut_of_step (hs : t.Step e u) (hc : c ∈ t.takenOut) : c ∈ u.takenOut := by
  cases hs with
  | removeNode => exact List.mem_append_left _ hc
  | _ => exact hc

/-- A thread that has ended registers nothing. -/
theorem registrations_of_step (hs : t.Step e u) (hi : t.sessions[i]? = some .ended) {id : String}
    (hid : ((⟨i⟩ : ConnectionId), id) ∈ u.registrations) : (⟨i⟩, id) ∈ t.registrations := by
  cases hs with
  | register hj =>
    rcases List.mem_append.1 hid with hid | hid
    · exact hid
    · cases List.mem_singleton.1 hid
      rw [hi] at hj
      cases hj
  | _ => exact hid

/-- What the first call to shut down has still to close gets less only by closing. -/
theorem left_of_step (h : FirstOnly t) (hs : t.Step e u)
    (hsnapshot : ∀ k order, e ≠ .shutdown k (.snapshot order)) {first : ShutdownStage}
    {left : List ConnectionId} (hfirst : u.shutdowns[0]? = some first)
    (hleft : first.left? = some left) :
    ∃ before more, t.shutdowns[0]? = some before ∧ before.left? = some more ∧
      ∀ c ∈ more, c ∈ left ∨ c ∈ u.closed := by
  cases hs with
  | raise hflag =>
    rw [h.shutdowns_eq_nil hflag] at hfirst
    cases hfirst
    cases hleft
  | raiseAgain hflag =>
    dsimp only at hfirst
    rw [List.getElem?_append_left (List.length_pos_iff.2 (h.raised.1 hflag))] at hfirst
    exact ⟨first, left, hfirst, hleft, fun c => Or.inl⟩
  | snapshot hk horder => exact absurd rfl (hsnapshot _ _)
  | closeNext hk hclosed =>
    obtain rfl := h.eq_zero hk nofun
    dsimp only at hfirst
    rw [getElem?_set_entry hk, if_pos rfl] at hfirst
    cases hfirst
    cases hleft
    refine ⟨_, _, hk, rfl, fun c hc => ?_⟩
    rcases List.mem_cons.1 hc with hc | hc
    · exact Or.inr ((hclosed c).2 (Or.inr hc))
    · exact Or.inl hc
  | finish hk =>
    obtain rfl := h.eq_zero hk nofun
    exact ⟨_, _, hk, rfl, nofun⟩
  | _ => exact ⟨first, left, hfirst, hleft, fun c => Or.inl⟩

/-! ## What is known of a connection -/

/-- The first call to shut down does not miss a connection: once it has taken its snapshot, the
connection is closed or still to be closed by it, unless it was taken out with its node. -/
def Caught (t : SessionTable) (c : ConnectionId) : Prop :=
  ∀ first left, t.shutdowns[0]? = some first → first.left? = some left →
    c ∈ t.closed ∨ c ∈ t.takenOut ∨ c ∈ left

theorem Caught.step (hc : t.Caught c) (h : FirstOnly t) (hs : t.Step e u)
    (hsnapshot : ∀ k order, e ≠ .shutdown k (.snapshot order)) : u.Caught c := by
  intro first left hfirst hleft
  obtain ⟨before, more, hbefore, hmore, hkept⟩ := left_of_step h hs hsnapshot hfirst hleft
  rcases hc before more hbefore hmore with hclosed | hgone | hmem
  · exact Or.inl (closed_of_step hs hclosed)
  · exact Or.inr (Or.inl (takenOut_of_step hs hgone))
  · rcases hkept c hmem with hin | hclosed
    · exact Or.inr (Or.inr hin)
    · exact Or.inl hclosed

/-- The snapshot has the connection of every thread that is between registering and removing. -/
theorem caught_of_snapshot (hfirst : FirstOnly t) (h : Membership t) {k : Nat}
    {order : List ConnectionId} (hs : t.Step (.shutdown k (.snapshot order)) u) {node : Joined}
    (hmember : memberAt t.sessions i = some node) : u.Caught ⟨i⟩ := by
  cases hs with
  | snapshot hk horder =>
    obtain rfl := hfirst.eq_zero hk nofun
    intro first left hnow hleft
    dsimp only at hnow
    rw [getElem?_set_entry hk, if_pos rfl] at hnow
    cases hnow
    cases hleft
    by_cases hgone : ⟨i⟩ ∈ t.takenOut
    · exact Or.inr (Or.inl hgone)
    · obtain ⟨n, hn, hmem⟩ := h.find?_of_member hmember hgone
      exact Or.inr (Or.inr (horder.mem_iff.2 (h.indexed.mem_connections hn hmem)))

/-- What is known of the connection of a thread, by how far the thread has come. -/
def Swept (t : SessionTable) (i : Nat) : SessionStage → Prop
  | .serving _ => t.Caught ⟨i⟩
  | .leaving _ => ⟨i⟩ ∈ t.closed
  | .ended => (∃ id, (⟨i⟩, id) ∈ t.registrations) → ⟨i⟩ ∈ t.closed
  | _ => True

/-- What is known of all connections. -/
structure Sweep (t : SessionTable) : Prop where
  membership : Membership t
  firstOnly : FirstOnly t
  swept : ∀ i stage, t.sessions[i]? = some stage → t.Swept i stage

namespace Sweep

theorem start : Sweep {} := ⟨.start, .start, by simp⟩

/-- A thread that a step does not move on. -/
theorem swept_kept (h : Sweep t) (hs : t.Step e u) {stage : SessionStage}
    (hi : t.sessions[i]? = some stage) : u.Swept i stage := by
  have hswept := h.swept i stage hi
  cases stage with
  | serving node =>
    by_cases hsnapshot : ∃ k order, e = .shutdown k (.snapshot order)
    · obtain ⟨k, order, rfl⟩ := hsnapshot
      exact caught_of_snapshot h.firstOnly h.membership hs (by rw [memberAt, hi]; rfl)
    · push Not at hsnapshot
      exact Caught.step hswept h.firstOnly hs hsnapshot
  | leaving node => exact closed_of_step hs hswept
  | ended =>
    rintro ⟨id, hid⟩
    exact closed_of_step hs (hswept ⟨id, registrations_of_step hs hi hid⟩)
  | _ => trivial

/-- A thread that a step moves on, and all others with it. -/
theorem swept_of_set (h : Sweep t) (hs : t.Step e u) {old new : SessionStage} {j : Nat}
    (hj : t.sessions[j]? = some old) (hset : u.sessions = t.sessions.set j new)
    (hnew : u.Swept j new) : ∀ i stage, u.sessions[i]? = some stage → u.Swept i stage := by
  intro i stage hi
  rw [hset, getElem?_set_entry hj] at hi
  split at hi
  · next hij =>
    cases hi
    exact hij ▸ hnew
  · exact h.swept_kept hs hi

theorem step (h : Sweep t) (hs : t.Step e u) : Sweep u := by
  refine ⟨h.membership.step hs, h.firstOnly.step hs, ?_⟩
  have hs' := hs
  -- A thread is accounted for where the step takes it; all others by `swept_kept`.
  cases hs with
  | accept =>
    intro i stage hi
    dsimp only at hi
    rw [List.getElem?_append] at hi
    split at hi
    · exact h.swept_kept hs' hi
    · rw [List.mem_singleton.1 (List.mem_of_getElem? hi)]
      trivial
  | look hj =>
    refine h.swept_of_set hs' hj rfl ?_
    split
    · rintro ⟨id, hid⟩
      exact absurd hid (h.membership.not_noted hj rfl id)
    · trivial
  | refuse hj =>
    refine h.swept_of_set hs' hj rfl ?_
    rintro ⟨id, hid⟩
    exact absurd hid (h.membership.not_noted hj rfl id)
  | letIn hj => exact h.swept_of_set hs' hj rfl trivial
  | register hj => exact h.swept_of_set hs' hj rfl trivial
  | lookAgain hj =>
    refine h.swept_of_set hs' hj rfl ?_
    cases hflag : t.isShutDown with
    | true => trivial
    | false =>
      -- The flag is not raised yet, so no snapshot is taken.
      intro first left hfirst hleft
      dsimp only at hfirst
      rw [h.firstOnly.shutdowns_eq_nil hflag] at hfirst
      cases hfirst
  | giveUp hj hclosed =>
    exact h.swept_of_set hs' hj rfl fun _ _ _ _ => Or.inl ((hclosed _).2 (Or.inr rfl))
  | stopServing hj hclosed => exact h.swept_of_set hs' hj rfl ((hclosed _).2 (Or.inr rfl))
  | remove hj => exact h.swept_of_set hs' hj rfl fun _ => h.swept _ _ hj
  | _ => exact fun i stage hi => h.swept_kept hs' hi

theorem reachable (h : machine.Reachable t) : Sweep t :=
  Machine.invariant start (fun _ _ _ ht hs => ht.step (step_cases hs)) h

/-- Once the first call to shut down has returned, the connection of a thread that has looked again
is closed. -/
theorem closed_of_isPastSecondLook (h : Sweep t) (hreturned : t.shutdowns[0]? = some .returned)
    {id : String} (hid : (c, id) ∈ t.registrations) (hkept : c ∉ t.takenOut)
    (hpast : ∀ stage, t.sessions[c.number]? = some stage → stage.isPastSecondLook = true) :
    c ∈ t.closed := by
  obtain ⟨stage, hi, -⟩ := h.membership.past c id hid
  have hswept := h.swept c.number stage hi
  have hlooked := hpast stage hi
  cases stage with
  | serving node =>
    rcases hswept .returned [] hreturned rfl with hclosed | hgone | hmem
    · exact hclosed
    · exact absurd hgone hkept
    · cases hmem
  | leaving node => exact hswept
  | ended => exact hswept ⟨id, hid⟩
  | _ => cases hlooked

end Sweep

/-- **A shutdown misses no connection.** Once the first call to shut down has returned and every
thread has looked at the flag for the second time, or never will, each connection that was ever
registered is closed, unless it was taken out with its node, and the shutdown hook has run exactly
once. -/
theorem shutdown_misses_no_connection (h : machine.Reachable t)
    (hreturned : t.shutdowns[0]? = some .returned)
    (hpast : ∀ stage ∈ t.sessions, stage.isPastSecondLook = true) :
    (∀ c id, (c, id) ∈ t.registrations → c ∉ t.takenOut → c ∈ t.closed) ∧ t.hooks = 1 := by
  have hsweep := Sweep.reachable h
  constructor
  · intro c id hid hkept
    apply hsweep.closed_of_isPastSecondLook hreturned hid hkept
    exact fun stage hi => hpast stage (List.mem_of_getElem? hi)
  · rw [hsweep.firstOnly.hooks, if_pos hreturned]

/-- Of three connections one is in the snapshot, one is registered after it and one is taken out
before it; the shutdown is called twice. -/
private def closingTime : List SessionEvent :=
  [.accept, .accept, .accept,
    .session 0 .look, .session 0 (.letIn ⟨"a", .master, []⟩), .session 0 .register,
    .session 0 .lookAgain, .session 1 .look, .session 1 (.letIn ⟨"a", .slave, []⟩),
    .session 2 .look, .session 2 (.letIn ⟨"b", .slave, []⟩), .session 2 .register,
    .session 2 .lookAgain, .removeNode "b", .beginShutdown, .shutdown 0 (.snapshot [⟨0⟩]),
    .beginShutdown, .session 1 .register, .shutdown 0 .closeNext, .session 1 .lookAgain,
    .shutdown 0 .finish, .session 1 .giveUp]

theorem a_late_connection_closes_itself :
    ∃ t, machine.Reachable t ∧ t.shutdowns = [.returned, .returned] ∧ t.takenOut = [⟨2⟩] ∧
      ⟨0⟩ ∈ t.closed ∧ ⟨1⟩ ∈ t.closed ∧ ⟨2⟩ ∉ t.closed ∧ t.hooks = 1 := by
  obtain ⟨t, hrun, hshutdowns, hstages, hgone, hids, hclosed⟩ : ∃ t,
      machine.run machine.start closingTime = some t ∧ t.shutdowns = [.returned, .returned] ∧
      t.sessions = [.serving ⟨"a", .master, []⟩, .serving ⟨"a", .slave, []⟩,
        .serving ⟨"b", .slave, []⟩] ∧
      t.takenOut = [⟨2⟩] ∧ t.registrations = [(⟨0⟩, "a"), (⟨2⟩, "b"), (⟨1⟩, "a")] ∧
      ⟨2⟩ ∉ t.closed := ⟨_, rfl, rfl, rfl, rfl, rfl, by decide⟩
  have hreach := (Machine.reachable_iff machine t).2 ⟨closingTime, hrun⟩
  have hpast : ∀ stage ∈ t.sessions, stage.isPastSecondLook = true := by
    rw [hstages]
    decide
  obtain ⟨hall, hhooks⟩ := shutdown_misses_no_connection hreach (by rw [hshutdowns]; rfl) hpast
  refine ⟨t, hreach, hshutdowns, hgone, ?_, ?_, hclosed, hhooks⟩
  · exact hall ⟨0⟩ "a" (by simp [hids]) (by simp [hgone])
  · exact hall ⟨1⟩ "a" (by simp [hids]) (by simp [hgone])

end SessionTable

end ClusterLink
