import ClusterLink.Client.Dial
import ClusterLink.Server.Handshake
/-!
# What comes behind a welcome

A welcome ends what the two sides of a socket settle with each other. Either side then opens a
connection for itself, which takes memory and threads, and the server tells its observer before it
registers the connection.

Results:
* `Connection.launch_eq_ok_iff`: when a connection opens.
* `Gate.enroll_of_opens`, `Gate.enroll_of_not_opens`: when a node that was let in is registered.
* `dialConnection_of_opens`, `dialConnection_of_not_opens`: when a client that was welcomed has a
  connection.
-/
namespace ClusterLink

/-! ## Opening a connection -/

/-- The settings let a connection open whose queue memory can hold, and its writer starts. -/
structure ConnectionOptions.Opens (options : ConnectionOptions) (thread : Except IoError Unit) :
    Prop where
  queue_fits : max options.queueCapacity 1 * 32 < 9223372036854775808
  writer_starts : thread = .ok ()

theorem Connection.launch_eq_ok_iff {options : ConnectionOptions} {thread : Except IoError Unit}
    {c : Connection} :
    Connection.launch options thread = .ok c ↔ options.Opens thread ∧ c = .new options := by
  have hfits : memoryLimit ≤ (new options).capacity * queueCell ↔
      ¬ max options.queueCapacity 1 * 32 < 9223372036854775808 := Nat.not_lt.symm
  unfold launch
  constructor
  · intro h
    split at h
    · cases h
    · next hqueue =>
      cases thread with
      | error cause => cases h
      | ok _ => exact ⟨⟨Decidable.byContradiction fun hno => hqueue (hfits.2 hno), rfl⟩,
          (Except.ok.inj h).symm⟩
  · rintro ⟨⟨hqueue, rfl⟩, rfl⟩
    rw [if_neg fun hno => hfits.1 hno hqueue]

/-! ## The server -/

namespace Gate

variable {g : Gate} {join : JoinRequest} {options : ConnectionOptions}
  {thread : Except IoError Unit} {hook : Option ConnectionHook} {r : Registry} {c : ConnectionId}
  {socket : Socket}

theorem receive_eq (g : Gate) (r : Registry) (c : ConnectionId) (socket : Socket) :
    (g.receive r c socket).1 = (g.letIn socket).1 ∧
      (g.receive r c socket).2.2 = (g.letIn socket).2 := by
  unfold receive
  cases g.letIn socket with
  | mk verdict t => cases verdict <;> exact ⟨rfl, rfl⟩

/-- The welcome is the last that is written before the connection is registered. -/
theorem enroll_eq : g.enroll options thread hook r c socket =
    match (g.letIn socket).1 with
    | .error refusal => (.refused refusal, r, (g.letIn socket).2)
    | .ok join =>
      match Connection.launch options thread with
      | .error failure => (.dropped failure.refusal, r, (g.letIn socket).2)
      | .ok _ =>
        match (hook.map fun observe => observe c join).getD .returned with
        | .returned => (.registered join, r.join join c, (g.letIn socket).2)
        | .panicked cause => (.dropped (.panicked cause), r, (g.letIn socket).2)
        | .stays => (.held join, r, (g.letIn socket).2) := by
  unfold enroll
  cases g.letIn socket with
  | mk verdict t => cases verdict <;> rfl

theorem snd_enroll : (g.enroll options thread hook r c socket).2.2 = (g.letIn socket).2 := by
  rw [enroll_eq]
  split
  · rfl
  · split
    · rfl
    · split <;> rfl

/-- A node that was let in is registered if its connection opens and the observer comes back. -/
theorem enroll_of_opens (h : (g.letIn socket).1 = .ok join) (hopens : options.Opens thread)
    (hreturns : ∀ observe, hook = some observe → observe c join = .returned) :
    g.enroll options thread hook r c socket =
      (.registered join, r.join join c, (g.letIn socket).2) := by
  have hhook : (hook.map fun observe => observe c join).getD .returned = .returned := by
    cases hook with
    | none => rfl
    | some observe => exact hreturns observe rfl
  simp only [enroll_eq, h, Connection.launch_eq_ok_iff.2 ⟨hopens, rfl⟩, hhook]

/-- Otherwise nobody is registered, though the node was welcomed. -/
theorem enroll_of_not_opens (h : (g.letIn socket).1 = .ok join)
    (hno : ¬ (options.Opens thread ∧
      ∀ observe, hook = some observe → observe c join = .returned)) :
    ∃ outcome, (∀ join', outcome ≠ .registered join') ∧
      g.enroll options thread hook r c socket = (outcome, r, (g.letIn socket).2) := by
  simp only [enroll_eq, h]
  cases hlaunch : Connection.launch options thread with
  | error failure => exact ⟨.dropped failure.refusal, fun _ => nofun, rfl⟩
  | ok d =>
    have hopens := (Connection.launch_eq_ok_iff.1 hlaunch).1
    cases hook with
    | none => exact absurd ⟨hopens, nofun⟩ hno
    | some observe =>
      dsimp only [Option.map, Option.getD]
      cases hsays : observe c join with
      | panicked cause => exact ⟨.dropped (.panicked cause), fun _ => nofun, rfl⟩
      | stays => exact ⟨.held join, fun _ => nofun, rfl⟩
      | returned => exact absurd ⟨hopens, fun _ hsome => Option.some.inj hsome ▸ hsays⟩ hno

end Gate

/-! ## The client -/

section Dial

variable {greeting : Message} {s : Socket} {options : ConnectionOptions}
  {writer reader : Except IoError Unit}

theorem dialConnection_eq : dialConnection greeting options writer reader s =
    match (dial greeting s).1 with
    | .error cause => .error (.failed cause)
    | .ok () =>
      match Connection.launch options writer, reader with
      | .error failure, _ => .error failure.dialFailure
      | .ok _, .error cause => .error (.failed (.connection (.io cause)))
      | .ok c, .ok () => .ok (c.startReading true) := by
  unfold dialConnection
  cases dial greeting s with
  | mk result t => cases result <;> rfl

/-- A client that was welcomed has a connection, which it reads from, if it can open one. -/
theorem dialConnection_of_opens (h : (dial greeting s).1 = .ok ()) (hopens : options.Opens writer)
    (hreader : reader = .ok ()) : dialConnection greeting options writer reader s =
      .ok ((Connection.new options).startReading true) := by
  simp only [dialConnection_eq, h, Connection.launch_eq_ok_iff.2 ⟨hopens, rfl⟩, hreader]

theorem dialConnection_of_not_opens (h : (dial greeting s).1 = .ok ())
    (hno : ¬ (options.Opens writer ∧ reader = .ok ())) :
    ∃ failure, dialConnection greeting options writer reader s = .error failure := by
  simp only [dialConnection_eq, h]
  cases hlaunch : Connection.launch options writer with
  | error failure => exact ⟨_, rfl⟩
  | ok d =>
    cases reader with
    | error cause => exact ⟨_, rfl⟩
    | ok _ => exact absurd ⟨(Connection.launch_eq_ok_iff.1 hlaunch).1, rfl⟩ hno

end Dial

end ClusterLink
