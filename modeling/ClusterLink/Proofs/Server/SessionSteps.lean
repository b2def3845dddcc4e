import ClusterLink.Registry.Calls
import ClusterLink.Server.Sessions
/-!
# The steps of the threads of a server

`SessionTable.Step` says everything that one step can do to what the threads of a server share: which
thread it moves on, which call the registry gets, what is noted and which connections are closed. An
invariant has to look at no more than that.

Results:
* `SessionTable.step_cases`: every step is one of these.
* `SessionTable.registry_of_step`: a step leaves the registry alone or makes one call to it.
-/
namespace ClusterLink

/-- The connections and the replicas of the node with an id. -/
def Registry.linksOf (r : Registry) (id : String) : List ConnectionId :=
  ((r.find? id).map fun n => n.connections ++ n.replicas).getD []

theorem Registry.fst_removeNode (r : Registry) (id : String) : (r.removeNode id).1 = r.find? id := by
  unfold removeNode
  split
  · next h => exact h.symm
  · next h => exact h.symm

namespace SessionTable

variable {t u : SessionTable} {e : SessionEvent}

/-- A list with one of its entries changed. -/
theorem getElem?_set_entry {α : Type} {l : List α} {i : Nat} {old : α} (hi : l[i]? = some old)
    (new : α) (j : Nat) : (l.set i new)[j]? = if j = i then some new else l[j]? := by
  obtain ⟨hlt, -⟩ := List.getElem?_eq_some_iff.1 hi
  rw [List.getElem?_set]
  by_cases hj : j = i
  · rw [if_pos hj, if_pos hj.symm, if_pos (hj ▸ hlt)]
  · rw [if_neg hj, if_neg (Ne.symm hj)]

theorem close_eq (t : SessionTable) (c : ConnectionId) :
    ∃ closed, t.close c = { t with closed } ∧ ∀ d, d ∈ closed ↔ d ∈ t.closed ∨ d = c := by
  unfold close
  split
  · next h => exact ⟨t.closed, rfl, fun d => ⟨Or.inl, fun hd => hd.elim (·) fun heq => heq ▸ h⟩⟩
  · exact ⟨t.closed ++ [c], rfl, fun d => by simp⟩

/-- What one step does to what the threads share. -/
inductive Step (t : SessionTable) : SessionEvent → SessionTable → Prop
  | accept : Step t .accept { t with sessions := t.sessions ++ [.accepted] }
  | look {i : Nat} (hi : t.sessions[i]? = some .accepted) :
    Step t (.session i .look) { t with
      sessions := t.sessions.set i (if t.isShutDown then .ended else .authenticating) }
  | refuse {i : Nat} (hi : t.sessions[i]? = some .authenticating) :
    Step t (.session i .refuse) { t with sessions := t.sessions.set i .ended }
  | letIn {i : Nat} {node : Joined} (hi : t.sessions[i]? = some .authenticating) :
    Step t (.session i (.letIn node)) { t with sessions := t.sessions.set i (.admitted node) }
  | register {i : Nat} {node : Joined} (hi : t.sessions[i]? = some (.admitted node)) :
    Step t (.session i .register) { t with
      registry := (t.registry.apply (.register node.nodeId node.role node.tags ⟨i⟩)).2
      sessions := t.sessions.set i (.registered node)
      registrations := t.registrations ++ [(⟨i⟩, node.nodeId)] }
  | lookAgain {i : Nat} {node : Joined} (hi : t.sessions[i]? = some (.registered node)) :
    Step t (.session i .lookAgain) { t with
      sessions := t.sessions.set i (if t.isShutDown then .tooLate node else .serving node) }
  | giveUp {i : Nat} {node : Joined} {closed : List ConnectionId}
    (hi : t.sessions[i]? = some (.tooLate node))
    (hclosed : ∀ d, d ∈ closed ↔ d ∈ t.closed ∨ d = ⟨i⟩) :
    Step t (.session i .giveUp) { t with
      sessions := t.sessions.set i (.serving node)
      closed }
  | stopServing {i : Nat} {node : Joined} {closed : List ConnectionId}
    (hi : t.sessions[i]? = some (.serving node))
    (hclosed : ∀ d, d ∈ closed ↔ d ∈ t.closed ∨ d = ⟨i⟩) :
    Step t (.session i .stopServing) { t with
      sessions := t.sessions.set i (.leaving node)
      closed }
  | remove {i : Nat} {node : Joined} (hi : t.sessions[i]? = some (.leaving node)) :
    Step t (.session i .remove) { t with
      registry := (t.registry.apply (.removeConnection node.nodeId ⟨i⟩)).2
      sessions := t.sessions.set i .ended }
  | hangUp {i : Nat} {stage : SessionStage} {closed : List ConnectionId}
    (hi : t.sessions[i]? = some stage) (hstage : stage.hasConnection = true)
    (hclosed : ∀ d, d ∈ closed ↔ d ∈ t.closed ∨ d = ⟨i⟩) :
    Step t (.hangUp i) { t with closed }
  | removeNode {id : String} :
    Step t (.removeNode id) { t with
      registry := (t.registry.apply (.removeNode id)).2
      takenOut := t.takenOut ++ t.registry.linksOf id }
  /-- The first call to shut down. -/
  | raise (h : t.isShutDown = false) :
    Step t .beginShutdown { t with
      isShutDown := true
      shutdowns := t.shutdowns ++ [.flagged] }
  /-- A further call to shut down. -/
  | raiseAgain (h : t.isShutDown = true) :
    Step t .beginShutdown { t with shutdowns := t.shutdowns ++ [.returned] }
  | snapshot {k : Nat} {order : List ConnectionId} (hk : t.shutdowns[k]? = some .flagged)
    (horder : order.Perm (t.registry.connections.map (·.2))) :
    Step t (.shutdown k (.snapshot order)) { t with
      shutdowns := t.shutdowns.set k (.closing order) }
  | closeNext {k : Nat} {c : ConnectionId} {left closed : List ConnectionId}
    (hk : t.shutdowns[k]? = some (.closing (c :: left)))
    (hclosed : ∀ d, d ∈ closed ↔ d ∈ t.closed ∨ d = c) :
    Step t (.shutdown k .closeNext) { t with
      shutdowns := t.shutdowns.set k (.closing left)
      closed }
  | finish {k : Nat} (hk : t.shutdowns[k]? = some (.closing [])) :
    Step t (.shutdown k .finish) { t with
      shutdowns := t.shutdowns.set k .returned
      hooks := t.hooks + 1 }

theorem stepSession_cases {i : Nat} {stage : SessionStage} {a : SessionAction}
    (hi : t.sessions[i]? = some stage) (h : t.stepSession i stage a = some u) :
    t.Step (.session i a) u := by
  unfold stepSession at h
  split at h
  · cases h
    exact .look hi
  · cases h
    exact .refuse hi
  · cases h
    exact .letIn hi
  · cases h
    exact .register hi
  · cases h
    exact .lookAgain hi
  · next node =>
    cases h
    obtain ⟨closed, heq, hclosed⟩ := (t.setSession i (.serving node)).close_eq ⟨i⟩
    rw [heq]
    exact .giveUp hi hclosed
  · next node =>
    cases h
    obtain ⟨closed, heq, hclosed⟩ := (t.setSession i (.leaving node)).close_eq ⟨i⟩
    rw [heq]
    exact .stopServing hi hclosed
  · cases h
    exact .remove hi
  · cases h

theorem stepShutdown_cases {k : Nat} {stage : ShutdownStage} {a : ShutdownAction}
    (hk : t.shutdowns[k]? = some stage) (h : t.stepShutdown k stage a = some u) :
    t.Step (.shutdown k a) u := by
  unfold stepShutdown at h
  split at h
  · split at h
    · next horder =>
      cases h
      exact .snapshot hk horder
    · cases h
  · next c left =>
    cases h
    obtain ⟨closed, heq, hclosed⟩ := (t.setShutdown k (.closing left)).close_eq c
    rw [heq]
    exact .closeNext hk hclosed
  · cases h
    exact .finish hk
  · cases h

/-- **What a step does.** -/
theorem step_cases (h : t.step e = some u) : t.Step e u := by
  cases e with
  | accept =>
    cases h
    exact .accept
  | session i a =>
    obtain ⟨stage, hi, hstep⟩ := Option.bind_eq_some_iff.1 h
    exact stepSession_cases hi hstep
  | hangUp i =>
    obtain ⟨stage, hi, hstep⟩ := Option.bind_eq_some_iff.1 h
    split at hstep
    · next hstage =>
      cases hstep
      obtain ⟨closed, heq, hclosed⟩ := t.close_eq ⟨i⟩
      rw [heq]
      exact .hangUp hi hstage hclosed
    · cases hstep
  | removeNode id =>
    cases h
    have heq : t.removeNode id = { t with
        registry := (t.registry.apply (.removeNode id)).2
        takenOut := t.takenOut ++ t.registry.linksOf id } := by
      rw [Registry.linksOf, ← Registry.fst_removeNode]
      rfl
    rw [heq]
    exact .removeNode
  | beginShutdown =>
    simp only [step] at h
    split at h
    · next hshut =>
      cases h
      exact .raiseAgain hshut
    · next hshut =>
      cases h
      exact .raise (eq_false_of_ne_true hshut)
  | shutdown k a =>
    obtain ⟨stage, hk, hstep⟩ := Option.bind_eq_some_iff.1 h
    exact stepShutdown_cases hk hstep

/-- A step leaves the registry alone or makes one call to it. -/
theorem registry_of_step (h : t.Step e u) :
    u.registry = t.registry ∨ ∃ call, u.registry = (t.registry.apply call).2 := by
  cases h with
  | register hi => exact Or.inr ⟨_, rfl⟩
  | remove hi => exact Or.inr ⟨_, rfl⟩
  | removeNode => exact Or.inr ⟨_, rfl⟩
  | _ => exact Or.inl rfl

end SessionTable

end ClusterLink
