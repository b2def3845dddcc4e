import ClusterLink.Proofs.Registry.Indexes
import ClusterLink.Proofs.Server.SessionSteps
/-!
# Membership follows the sockets

A thread registers the connection of its socket and takes it out again when its read loop is over. In
between, other threads do the same, also for the same node, and somebody may take the node out
altogether. The connections of a node are always those of the threads that are between these two
steps, in the order in which they were registered, less those that were taken out with their node.

Results:
* `SessionTable.Membership.reachable`: what the registry says of the connections, in every state.
* `SessionTable.created`: every node has the role and the tags of the join that created it.
* `SessionTable.membership_follows_the_sockets`: who is registered while nobody takes a node out.
-/
namespace ClusterLink

namespace Registry

variable {r : Registry} {call : Call} {id : String} {c : ConnectionId}

/-- The connections of the node with an id. -/
def connectionsOf (r : Registry) (id : String) : List ConnectionId :=
  ((r.find? id).map (·.connections)).getD []

/-- Every node has connections, and none has replicas. -/
def Peopled (r : Registry) : Prop :=
  ∀ id n, r.find? id = some n → n.connections ≠ [] ∧ n.replicas = []

theorem connectionsOf_of_find? {n : Node} (hn : r.find? id = some n) :
    r.connectionsOf id = n.connections := by
  rw [connectionsOf, hn, Option.map_some, Option.getD_some]

theorem mem_connectionsOf : c ∈ r.connectionsOf id ↔ ∃ n, r.find? id = some n ∧ c ∈ n.connections := by
  cases hn : r.find? id with
  | none => simp [connectionsOf, hn]
  | some n => simp [connectionsOf, hn]

theorem Peopled.find?_eq_none_iff (h : r.Peopled) : r.find? id = none ↔ r.connectionsOf id = [] := by
  cases hn : r.find? id with
  | none => simp [connectionsOf, hn]
  | some n =>
    rw [connectionsOf_of_find? hn]
    simpa using (h id n hn).1

theorem Peopled.linksOf_eq (h : r.Peopled) (id : String) : r.linksOf id = r.connectionsOf id := by
  cases hn : r.find? id with
  | none => simp [linksOf, connectionsOf, hn]
  | some n => simp [linksOf, connectionsOf, hn, (h id n hn).2]

theorem connectionsOf_apply_of_ne (h : id ≠ call.id) :
    (r.apply call).2.connectionsOf id = r.connectionsOf id := by
  rw [connectionsOf, find?_apply_of_ne r h, connectionsOf]

theorem connectionsOf_register (role : Role) (tags : List String) (hc : c ∉ r.connectionsOf id) :
    (r.apply (.register id role tags c)).2.connectionsOf id = r.connectionsOf id ++ [c] := by
  have hnode : ((r.find? id).getD { id, role, tags }).connections = r.connectionsOf id := by
    cases hn : r.find? id with
    | none => simp [connectionsOf, hn]
    | some n => simp [connectionsOf, hn]
  have hfind := find?_apply_self r (.register id role tags c)
  change (r.apply (.register id role tags c)).2.find? id =
    some (((r.find? id).getD { id, role, tags }).attach c) at hfind
  rw [connectionsOf_of_find? hfind, Node.connections_attach, hnode, if_neg hc]

theorem connectionsOf_removeNode : (r.apply (.removeNode id)).2.connectionsOf id = [] := by
  have hfind := find?_apply_self r (.removeNode id)
  change (r.apply (.removeNode id)).2.find? id = none at hfind
  rw [connectionsOf, hfind, Option.map_none, Option.getD_none]

theorem connectionsOf_removeConnection :
    (r.apply (.removeConnection id c)).2.connectionsOf id =
      (r.connectionsOf id).filter (· ≠ c) := by
  have hfind := find?_apply_self r (.removeConnection id c)
  change (r.apply (.removeConnection id c)).2.find? id =
    (r.find? id).bind fun n => if (n.detach c).isBare then none else some (n.detach c) at hfind
  rw [connectionsOf, hfind]
  cases hn : r.find? id with
  | none => simp [connectionsOf, hn]
  | some n =>
    rw [connectionsOf_of_find? hn, Option.bind_some]
    split
    · next hbare => exact (((n.detach c).isBare_iff).1 hbare).1.symm
    · rfl

/-- Calls of threads and taking nodes out keep a registry peopled. -/
theorem Peopled.apply (h : r.Peopled) (hcall : (∃ id role tags c, call = .register id role tags c) ∨
    (∃ id c, call = .removeConnection id c) ∨ ∃ id, call = .removeNode id) :
    (r.apply call).2.Peopled := by
  intro id m hm
  by_cases hid : id = call.id
  · subst hid
    have hnotBare : m.isBare = false := by
      rw [find?_apply_self] at hm
      refine isBare_effect ?_ hm
      rintro id role tags rfl
      simp at hcall
    have hreplicas : m.replicas = [] := by
      rw [find?_apply_self] at hm
      obtain ⟨id, role, tags, c, rfl⟩ | ⟨id, c, rfl⟩ | ⟨id, rfl⟩ := hcall
      · cases hm
        rw [Node.replicas_attach]
        cases hn : r.find? (Call.register id role tags c).id with
        | none => rfl
        | some n => exact (h _ n hn).2
      · obtain ⟨n, hn, hm⟩ := Option.bind_eq_some_iff.1 hm
        split at hm
        · cases hm
        · cases hm
          simp [Node.detach, (h _ n hn).2]
      · cases hm
    refine ⟨fun hnone => ?_, hreplicas⟩
    rw [m.isBare_iff.2 ⟨hnone, hreplicas⟩] at hnotBare
    cases hnotBare
  · rw [find?_apply_of_ne r hid] at hm
    exact h id m hm

end Registry

namespace SessionStage

/-- The node of a socket whose connection is in the registry as far as its thread is concerned. -/
def memberAt (sessions : List SessionStage) (i : Nat) : Option Joined :=
  sessions[i]?.bind member?

/-- Whether the connection was registered, or will never be. -/
def isPastRegistration : SessionStage → Bool
  | registered _ | tooLate _ | serving _ | leaving _ | ended => true
  | _ => false

variable {sessions : List SessionStage} {old : SessionStage} {i : Nat}

theorem memberAt_set (hi : sessions[i]? = some old) (new : SessionStage) (j : Nat) :
    memberAt (sessions.set i new) j = if j = i then new.member? else memberAt sessions j := by
  rw [memberAt, SessionTable.getElem?_set_entry hi]
  split
  · rw [Option.bind_some]
  · rw [memberAt]

theorem memberAt_set_of_eq (hi : sessions[i]? = some old) {new : SessionStage}
    (h : new.member? = old.member?) (j : Nat) :
    memberAt (sessions.set i new) j = memberAt sessions j := by
  rw [memberAt_set hi]
  split
  · next hj => rw [hj, memberAt, hi, Option.bind_some, h]
  · rfl

theorem memberAt_append (j : Nat) : memberAt (sessions ++ [.accepted]) j = memberAt sessions j := by
  rw [memberAt, memberAt, List.getElem?_append]
  split
  · rfl
  · next hj =>
    rw [List.getElem?_eq_none (Nat.le_of_not_lt hj)]
    cases hk : [SessionStage.accepted][j - sessions.length]? with
    | none => rfl
    | some stage =>
      rw [List.mem_singleton.1 (List.mem_of_getElem? hk)]
      rfl

end SessionStage

namespace SessionTable

open SessionStage (memberAt)

variable {t u : SessionTable} {e : SessionEvent} {i : Nat} {id : String} {c : ConnectionId}

/-- The connections of the threads that registered as a node and did not take theirs out yet, in the
order in which they were registered. -/
def socketsOf (t : SessionTable) (id : String) : List ConnectionId :=
  (t.registrations.filter fun (c, node) =>
    node = id && (memberAt t.sessions c.number).isSome).map (·.1)

/-- Those of them that were not taken out with their node. -/
def present (t : SessionTable) (id : String) : List ConnectionId :=
  (t.socketsOf id).filter (· ∉ t.takenOut)

theorem mem_socketsOf : c ∈ t.socketsOf id ↔
    (c, id) ∈ t.registrations ∧ ∃ node, memberAt t.sessions c.number = some node := by
  simp only [socketsOf, List.mem_map, List.mem_filter, Bool.and_eq_true, decide_eq_true_eq,
    Option.isSome_iff_exists]
  constructor
  · rintro ⟨⟨d, node⟩, ⟨hmem, rfl, hd⟩, rfl⟩
    exact ⟨hmem, hd⟩
  · rintro ⟨hmem, hd⟩
    exact ⟨(c, id), ⟨hmem, rfl, hd⟩, rfl⟩

/-! ## What a step does to the membership -/

/-- What one step does to the registry, to what is noted of it and to the threads in between. -/
inductive Turn (t u : SessionTable) : SessionEvent → Prop
  | keep {e : SessionEvent} (registry : u.registry = t.registry)
    (registrations : u.registrations = t.registrations) (takenOut : u.takenOut = t.takenOut)
    (members : ∀ j, memberAt u.sessions j = memberAt t.sessions j) : Turn t u e
  | join {i : Nat} {node : Joined} (hi : t.sessions[i]? = some (.admitted node))
    (registry : u.registry =
      (t.registry.apply (.register node.nodeId node.role node.tags ⟨i⟩)).2)
    (registrations : u.registrations = t.registrations ++ [(⟨i⟩, node.nodeId)])
    (takenOut : u.takenOut = t.takenOut)
    (members : ∀ j, memberAt u.sessions j = if j = i then some node else memberAt t.sessions j) :
    Turn t u (.session i .register)
  | leave {i : Nat} {node : Joined} (hi : t.sessions[i]? = some (.leaving node))
    (registry : u.registry = (t.registry.apply (.removeConnection node.nodeId ⟨i⟩)).2)
    (registrations : u.registrations = t.registrations) (takenOut : u.takenOut = t.takenOut)
    (members : ∀ j, memberAt u.sessions j = if j = i then none else memberAt t.sessions j) :
    Turn t u (.session i .remove)
  | takeOut {id : String} (registry : u.registry = (t.registry.apply (.removeNode id)).2)
    (registrations : u.registrations = t.registrations)
    (takenOut : u.takenOut = t.takenOut ++ t.registry.linksOf id)
    (sessions : u.sessions = t.sessions) : Turn t u (.removeNode id)

theorem turn_of_step (h : t.Step e u) : t.Turn u e := by
  cases h with
  | accept => exact .keep rfl rfl rfl SessionStage.memberAt_append
  | look hi =>
    refine .keep rfl rfl rfl (SessionStage.memberAt_set_of_eq hi ?_)
    split <;> rfl
  | refuse hi => exact .keep rfl rfl rfl (SessionStage.memberAt_set_of_eq hi rfl)
  | letIn hi => exact .keep rfl rfl rfl (SessionStage.memberAt_set_of_eq hi rfl)
  | register hi => exact .join hi rfl rfl rfl (SessionStage.memberAt_set hi _)
  | lookAgain hi =>
    refine .keep rfl rfl rfl (SessionStage.memberAt_set_of_eq hi ?_)
    split <;> rfl
  | giveUp hi hclosed => exact .keep rfl rfl rfl (SessionStage.memberAt_set_of_eq hi rfl)
  | stopServing hi hclosed => exact .keep rfl rfl rfl (SessionStage.memberAt_set_of_eq hi rfl)
  | remove hi => exact .leave hi rfl rfl rfl (SessionStage.memberAt_set hi _)
  | removeNode => exact .takeOut rfl rfl rfl rfl
  | _ => exact .keep rfl rfl rfl fun j => rfl

/-- Whether the thread of a socket has registered its connection, or never will. -/
def IsPast (t : SessionTable) (i : Nat) : Prop :=
  ∃ stage, t.sessions[i]? = some stage ∧ stage.isPastRegistration = true

theorem IsPast.set {old new : SessionStage} (hi : t.sessions[i]? = some old)
    (h : old.isPastRegistration = true → new.isPastRegistration = true) {j : Nat}
    (hj : t.IsPast j) : ∃ stage, (t.sessions.set i new)[j]? = some stage ∧
      stage.isPastRegistration = true := by
  obtain ⟨stage, hstage, hpast⟩ := hj
  rw [getElem?_set_entry hi]
  split
  · next hji =>
    subst hji
    rw [hi] at hstage
    cases hstage
    exact ⟨new, rfl, h hpast⟩
  · exact ⟨stage, hstage, hpast⟩

theorem IsPast.step (h : t.Step e u) {j : Nat} (hj : t.IsPast j) : u.IsPast j := by
  cases h with
  | accept =>
    obtain ⟨stage, hstage, hpast⟩ := hj
    obtain ⟨hlt, -⟩ := List.getElem?_eq_some_iff.1 hstage
    exact ⟨stage, (List.getElem?_append_left hlt).trans hstage, hpast⟩
  | look hi => exact hj.set hi nofun
  | refuse hi => exact hj.set hi nofun
  | letIn hi => exact hj.set hi nofun
  | register hi => exact hj.set hi nofun
  | lookAgain hi =>
    refine hj.set hi fun _ => ?_
    split <;> rfl
  | giveUp hi hclosed => exact hj.set hi fun _ => rfl
  | stopServing hi hclosed => exact hj.set hi fun _ => rfl
  | remove hi => exact hj.set hi fun _ => rfl
  | _ => exact hj

/-! ## The connections in the registry -/

/-- What the registry says of the connections. -/
structure Membership (t : SessionTable) : Prop where
  indexed : t.registry.Indexed
  peopled : t.registry.Peopled
  noted_once : (t.registrations.map (·.1)).Nodup
  noted : ∀ i node, memberAt t.sessions i = some node → (⟨i⟩, node.nodeId) ∈ t.registrations
  past : ∀ c id, (c, id) ∈ t.registrations → t.IsPast c.number
  taken : ∀ c ∈ t.takenOut, ∃ id, (c, id) ∈ t.registrations
  /-- The registry knows the connections that are there, and no others. -/
  connections : ∀ id, t.registry.connectionsOf id = t.present id

theorem mem_present : c ∈ t.present id ↔ c ∈ t.socketsOf id ∧ c ∉ t.takenOut := by
  simp [present]

theorem socketsOf_keep (hregistrations : u.registrations = t.registrations)
    (hmembers : ∀ j, memberAt u.sessions j = memberAt t.sessions j) (id : String) :
    u.socketsOf id = t.socketsOf id := by
  simp only [socketsOf, hregistrations, hmembers]

theorem socketsOf_leave (hregistrations : u.registrations = t.registrations)
    (hmembers : ∀ j, memberAt u.sessions j = if j = i then none else memberAt t.sessions j)
    (id : String) : u.socketsOf id = (t.socketsOf id).filter (· ≠ ⟨i⟩) := by
  simp only [socketsOf, hregistrations, List.filter_map, List.filter_filter]
  congr 1
  apply List.filter_congr
  rintro ⟨⟨j⟩, node⟩ -
  rw [hmembers]
  by_cases hj : j = i
  · simp [hj]
  · simp [hj]

namespace Membership

/-- A thread that has not come to registering is not noted. -/
theorem not_noted (h : Membership t) {stage : SessionStage} (hi : t.sessions[i]? = some stage)
    (hearly : stage.isPastRegistration = false) :
    ∀ id, ((⟨i⟩ : ConnectionId), id) ∉ t.registrations := by
  intro id hmem
  obtain ⟨stage', hi', hpast⟩ := h.past ⟨i⟩ id hmem
  rw [hi] at hi'
  cases hi'
  rw [hearly] at hpast
  cases hpast

/-- A connection is registered under one id only. -/
theorem noted_unique (h : Membership t) {other : String} (hc : (c, id) ∈ t.registrations)
    (hc' : (c, other) ∈ t.registrations) : other = id :=
  congrArg Prod.snd (List.inj_on_of_nodup_map h.noted_once hc' hc rfl)

theorem socketsOf_join (h : Membership t) {node : Joined}
    (hi : t.sessions[i]? = some (.admitted node))
    (hregistrations : u.registrations = t.registrations ++ [(⟨i⟩, node.nodeId)])
    (hmembers : ∀ j, memberAt u.sessions j = if j = i then some node else memberAt t.sessions j)
    (id : String) :
    u.socketsOf id = t.socketsOf id ++ if id = node.nodeId then [⟨i⟩] else [] := by
  simp only [socketsOf, hregistrations, List.filter_append, List.map_append]
  congr 1
  · congr 1
    apply List.filter_congr
    rintro ⟨⟨j⟩, other⟩ hmem
    have hj : j ≠ i := by
      rintro rfl
      exact h.not_noted hi rfl other hmem
    rw [hmembers, if_neg hj]
  · by_cases hid : id = node.nodeId
    · simp [hid, hmembers]
    · simp [hid, Ne.symm hid]

theorem start : Membership {} where
  indexed := .empty
  peopled := nofun
  noted_once := List.nodup_nil
  noted := by
    intro i node hi
    simp [memberAt] at hi
  past := nofun
  taken := nofun
  connections := fun id => rfl

theorem keep (h : Membership t) (hpast : ∀ j, t.IsPast j → u.IsPast j)
    (hregistry : u.registry = t.registry) (hregistrations : u.registrations = t.registrations)
    (htakenOut : u.takenOut = t.takenOut)
    (hmembers : ∀ j, memberAt u.sessions j = memberAt t.sessions j) : Membership u where
  indexed := hregistry ▸ h.indexed
  peopled := hregistry ▸ h.peopled
  noted_once := hregistrations ▸ h.noted_once
  noted := by
    intro i node hi
    rw [hmembers] at hi
    exact hregistrations ▸ h.noted i node hi
  past := by
    intro c id hc
    rw [hregistrations] at hc
    exact hpast _ (h.past c id hc)
  taken := by
    intro c hc
    rw [htakenOut] at hc
    exact hregistrations ▸ h.taken c hc
  connections := by
    intro id
    rw [hregistry, h.connections, present, present, htakenOut,
      socketsOf_keep hregistrations hmembers]

theorem isPast_of_member {node : Joined} (hi : memberAt t.sessions i = some node) : t.IsPast i := by
  obtain ⟨stage, hstage, hmember⟩ := Option.bind_eq_some_iff.1 hi
  refine ⟨stage, hstage, ?_⟩
  cases stage with
  | accepted => cases hmember
  | authenticating => cases hmember
  | admitted node => cases hmember
  | _ => rfl

theorem present_join (h : Membership t) {node : Joined}
    (hi : t.sessions[i]? = some (.admitted node))
    (hregistrations : u.registrations = t.registrations ++ [(⟨i⟩, node.nodeId)])
    (htakenOut : u.takenOut = t.takenOut)
    (hmembers : ∀ j, memberAt u.sessions j = if j = i then some node else memberAt t.sessions j)
    (id : String) : u.present id = t.present id ++ if id = node.nodeId then [⟨i⟩] else [] := by
  -- What was taken out was registered before, and a thread registers once.
  have hnew : (⟨i⟩ : ConnectionId) ∉ t.takenOut := by
    intro hmem
    obtain ⟨other, hother⟩ := h.taken _ hmem
    exact h.not_noted hi rfl other hother
  rw [present, present, h.socketsOf_join hi hregistrations hmembers, htakenOut, List.filter_append]
  congr 1
  split
  · simp [hnew]
  · rfl

theorem join (h : Membership t) (hpast : ∀ j, t.IsPast j → u.IsPast j) {node : Joined}
    (hi : t.sessions[i]? = some (.admitted node))
    (hregistry : u.registry =
      (t.registry.apply (.register node.nodeId node.role node.tags ⟨i⟩)).2)
    (hregistrations : u.registrations = t.registrations ++ [(⟨i⟩, node.nodeId)])
    (htakenOut : u.takenOut = t.takenOut)
    (hmembers : ∀ j, memberAt u.sessions j = if j = i then some node else memberAt t.sessions j) :
    Membership u where
  indexed := hregistry ▸ h.indexed.apply _
  peopled := hregistry ▸ h.peopled.apply (Or.inl ⟨_, _, _, _, rfl⟩)
  noted_once := by
    rw [hregistrations, List.map_append]
    apply nodup_append_new h.noted_once
    intro hmem
    obtain ⟨⟨c, id⟩, hc, rfl⟩ := List.mem_map.1 hmem
    exact h.not_noted hi rfl id hc
  noted := by
    intro j node' hj
    rw [hregistrations]
    rw [hmembers] at hj
    split at hj
    · next heq =>
      cases hj
      rw [heq]
      exact List.mem_append_right _ List.mem_cons_self
    · exact List.mem_append_left _ (h.noted j node' hj)
  past := by
    intro c id hc
    rw [hregistrations] at hc
    rcases List.mem_append.1 hc with hc | hc
    · exact hpast _ (h.past c id hc)
    · cases List.mem_singleton.1 hc
      exact isPast_of_member ((hmembers i).trans (if_pos rfl))
  taken := by
    intro c hc
    rw [htakenOut] at hc
    obtain ⟨id, hid⟩ := h.taken c hc
    exact ⟨id, hregistrations ▸ List.mem_append_left _ hid⟩
  connections := by
    intro id
    rw [hregistry, h.present_join hi hregistrations htakenOut hmembers]
    split
    · next hid =>
      subst hid
      rw [Registry.connectionsOf_register, h.connections]
      rw [h.connections]
      intro hmem
      exact h.not_noted hi rfl _ (mem_socketsOf.1 (mem_present.1 hmem).1).1
    · next hid => rw [Registry.connectionsOf_apply_of_ne hid, h.connections, List.append_nil]

theorem leave (h : Membership t) (hpast : ∀ j, t.IsPast j → u.IsPast j) {node : Joined}
    (hi : t.sessions[i]? = some (.leaving node))
    (hregistry : u.registry = (t.registry.apply (.removeConnection node.nodeId ⟨i⟩)).2)
    (hregistrations : u.registrations = t.registrations) (htakenOut : u.takenOut = t.takenOut)
    (hmembers : ∀ j, memberAt u.sessions j = if j = i then none else memberAt t.sessions j) :
    Membership u where
  indexed := hregistry ▸ h.indexed.apply _
  peopled := hregistry ▸ h.peopled.apply (Or.inr (Or.inl ⟨_, _, rfl⟩))
  noted_once := hregistrations ▸ h.noted_once
  noted := by
    intro j node' hj
    rw [hmembers] at hj
    split at hj
    · cases hj
    · exact hregistrations ▸ h.noted j node' hj
  past := by
    intro c id hc
    rw [hregistrations] at hc
    exact hpast _ (h.past c id hc)
  taken := by
    intro c hc
    rw [htakenOut] at hc
    exact hregistrations ▸ h.taken c hc
  connections := by
    intro id
    have hpresent : u.present id = (t.present id).filter (· ≠ ⟨i⟩) := by
      rw [present, present, htakenOut, socketsOf_leave hregistrations hmembers, List.filter_filter,
        List.filter_filter]
      simp only [Bool.and_comm]
    rw [hregistry, hpresent, ← h.connections]
    by_cases hid : id = node.nodeId
    · subst hid
      exact Registry.connectionsOf_removeConnection
    · -- Another node does not have the connection, as it is noted under one id only.
      rw [Registry.connectionsOf_apply_of_ne hid]
      refine (List.filter_eq_self.2 fun c hc => decide_eq_true ?_).symm
      rintro rfl
      rw [h.connections] at hc
      have hnode := h.noted i node (by rw [memberAt, hi]; rfl)
      exact hid (h.noted_unique hnode (mem_socketsOf.1 (mem_present.1 hc).1).1)

theorem takeOut (h : Membership t) (hpast : ∀ j, t.IsPast j → u.IsPast j)
    (hregistry : u.registry = (t.registry.apply (.removeNode id)).2)
    (hregistrations : u.registrations = t.registrations)
    (htakenOut : u.takenOut = t.takenOut ++ t.registry.linksOf id)
    (hsessions : u.sessions = t.sessions) : Membership u where
  indexed := hregistry ▸ h.indexed.apply _
  peopled := hregistry ▸ h.peopled.apply (Or.inr (Or.inr ⟨_, rfl⟩))
  noted_once := hregistrations ▸ h.noted_once
  noted := by
    intro j node hj
    rw [hsessions] at hj
    exact hregistrations ▸ h.noted j node hj
  past := by
    intro c other hc
    rw [hregistrations] at hc
    exact hpast _ (h.past c other hc)
  taken := by
    intro c hc
    rw [hregistrations]
    rw [htakenOut, h.peopled.linksOf_eq, h.connections] at hc
    rcases List.mem_append.1 hc with hc | hc
    · exact h.taken c hc
    · exact ⟨id, (mem_socketsOf.1 (mem_present.1 hc).1).1⟩
  connections := by
    intro other
    have hsockets : u.socketsOf other = t.socketsOf other :=
      socketsOf_keep hregistrations (fun j => by rw [hsessions]) other
    rw [hregistry, present, hsockets, htakenOut, h.peopled.linksOf_eq, h.connections id]
    by_cases hid : other = id
    · -- All that was there of the node is noted as taken out now.
      subst hid
      refine (Registry.connectionsOf_removeNode).trans (List.filter_eq_nil_iff.2 ?_).symm
      intro c hc
      rw [decide_eq_true_eq, not_not, List.mem_append, mem_present]
      by_cases hgone : c ∈ t.takenOut
      · exact Or.inl hgone
      · exact Or.inr ⟨hc, hgone⟩
    · rw [Registry.connectionsOf_apply_of_ne hid, h.connections, present]
      apply List.filter_congr
      intro c hc
      have hother : c ∉ t.present id := by
        intro hmem
        exact hid (h.noted_unique (mem_socketsOf.1 (mem_present.1 hmem).1).1 (mem_socketsOf.1 hc).1)
      simp [hother]

theorem step (h : Membership t) (hs : t.Step e u) : Membership u := by
  have hpast : ∀ j, t.IsPast j → u.IsPast j := fun j => IsPast.step hs
  cases turn_of_step hs with
  | keep registry registrations takenOut members =>
    exact h.keep hpast registry registrations takenOut members
  | join hi registry registrations takenOut members =>
    exact h.join hpast hi registry registrations takenOut members
  | leave hi registry registrations takenOut members =>
    exact h.leave hpast hi registry registrations takenOut members
  | takeOut registry registrations takenOut sessions =>
    exact h.takeOut hpast registry registrations takenOut sessions

theorem reachable (h : machine.Reachable t) : Membership t :=
  Machine.invariant start (fun _ _ _ ht hs => ht.step (step_cases hs)) h

theorem mem_socketsOf_iff (h : Membership t) : c ∈ t.socketsOf id ↔
    ∃ node, memberAt t.sessions c.number = some node ∧ node.nodeId = id := by
  rw [mem_socketsOf]
  constructor
  · rintro ⟨hnoted, node, hmember⟩
    exact ⟨node, hmember, h.noted_unique hnoted (h.noted c.number node hmember)⟩
  · rintro ⟨node, hmember, rfl⟩
    exact ⟨h.noted c.number node hmember, node, hmember⟩

theorem connections_eq_socketsOf (h : Membership t) (hgone : t.takenOut = []) (id : String) :
    t.registry.connectionsOf id = t.socketsOf id := by
  simp [h.connections, present, hgone]

/-- Where nothing was taken out, a node is there exactly if it has a socket. -/
theorem contains_iff (h : Membership t) (hgone : t.takenOut = []) : t.registry.contains id = true ↔
    ∃ i node, memberAt t.sessions i = some node ∧ node.nodeId = id := by
  rw [← Bool.not_eq_false, Registry.contains_eq_false_iff, h.peopled.find?_eq_none_iff,
    h.connections_eq_socketsOf hgone, List.eq_nil_iff_forall_not_mem]
  push Not
  constructor
  · rintro ⟨c, hc⟩
    obtain ⟨node, hmember, hid⟩ := h.mem_socketsOf_iff.1 hc
    exact ⟨c.number, node, hmember, hid⟩
  · rintro ⟨i, node, hmember, hid⟩
    exact ⟨⟨i⟩, h.mem_socketsOf_iff.2 ⟨node, hmember, hid⟩⟩

theorem connections_eq (h : Membership t) (hgone : t.takenOut = []) {n : Node}
    (hn : t.registry.find? id = some n) : n.connections = t.socketsOf id := by
  rw [← Registry.connectionsOf_of_find? hn, h.connections_eq_socketsOf hgone]

theorem find?_of_member (h : Membership t) {node : Joined}
    (hmember : memberAt t.sessions i = some node) (hkept : ⟨i⟩ ∉ t.takenOut) :
    ∃ n, t.registry.find? node.nodeId = some n ∧ ⟨i⟩ ∈ n.connections := by
  apply Registry.mem_connectionsOf.1
  rw [h.connections]
  exact mem_present.2 ⟨h.mem_socketsOf_iff.2 ⟨node, hmember, rfl⟩, hkept⟩

/-- When all sockets have ended, nothing is left. -/
theorem registry_eq_empty (h : Membership t) (hgone : t.takenOut = [])
    (hended : ∀ stage ∈ t.sessions, stage = .ended) : t.registry = {} := by
  apply h.indexed.eq_empty
  intro id
  rw [← Registry.contains_eq_false_iff, ← Bool.not_eq_true, h.contains_iff hgone]
  rintro ⟨i, node, hmember, -⟩
  obtain ⟨stage, hstage, hnode⟩ := Option.bind_eq_some_iff.1 hmember
  rw [hended stage (List.mem_of_getElem? hstage)] at hnode
  cases hnode

/-- A disconnect takes no connection away but its own. -/
theorem kept_of_remove (h : Membership t) (hgone : t.takenOut = [])
    (hs : t.Step (.session i .remove) u) {j : Nat} {node : Joined} (hj : j ≠ i)
    (hmember : memberAt t.sessions j = some node) :
    ∃ n, u.registry.find? node.nodeId = some n ∧ ⟨j⟩ ∈ n.connections := by
  cases hs with
  | remove hi =>
    refine (h.step (.remove hi)).find?_of_member ?_ (by simp [hgone])
    exact (SessionStage.memberAt_set hi _ j).trans ((if_neg hj).trans hmember)

end Membership

/-! ## While nobody takes a node out -/

theorem takenOut_eq_nil {events : List SessionEvent}
    (hrun : machine.run machine.start events = some t) (hnever : ∀ id, .removeNode id ∉ events) :
    t.takenOut = [] := by
  refine @Machine.run_induction _ _ machine
    (fun events t => (∀ id, .removeNode id ∉ events) → t.takenOut = []) machine.start t
    (fun _ => rfl) ?_ events hrun hnever
  rintro done u e v - hinv hs hnever
  have hu := hinv fun id hid => hnever id (List.mem_append_left _ hid)
  cases turn_of_step (step_cases hs) with
  | keep registry registrations takenOut members => exact takenOut.trans hu
  | join hi registry registrations takenOut members => exact takenOut.trans hu
  | leave hi registry registrations takenOut members => exact takenOut.trans hu
  | @takeOut id registry registrations takenOut sessions =>
    exact absurd (List.mem_append_right _ List.mem_cons_self) (hnever id)

/-- The join of some thread created the node of an id with a role and tags: there was none before it,
and there has been one since. -/
def CreatedIn (events : List SessionEvent) (id : String) (role : Role) (tags : List String) : Prop :=
  ∃ before i later s u, events = before ++ .session i .register :: later ∧
    machine.run machine.start before = some s ∧
    s.sessions[i]? = some (.admitted ⟨id, role, tags⟩) ∧ s.registry.contains id = false ∧
    machine.step s (.session i .register) = some u ∧
    machine.Along (fun v => v.registry.contains id = true) u later

/-- A step that creates a node is the join of a thread under its id. -/
theorem joined_of_created (h : t.Step e u) {n : Node} (hnone : t.registry.find? id = none)
    (hn : u.registry.find? id = some n) :
    ∃ i, e = .session i .register ∧ t.sessions[i]? = some (.admitted ⟨id, n.role, n.tags⟩) := by
  cases turn_of_step h with
  | keep registry registrations takenOut members =>
    rw [registry, hnone] at hn
    cases hn
  | @join i node hi registry registrations takenOut members =>
    rw [registry] at hn
    obtain ⟨hid, hprofile⟩ := Registry.profile?_of_created hnone hn
    obtain ⟨nodeId, role, tags⟩ := node
    cases hid
    cases hprofile
    exact ⟨i, rfl, hi⟩
  | leave hi registry registrations takenOut members =>
    rw [registry] at hn
    cases (Registry.profile?_of_created hnone hn).2
  | takeOut registry registrations takenOut sessions =>
    rw [registry] at hn
    cases (Registry.profile?_of_created hnone hn).2

/-- **Every node has the role and the tags of the join that created it.** -/
theorem created {events : List SessionEvent} (hrun : machine.run machine.start events = some t)
    {n : Node} (hn : t.registry.find? id = some n) : CreatedIn events id n.role n.tags := by
  have hstart : ¬ machine.start.registry.contains id = true := Bool.false_ne_true
  obtain ⟨before, e, later, s, u, hsplit, hs, hnot, hu, hlater, hall⟩ :=
    Machine.onset (P := fun t => t.registry.contains id = true) hstart hrun
      (Registry.contains_iff.2 ⟨n, hn⟩)
  have hnone := eq_false_of_ne_true hnot
  obtain ⟨m, hm⟩ := Registry.contains_iff.1 hall.head
  obtain ⟨hrole, htags⟩ := Registry.profile_along
    (fun _ _ _ hstep => registry_of_step (step_cases hstep)) hall hlater hm hn
  obtain ⟨i, rfl, hi⟩ :=
    joined_of_created (step_cases hu) (Registry.contains_eq_false_iff.1 hnone) hm
  rw [hrole, htags]
  exact ⟨before, i, later, s, u, hsplit, hs, hi, hnone, hu, hall⟩

/-- **Membership follows the sockets.** As long as nobody takes a node out, a node is registered
exactly while a thread is between registering under its id and removing. Its connections are those
of these threads, in the order in which they were registered; it has the role and the tags of the
join that created it and is listed under this role only; the registry is empty when all threads have
ended; and a thread that removes its connection leaves those of all others where they are. -/
theorem membership_follows_the_sockets {events : List SessionEvent}
    (hrun : machine.run machine.start events = some t) (hnever : ∀ id, .removeNode id ∉ events) :
    (∀ id, t.registry.contains id = true ↔
      ∃ i node, memberAt t.sessions i = some node ∧ node.nodeId = id) ∧
    (∀ id n, t.registry.find? id = some n →
      n.connections = t.socketsOf id ∧ n.replicas = [] ∧
        (∀ role, id ∈ t.registry.ids role ↔ role = n.role) ∧
        CreatedIn events id n.role n.tags) ∧
    ((∀ stage ∈ t.sessions, stage = .ended) → t.registry = {}) ∧
    (∀ i u, machine.step t (.session i .remove) = some u →
      ∀ j node, j ≠ i → memberAt t.sessions j = some node →
        ∃ n, u.registry.find? node.nodeId = some n ∧ ⟨j⟩ ∈ n.connections) := by
  have h := Membership.reachable ((Machine.reachable_iff machine t).2 ⟨events, hrun⟩)
  have hgone := takenOut_eq_nil hrun hnever
  refine ⟨fun id => h.contains_iff hgone, ?_, h.registry_eq_empty hgone, ?_⟩
  · intro id n hn
    refine ⟨h.connections_eq hgone hn, (h.peopled id n hn).2, ?_, created hrun hn⟩
    intro role
    rw [h.indexed.mem_ids, hn]
    simp [eq_comm]
  · intro i u hs j node hj hmember
    exact h.kept_of_remove hgone (step_cases hs) hj hmember

/-- A node joins once more, as a slave, while its first connection is on its way out. -/
private def handover : List SessionEvent :=
  [.accept, .accept, .session 0 .look, .session 0 (.letIn ⟨"a", .master, ["east"]⟩),
    .session 0 .register, .session 0 .lookAgain, .session 1 .look,
    .session 1 (.letIn ⟨"a", .slave, []⟩), .hangUp 0, .session 0 .stopServing, .session 1 .register]

theorem a_join_outlives_the_disconnect_it_races :
    ∃ t u, machine.run machine.start handover = some t ∧
      machine.step t (.session 0 .remove) = some u ∧
      t.registry.find? "a" = some ⟨"a", .master, ["east"], [⟨0⟩, ⟨1⟩], []⟩ ∧
      t.socketsOf "a" = [⟨0⟩, ⟨1⟩] ∧ "a" ∉ t.registry.slaves ∧
      CreatedIn handover "a" .master ["east"] ∧
      ∃ n, u.registry.find? "a" = some n ∧ ⟨1⟩ ∈ n.connections := by
  obtain ⟨t, u, ht, hu, hfind, hmember⟩ : ∃ t u, machine.run machine.start handover = some t ∧
      machine.step t (.session 0 .remove) = some u ∧
      t.registry.find? "a" = some ⟨"a", .master, ["east"], [⟨0⟩, ⟨1⟩], []⟩ ∧
      memberAt t.sessions 1 = some ⟨"a", .slave, []⟩ := ⟨_, _, rfl, rfl, rfl, rfl⟩
  have hnever : ∀ id, .removeNode id ∉ handover := by simp [handover]
  obtain ⟨-, hnodes, -, hremove⟩ := membership_follows_the_sockets ht hnever
  obtain ⟨hsockets, -, hroles, hcreated⟩ := hnodes "a" _ hfind
  refine ⟨t, u, ht, hu, hfind, hsockets.symm, ?_, hcreated, ?_⟩
  · exact fun hslave => nomatch (hroles .slave).1 hslave
  · exact hremove 0 u hu 1 _ (by decide) hmember

end SessionTable

end ClusterLink
