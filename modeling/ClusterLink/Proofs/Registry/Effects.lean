import ClusterLink.Registry.Calls
/-!
# What a call does to a node

Seen from one id, the registry is a node that is there or not. A call that is about this id changes
it in a way that depends on nothing else, and every other call leaves it alone.

Results:
* `Registry.find?_apply_self`, `Registry.find?_apply_of_ne`: what a call does to the look-up of an id.
* `Registry.profile_kept`: a node that stays keeps its role and its tags.
* `Registry.profile?_of_created`: a new node has the role and the tags of the call that created it.
* `Registry.isBare_apply`: no call but one that adds a node leaves one that nothing leads to.
-/
namespace ClusterLink

namespace Node

@[simp] theorem role_attach (c : ConnectionId) (n : Node) : (n.attach c).role = n.role := by
  unfold attach; split <;> rfl

@[simp] theorem tags_attach (c : ConnectionId) (n : Node) : (n.attach c).tags = n.tags := by
  unfold attach; split <;> rfl

@[simp] theorem replicas_attach (c : ConnectionId) (n : Node) :
    (n.attach c).replicas = n.replicas := by
  unfold attach; split <;> rfl

theorem connections_attach (c : ConnectionId) (n : Node) :
    (n.attach c).connections =
      if c ∈ n.connections then n.connections else n.connections ++ [c] := by
  unfold attach; split <;> rfl

/-- Attaching to the replicas changes nothing else. -/
theorem attachReplica_eq (c : ConnectionId) (n : Node) :
    n.attachReplica c = { n with
      replicas := if c ∈ n.replicas then n.replicas else n.replicas ++ [c] } := by
  unfold attachReplica; split <;> rfl

theorem isBare_iff (n : Node) : n.isBare = true ↔ n.connections = [] ∧ n.replicas = [] := by
  simp [isBare]

theorem isBare_attach (c : ConnectionId) (n : Node) : (n.attach c).isBare = false := by
  rw [← Bool.not_eq_true, isBare_iff, connections_attach]
  rintro ⟨h, -⟩
  split at h
  · next hc => simp [h] at hc
  · simp at h

theorem isBare_attachReplica (c : ConnectionId) (n : Node) :
    (n.attachReplica c).isBare = false := by
  rw [← Bool.not_eq_true, isBare_iff, attachReplica_eq]
  rintro ⟨-, h⟩
  dsimp only at h
  split at h
  · next hc => simp [h] at hc
  · simp at h

/-- A connection that a node does not hold cannot be taken away from it. -/
theorem detach_eq_self {c : ConnectionId} {n : Node} (h : n.holds c = false) : n.detach c = n := by
  simp only [holds, Bool.or_eq_false_iff, decide_eq_false_iff_not] at h
  have hconnections : n.connections.filter (· ≠ c) = n.connections :=
    List.filter_eq_self.2 fun d hd => decide_eq_true fun heq => h.1 (heq ▸ hd)
  have hreplicas : n.replicas.filter (· ≠ c) = n.replicas :=
    List.filter_eq_self.2 fun d hd => decide_eq_true fun heq => h.2 (heq ▸ hd)
  rw [detach, hconnections, hreplicas]

end Node

namespace Registry

variable {r : Registry} {call : Call} {id : String} {m n : Node}

/-- What a call does to the node that it is about. -/
def Call.effect : Call → Option Node → Option Node
  | addNode id role tags, known => some (known.getD { id, role, tags })
  | register id role tags c, known => some ((known.getD { id, role, tags }).attach c)
  | removeNode _, _ => none
  | addConnection _ c, known => known.map (·.attach c)
  | addReplica _ c, known => known.map (·.attachReplica c)
  | removeConnection _ c, known =>
    known.bind fun n => if (n.detach c).isBare then none else some (n.detach c)

/-- The role and the tags that a call gives to the node that it creates. -/
def Call.profile? : Call → Option (Role × List String)
  | addNode _ role tags => some (role, tags)
  | register _ role tags _ => some (role, tags)
  | _ => none

theorem contains_iff : r.contains id = true ↔ ∃ n, r.find? id = some n := Option.isSome_iff_exists

theorem contains_eq_false_iff : r.contains id = false ↔ r.find? id = none := by simp [contains]

theorem find?_update_self (f : Node → Node) :
    (r.update id f).2.find? id = (r.find? id).map f := by
  unfold update
  split
  · rw [find?_modify, if_pos rfl]
  · next h => rw [contains_eq_false_iff.1 (eq_false_of_ne_true h), Option.map_none]

theorem find?_update_of_ne (f : Node → Node) {other : String} (h : other ≠ id) :
    (r.update id f).2.find? other = r.find? other := by
  unfold update
  split
  · rw [find?_modify, if_neg h]
  · rfl

/-- **What a call does to the node that it is about.** -/
theorem find?_apply_self (r : Registry) (call : Call) :
    (r.apply call).2.find? call.id = call.effect (r.find? call.id) := by
  cases call with
  | addNode id role tags => exact (find?_insert r id id role tags).trans (if_pos rfl)
  | register id role tags c =>
    change ((r.insert id role tags).modify id (·.attach c)).find? id = _
    rw [find?_modify, if_pos rfl, find?_insert, if_pos rfl]
    rfl
  | removeNode id =>
    change (r.removeNode id).2.find? id = none
    unfold removeNode
    split
    · rw [find?_erase, if_pos rfl]
    · assumption
  | addConnection id c => exact find?_update_self _
  | addReplica id c => exact find?_update_self _
  | removeConnection id c =>
    change (r.removeConnection id c).2.find? id = (r.find? id).bind _
    unfold removeConnection
    split
    · next h => rw [h, Option.bind_none]
    · next n h =>
      rw [h, Option.bind_some]
      dsimp only
      split
      · rw [find?_erase, if_pos rfl]
      · rw [find?_modify, if_pos rfl, h, Option.map_some]

/-- **A call leaves alone every node that it is not about.** -/
theorem find?_apply_of_ne (r : Registry) {call : Call} (h : id ≠ call.id) :
    (r.apply call).2.find? id = r.find? id := by
  cases call with
  | addNode other role tags => exact (find?_insert r other id role tags).trans (if_neg h)
  | register other role tags c =>
    replace h : id ≠ other := h
    change ((r.insert other role tags).modify other (·.attach c)).find? id = _
    rw [find?_modify, if_neg h, find?_insert, if_neg h]
  | removeNode other =>
    replace h : id ≠ other := h
    change (r.removeNode other).2.find? id = _
    unfold removeNode
    split
    · rw [find?_erase, if_neg h]
    · rfl
  | addConnection other c => exact find?_update_of_ne _ h
  | addReplica other c => exact find?_update_of_ne _ h
  | removeConnection other c =>
    replace h : id ≠ other := h
    change (r.removeConnection other c).2.find? id = _
    unfold removeConnection
    split
    · rfl
    · dsimp only
      split
      · rw [find?_erase, if_neg h]
      · rw [find?_modify, if_neg h]

/-- **A node that stays keeps its role and its tags.** -/
theorem profile_kept (hn : r.find? id = some n) (hm : (r.apply call).2.find? id = some m) :
    m.role = n.role ∧ m.tags = n.tags := by
  by_cases h : id = call.id
  · subst h
    rw [find?_apply_self, hn] at hm
    cases call with
    | removeNode other => cases hm
    | removeConnection other c =>
      simp only [Call.effect, Option.bind_some] at hm
      split at hm
      · cases hm
      · cases hm
        exact ⟨rfl, rfl⟩
    | _ =>
      cases hm
      simp [Node.attachReplica_eq]
  · rw [find?_apply_of_ne r h, hn] at hm
    cases hm
    exact ⟨rfl, rfl⟩

/-- **A new node has the role and the tags of the call that created it.** -/
theorem profile?_of_created (hn : r.find? id = none) (hm : (r.apply call).2.find? id = some m) :
    call.id = id ∧ call.profile? = some (m.role, m.tags) := by
  by_cases h : id = call.id
  · subst h
    refine ⟨rfl, ?_⟩
    rw [find?_apply_self, hn] at hm
    cases call with
    | addNode other role tags =>
      cases hm
      rfl
    | register other role tags c =>
      cases hm
      simp [Call.profile?]
    | _ => cases hm
  · rw [find?_apply_of_ne r h, hn] at hm
    cases hm

/-- Only a call that adds a node without a connection leaves behind a node that nothing leads to. -/
theorem isBare_effect {known : Option Node} (hcall : ∀ id role tags, call ≠ .addNode id role tags)
    (hm : call.effect known = some m) : m.isBare = false := by
  cases call with
  | addNode other role tags => exact absurd rfl (hcall other role tags)
  | register other role tags c =>
    cases hm
    exact Node.isBare_attach c _
  | removeNode other => cases hm
  | addConnection other c =>
    obtain ⟨n, -, rfl⟩ := Option.map_eq_some_iff.1 hm
    exact Node.isBare_attach c n
  | addReplica other c =>
    obtain ⟨n, -, rfl⟩ := Option.map_eq_some_iff.1 hm
    exact Node.isBare_attachReplica c n
  | removeConnection other c =>
    obtain ⟨n, -, hn⟩ := Option.bind_eq_some_iff.1 hm
    split at hn
    · cases hn
    · next hbare =>
      cases hn
      exact eq_false_of_ne_true hbare

theorem isBare_apply (hcall : ∀ id role tags, call ≠ .addNode id role tags)
    (hr : ∀ id n, r.find? id = some n → n.isBare = false)
    (hm : (r.apply call).2.find? id = some m) : m.isBare = false := by
  by_cases h : id = call.id
  · subst h
    rw [find?_apply_self] at hm
    exact isBare_effect hcall hm
  · rw [find?_apply_of_ne r h] at hm
    exact hr id m hm

end Registry

end ClusterLink
