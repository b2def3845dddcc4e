import ClusterLink.Proofs.Registry.Indexes
/-!
# Calls that find nothing

A call that does not find what it is about says so and leaves the registry as it was, with one
exception. Taking away a connection looks afterwards whether anything still leads to the node, also
if the connection was unknown; a node that was added without a connection is dropped then.

Results:
* `Registry.apply_of_refused`: what a call that is refused does to the registry.
* `Registry.refusals_drop_only_bare_nodes`: which refused calls change the registry, and how.
-/
namespace ClusterLink.Registry

variable {r : Registry} {call : Call} {id : String} {n : Node}

theorem modify_eq_self (h : Indexed r) {f : Node → Node} (hn : r.find? id = some n)
    (hf : f n = n) : r.modify id f = r := by
  have hnodes : (r.modify id f).nodes = r.nodes := by
    rw [modify]
    refine (List.map_congr_left ?_).trans (List.map_id' r.nodes)
    rintro ⟨key, m⟩ hm
    dsimp only
    split
    · next hkey =>
      rw [hkey, mem_nodes h.keys_nodup, hn] at hm
      cases hm
      rw [hf]
    · rfl
  calc r.modify id f = { r with nodes := (r.modify id f).nodes } := rfl
    _ = r := by rw [hnodes]

@[simp] theorem isRefusal_found (yes : Bool) : (Answer.found yes).isRefusal = !yes := by
  cases yes <;> rfl

@[simp] theorem isRefusal_removed (n : Option Node) : (Answer.removed n).isRefusal = n.isNone := by
  cases n <;> rfl

/-- Whether a call takes a connection away from a node that nothing leads to. -/
def Call.DropsBare (r : Registry) (call : Call) : Prop :=
  ∃ id c n, call = .removeConnection id c ∧ r.find? id = some n ∧ n.isBare = true

/-- Taking a connection away from a node that nothing leads to is refused, and drops the node. -/
theorem apply_of_bare (hn : r.find? id = some n) (hbare : n.isBare = true) (c : ConnectionId) :
    r.apply (.removeConnection id c) = (.found false, r.erase id n.role) := by
  obtain ⟨hconnections, hreplicas⟩ := n.isBare_iff.1 hbare
  have hc : n.holds c = false := by simp [Node.holds, hconnections, hreplicas]
  simp [apply, removeConnection, hn, hc, Node.detach_eq_self hc, hbare]

theorem removeConnection_of_unknown (h : Indexed r) {c : ConnectionId} (hn : r.find? id = some n)
    (hc : n.holds c = false) (hbare : n.isBare = false) : (r.removeConnection id c).2 = r := by
  simp only [removeConnection, hn, Node.detach_eq_self hc, hbare, Bool.false_eq_true, if_false]
  exact modify_eq_self h hn (Node.detach_eq_self hc)

theorem update_of_refused {f : Node → Node} (h : (r.update id f).1 = false) :
    (r.update id f).2 = r := by
  unfold update at h ⊢
  split
  · next hc => simp [hc] at h
  · rfl

/-- **A refused call changes nothing**, unless it drops a node that nothing leads to. -/
theorem apply_of_refused (h : Indexed r) (hrefused : (r.apply call).1.isRefusal = true)
    (hbare : ¬ call.DropsBare r) : (r.apply call).2 = r := by
  cases call with
  | addNode id role tags => cases hrefused
  | register id role tags c => cases hrefused
  | removeNode id =>
    replace hrefused : (r.removeNode id).1.isNone = true := by simpa [apply] using hrefused
    change (r.removeNode id).2 = r
    unfold removeNode at hrefused ⊢
    split
    · next hn => simp [hn] at hrefused
    · rfl
  | addConnection id c => exact update_of_refused (by simpa [apply, addConnection] using hrefused)
  | addReplica id c => exact update_of_refused (by simpa [apply, addReplica] using hrefused)
  | removeConnection id c =>
    replace hrefused : (r.removeConnection id c).1 = false := by simpa [apply] using hrefused
    change (r.removeConnection id c).2 = r
    cases hn : r.find? id with
    | none => simp [removeConnection, hn]
    | some n =>
      apply removeConnection_of_unknown h hn
      · simpa [removeConnection, hn] using hrefused
      · exact eq_false_of_ne_true fun hb => hbare ⟨id, c, n, rfl, hn, hb⟩

/-- Where no call has added a node without a connection, something leads to every node. -/
theorem isBare_after {calls : List Call} (hcalls : ∀ id role tags, .addNode id role tags ∉ calls)
    (hn : (after calls).find? id = some n) : n.isBare = false := by
  refine @Machine.run_induction _ _ machine
    (fun calls r => (∀ id role tags, .addNode id role tags ∉ calls) →
      ∀ id n, r.find? id = some n → n.isBare = false)
    {} (after calls) (fun _ => nofun) ?_ calls (run_machine {} calls) hcalls id n hn
  rintro done r call s - hr hs hcalls id m hm
  cases hs
  refine isBare_apply ?_ (hr fun id role tags hmem => hcalls id role tags ?_) hm
  · rintro id role tags rfl
    exact hcalls id role tags (List.mem_append_right _ List.mem_cons_self)
  · exact List.mem_append_left _ hmem

/-- **Refused calls drop only bare nodes.** After any sequence of calls, a refused call leaves nodes
and sets of ids exactly as they were, unless it takes a connection away from a node that nothing
leads to. Then it drops this node. Such a node is there only if a call has added it. -/
theorem refusals_drop_only_bare_nodes (calls : List Call) (call : Call)
    (hrefused : ((after calls).apply call).1.isRefusal = true) :
    (((after calls).apply call).2 = after calls ↔ ¬ call.DropsBare (after calls)) ∧
    (∀ id c n, call = .removeConnection id c → (after calls).find? id = some n →
      n.isBare = true → ((after calls).apply call).2 = (after calls).erase id n.role) ∧
    ((∀ id role tags, .addNode id role tags ∉ calls) →
      ((after calls).apply call).2 = after calls) := by
  have hindexed := indexed_after calls
  refine ⟨⟨?_, apply_of_refused hindexed hrefused⟩, ?_, ?_⟩
  · rintro hsame ⟨id, c, n, rfl, hn, hbare⟩
    rw [apply_of_bare hn hbare c] at hsame
    rw [← hsame, find?_erase, if_pos rfl] at hn
    cases hn
  · rintro id c n rfl hn hbare
    rw [apply_of_bare hn hbare c]
  · intro hcalls
    apply apply_of_refused hindexed hrefused
    rintro ⟨id, c, n, -, hn, hbare⟩
    rw [isBare_after hcalls hn] at hbare
    cases hbare

/-! ## A node that is added again -/

/-- A node joins on a connection, is taken out and is added again without one. -/
private def addedAgain : List Call :=
  [.register "a" .master [] ⟨0⟩, .removeNode "a", .addNode "a" .master []]

theorem a_late_removal_finds_another_node_bare :
    ((after addedAgain).apply (.removeConnection "a" ⟨0⟩)).1 = .found false ∧
      ((after addedAgain).apply (.removeConnection "a" ⟨0⟩)).2 =
        (after addedAgain).erase "a" .master ∧
      ((after addedAgain).apply (.removeConnection "b" ⟨0⟩)).2 = after addedAgain := by
  have hfind : (after addedAgain).find? "a" = some ⟨"a", .master, [], [], []⟩ := by decide
  have ha := refusals_drop_only_bare_nodes addedAgain (.removeConnection "a" ⟨0⟩) (by decide)
  have hb := refusals_drop_only_bare_nodes addedAgain (.removeConnection "b" ⟨0⟩) (by decide)
  refine ⟨by decide, ha.2.1 "a" ⟨0⟩ _ rfl hfind rfl, hb.1.2 ?_⟩
  rintro ⟨id, c, n, h, hn, -⟩
  cases h
  have hnone : (after addedAgain).find? "b" = none := by decide
  rw [hnone] at hn
  cases hn

/-- The late removal of a connection that is no longer known drops the node that was added again. -/
theorem a_refused_removal_drops_the_node_added_again :
    ∃ calls id c, ((after calls).apply (.removeConnection id c)).1 = .found false ∧
      (after calls).contains id = true ∧
      ((after calls).apply (.removeConnection id c)).2.contains id = false ∧
      ((after calls).apply (.removeConnection id c)).2 ≠ after calls :=
  ⟨addedAgain, "a", ⟨0⟩, by decide, by decide, by decide, by decide⟩

end ClusterLink.Registry
