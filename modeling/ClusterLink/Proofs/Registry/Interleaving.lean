import ClusterLink.Proofs.Registry.Indexes
import ClusterLink.Server.Broadcast
/-!
# Calls about different nodes

A call reads and changes the node that it is about and nothing else. So what some calls answer, and
what they leave of a node, depends on the calls about this node alone, in whatever order the calls
about other nodes come in between. The sets of masters and slaves may list their ids in any order;
the lists of nodes are sorted and do not show it.

Results:
* `Registry.fst_apply`: what a call answers is a matter of its own node.
* `Registry.answersOn_eq`, `Registry.find?_applyAll`: the calls about a node come to the same as if
  there were no others.
* `Registry.Indexed.sorted_eq`: the nodes of a role are listed the same in whatever order their ids
  are.
* `Registry.interleavings_agree`: two sequences with the same calls about every node.
-/
namespace ClusterLink.Registry

variable {r r' : Registry} {id : String} {n : Node}

/-! ## One node -/

/-- What a call answers if it finds a node, or none, under the id that it is about. -/
def Call.answer : Call → Option Node → Answer
  | addNode id role tags, known => .node (known.getD { id, role, tags })
  | register id role tags c, known => .node ((known.getD { id, role, tags }).attach c)
  | removeNode _, known => .removed known
  | addConnection _ _, known => .found known.isSome
  | addReplica _ _, known => .found known.isSome
  | removeConnection _ c, known => .found (known.any (·.holds c))

theorem fst_update (r : Registry) (id : String) (f : Node → Node) :
    (r.update id f).1 = (r.find? id).isSome := by
  rw [update, ← contains]
  split
  · next h => exact h.symm
  · next h => exact (eq_false_of_ne_true h).symm

/-- **What a call answers is a matter of its own node.** -/
theorem fst_apply (r : Registry) (call : Call) : (r.apply call).1 = call.answer (r.find? call.id) := by
  cases call with
  | addNode id role tags => rfl
  | register id role tags c => rfl
  | removeNode id =>
    change Answer.removed (r.removeNode id).1 = .removed (r.find? id)
    unfold removeNode
    split <;> simp [*]
  | addConnection id c => exact congrArg Answer.found (fst_update r id _)
  | addReplica id c => exact congrArg Answer.found (fst_update r id _)
  | removeConnection id c =>
    change Answer.found (r.removeConnection id c).1 = .found ((r.find? id).any (·.holds c))
    unfold removeConnection
    split <;> simp [*]

/-- The calls that are about a node. -/
def callsOn (id : String) (calls : List Call) : List Call := calls.filter (·.id = id)

/-- Some calls about one node, each with its answer. -/
def soloAnswers : Option Node → List Call → List (Call × Answer)
  | _, [] => []
  | known, call :: later => (call, call.answer known) :: soloAnswers (call.effect known) later

/-- What some calls about one node leave of it. -/
def soloNode (known : Option Node) (calls : List Call) : Option Node :=
  calls.foldl (fun known call => call.effect known) known

/-! ## Many nodes -/

/-- Some calls, each with its answer. -/
def answers (r : Registry) (calls : List Call) : List (Call × Answer) :=
  calls.zip (r.applyAll calls).1

/-- The calls that are about a node, each with its answer. -/
def answersOn (r : Registry) (id : String) (calls : List Call) : List (Call × Answer) :=
  (r.answers calls).filter (·.1.id = id)

/-- **The answers to the calls about a node are what they were without the others.** -/
theorem answersOn_eq (r : Registry) (id : String) (calls : List Call) :
    r.answersOn id calls = soloAnswers (r.find? id) (callsOn id calls) := by
  induction calls generalizing r with
  | nil => rfl
  | cons call later ih =>
    have hsplit : r.answers (call :: later) =
        (call, call.answer (r.find? call.id)) :: (r.apply call).2.answers later := by
      rw [← fst_apply]
      rfl
    have hlater := ih (r.apply call).2
    simp only [answersOn, callsOn] at hlater
    rw [answersOn, hsplit, callsOn]
    by_cases hid : call.id = id
    · rw [List.filter_cons_of_pos (by simpa using hid), List.filter_cons_of_pos (by simpa using hid),
        soloAnswers, hlater, ← hid, find?_apply_self]
    · rw [List.filter_cons_of_neg (by simpa using hid), List.filter_cons_of_neg (by simpa using hid),
        hlater, find?_apply_of_ne r (Ne.symm hid)]

/-- **So is what they leave of the node.** -/
theorem find?_applyAll (r : Registry) (id : String) (calls : List Call) :
    (r.applyAll calls).2.find? id = soloNode (r.find? id) (callsOn id calls) := by
  induction calls generalizing r with
  | nil => rfl
  | cons call later ih =>
    have hlater := ih (r.apply call).2
    simp only [soloNode, callsOn] at hlater
    rw [applyAll, hlater, soloNode, callsOn]
    by_cases hid : call.id = id
    · rw [List.filter_cons_of_pos (by simpa using hid), List.foldl_cons, ← hid, find?_apply_self]
    · rw [List.filter_cons_of_neg (by simpa using hid), find?_apply_of_ne r (Ne.symm hid)]

/-! ## The same nodes -/

namespace Indexed

variable {role : Role} {ids ids' : List String}

theorem ids_perm (h : Indexed r) (h' : Indexed r') (hsame : ∀ id, r.find? id = r'.find? id)
    (role : Role) : (r.ids role).Perm (r'.ids role) := by
  refine (List.perm_ext_iff_of_nodup (h.ids_nodup role) (h'.ids_nodup role)).2 fun id => ?_
  rw [h.mem_ids, h'.mem_ids, hsame]

theorem nodes_perm (h : Indexed r) (h' : Indexed r') (hsame : ∀ id, r.find? id = r'.find? id) :
    r.nodes.Perm r'.nodes := by
  refine (List.perm_ext_iff_of_nodup (List.Nodup.of_map _ h.keys_nodup)
    (List.Nodup.of_map _ h'.keys_nodup)).2 fun ⟨id, n⟩ => ?_
  rw [mem_nodes h.keys_nodup, mem_nodes h'.keys_nodup, hsame]

/-- The nodes that are found under some ids are listed in the order of their ids, in whatever order
the ids are. -/
theorem sorted_of_perm (h : Indexed r) (hids : ids.Perm ids') : r.sorted ids = r.sorted ids' := by
  have hperm : (r.sorted ids').Perm (ids.filterMap r.find?) :=
    (List.mergeSort_perm _ _).trans (hids.symm.filterMap _)
  refine sorted_unique hperm (pairwise_le_sorted r ids') fun a ha b hb hid => ?_
  -- Two nodes under one id are one node.
  obtain ⟨id, -, hfinda⟩ := mem_sorted.1 ha
  obtain ⟨id', -, hfindb⟩ := mem_sorted.1 hb
  rw [(h.proper _ a hfinda).id_eq, (h.proper _ b hfindb).id_eq] at hid
  rw [hid, hfindb] at hfinda
  exact (Option.some.inj hfinda).symm

/-- **The nodes of a role are listed the same**, in whatever order either registry has their ids. -/
theorem sorted_eq (h : Indexed r) (h' : Indexed r') (hsame : ∀ id, r.find? id = r'.find? id)
    (role : Role) (hids : ids.Perm (r.ids role)) (hids' : ids'.Perm (r'.ids role)) :
    r.sorted ids = r'.sorted ids' := by
  have hfind : r.find? = r'.find? := funext hsame
  calc r.sorted ids = r.sorted ids' :=
        h.sorted_of_perm (hids.trans ((h.ids_perm h' hsame role).trans hids'.symm))
    _ = r'.sorted ids' := by rw [sorted, sorted, hfind]

end Indexed

/-- Whether nobody who asks two registries can tell them apart, except by the order in which all
connections are listed. -/
structure Agree (r r' : Registry) : Prop where
  find? : ∀ id, r.find? id = r'.find? id
  contains : ∀ id, r.contains id = r'.contains id
  size : r.size = r'.size
  /-- The sets of ids have no order of their own that shows. -/
  sorted : ∀ role ids ids', ids.Perm (r.ids role) → ids'.Perm (r'.ids role) →
    r.sorted ids = r'.sorted ids'
  masterNodes : r.masterNodes = r'.masterNodes
  slaveNodes : r.slaveNodes = r'.slaveNodes
  connections : r.connections.Perm r'.connections
  /-- A message to all slaves goes to the same connections in the same order. -/
  deliveries : r.deliveries = r'.deliveries

/-- Registries with the same nodes agree. -/
theorem Indexed.agree (h : Indexed r) (h' : Indexed r') (hsame : ∀ id, r.find? id = r'.find? id) :
    Agree r r' := by
  have hnodes := h.nodes_perm h' hsame
  have hmasters : r.masterNodes = r'.masterNodes :=
    h.sorted_eq h' hsame .master (.refl _) (.refl _)
  have hslaves : r.slaveNodes = r'.slaveNodes :=
    h.sorted_eq h' hsame .slave (.refl _) (.refl _)
  exact {
    find? := hsame
    contains := fun id => by rw [contains, hsame, ← contains]
    size := hnodes.length_eq
    sorted := fun role ids ids' => h.sorted_eq h' hsame role
    masterNodes := hmasters
    slaveNodes := hslaves
    connections := hnodes.flatMap_right _
    deliveries := by rw [deliveries, hslaves, ← deliveries] }

/-- **How calls about different nodes interleave makes no difference.** If two sequences of calls
contain, for every node, the same calls in the same order, then each call gets the same answer in
both, and they lead to registries that agree: the same nodes, the same lists of masters and slaves,
the same connections, and the same order in which a message to all slaves addresses them. That order
is a matter of the nodes alone, whatever calls have led to them. -/
theorem interleavings_agree {first second : List Call}
    (h : ∀ id, callsOn id first = callsOn id second) :
    (∀ id, answersOn {} id first = answersOn {} id second) ∧
    Agree (after first) (after second) ∧
    ∀ third, (∀ id, (after first).find? id = (after third).find? id) →
      Agree (after first) (after third) := by
  refine ⟨fun id => ?_, (indexed_after first).agree (indexed_after second) fun id => ?_,
    fun third => (indexed_after first).agree (indexed_after third)⟩
  · rw [answersOn_eq, answersOn_eq, h]
  · rw [after, after, find?_applyAll, find?_applyAll, h]

/-! ## Two that join at the same time -/

/-- One node joins on two connections and loses the first, and another joins and gets a replica. -/
private def oneByOne : List Call :=
  [.register "b" .slave [] ⟨0⟩, .addConnection "b" ⟨1⟩, .removeConnection "b" ⟨0⟩,
    .register "a" .slave ["east"] ⟨2⟩, .addReplica "a" ⟨1⟩]

private def inTurns : List Call :=
  [.register "a" .slave ["east"] ⟨2⟩, .register "b" .slave [] ⟨0⟩, .addReplica "a" ⟨1⟩,
    .addConnection "b" ⟨1⟩, .removeConnection "b" ⟨0⟩]

theorem two_may_join_in_turns :
    (after oneByOne).slaves = ["b", "a"] ∧ (after inTurns).slaves = ["a", "b"] ∧
      Agree (after oneByOne) (after inTurns) ∧
      (answersOn {} "b" oneByOne).map (·.2) =
        [.node ⟨"b", .slave, [], [⟨0⟩], []⟩, .found true, .found true] ∧
      answersOn {} "b" inTurns = answersOn {} "b" oneByOne := by
  have hcalls : ∀ id, callsOn id oneByOne = callsOn id inTurns := by
    intro id
    by_cases ha : "a" = id
    · subst ha
      decide
    · by_cases hb : "b" = id
      · subst hb
        decide
      · simp [callsOn, oneByOne, inTurns, Call.id, ha, hb]
  obtain ⟨hanswers, hagree, -⟩ := interleavings_agree hcalls
  exact ⟨by decide, by decide, hagree, by decide, (hanswers "b").symm⟩

end ClusterLink.Registry
