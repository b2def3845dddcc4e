import Mathlib.Data.List.Nodup
import ClusterLink.Proofs.Registry.Effects
/-!
# The indexes of the registry

The registry keeps its nodes by id, and by hand the ids of the masters and of the slaves besides.
The three agree: an id is among those of a role exactly if the node under it has that role. From
this follows what the lists of masters and slaves hold.

Results:
* `Registry.Indexed.apply`, `Registry.indexed_after`: every call keeps the indexes in agreement.
* `Registry.Indexed.listing`: masters and slaves, sorted by id, are all nodes, each of them once.
* `Registry.created`: every node has the role and the tags of the call that created it.
* `Registry.indexes_agree`: all this for any sequence of calls.
-/
namespace ClusterLink

/-- A node that is known under an id and lists nothing twice. -/
structure Node.Proper (id : String) (n : Node) : Prop where
  id_eq : n.id = id
  connections_nodup : n.connections.Nodup
  replicas_nodup : n.replicas.Nodup

theorem nodup_append_new {α : Type} {l : List α} {a : α} (hl : l.Nodup) (ha : a ∉ l) :
    (l ++ [a]).Nodup := by
  rw [← List.concat_eq_append]
  exact hl.concat ha

namespace Node.Proper

variable {id : String} {n : Node}

theorem new (id : String) (role : Role) (tags : List String) :
    Node.Proper id { id, role, tags } :=
  ⟨rfl, List.nodup_nil, List.nodup_nil⟩

theorem attach (h : n.Proper id) (c : ConnectionId) : (n.attach c).Proper id := by
  unfold Node.attach
  split
  · exact h
  · next hc => exact { h with connections_nodup := nodup_append_new h.connections_nodup hc }

theorem attachReplica (h : n.Proper id) (c : ConnectionId) : (n.attachReplica c).Proper id := by
  unfold Node.attachReplica
  split
  · exact h
  · next hc => exact { h with replicas_nodup := nodup_append_new h.replicas_nodup hc }

theorem detach (h : n.Proper id) (c : ConnectionId) : (n.detach c).Proper id :=
  ⟨h.id_eq, h.connections_nodup.filter _, h.replicas_nodup.filter _⟩

end Node.Proper

namespace Registry

variable {r : Registry} {id : String} {role : Role} {tags : List String} {n : Node}

theorem ids_modifyIds (f : List String → List String) (other : Role) :
    (r.modifyIds role f).ids other = if other = role then f (r.ids role) else r.ids other := by
  cases role <;> cases other <;> rfl

theorem mem_addId {other : String} {ids : List String} :
    other ∈ addId id ids ↔ other ∈ ids ∨ other = id := by
  unfold addId
  split
  · next h => exact ⟨Or.inl, fun h' => h'.elim (·) fun heq => heq ▸ h⟩
  · simp

theorem nodup_addId {ids : List String} (h : ids.Nodup) : (addId id ids).Nodup := by
  unfold addId
  split
  · exact h
  · next hid => exact nodup_append_new h hid

theorem mem_keys : id ∈ r.nodes.map (·.1) ↔ ∃ n, r.find? id = some n := by
  rw [← Option.isSome_iff_exists, find?, Option.isSome_iff_ne_none, ne_eq,
    List.lookup_eq_none_iff]
  simp only [List.mem_map, bne_iff_ne, ne_eq]
  push Not
  exact exists_congr fun entry => and_congr_right fun _ => eq_comm

/-- Where every key occurs once, looking it up finds its entry. -/
theorem mem_nodes (hkeys : (r.nodes.map (·.1)).Nodup) :
    (id, n) ∈ r.nodes ↔ r.find? id = some n := by
  rw [find?, List.lookup_eq_some_iff]
  constructor
  · intro h
    obtain ⟨before, later, hsplit⟩ := List.append_of_mem h
    refine ⟨before, later, hsplit, ?_⟩
    intro p hp
    rw [hsplit, List.map_append, List.nodup_append] at hkeys
    exact bne_iff_ne.2 (hkeys.2.2 _ (List.mem_map_of_mem hp) _ (by simp)).symm
  · rintro ⟨before, later, hsplit, -⟩
    rw [hsplit]
    exact List.mem_append_right _ List.mem_cons_self

/-! ## Agreement -/

/-- The indexes agree, and every node is a proper one. -/
structure Indexed (r : Registry) : Prop where
  keys_nodup : (r.nodes.map (·.1)).Nodup
  ids_nodup : ∀ role, (r.ids role).Nodup
  mem_ids : ∀ role id, id ∈ r.ids role ↔ ∃ n, r.find? id = some n ∧ n.role = role
  proper : ∀ id n, r.find? id = some n → n.Proper id

namespace Indexed

theorem empty : Indexed {} where
  keys_nodup := List.nodup_nil
  ids_nodup := by
    intro role
    cases role <;> exact List.nodup_nil
  mem_ids := by
    intro role id
    cases role <;> simp [ids, find?]
  proper := nofun

theorem insert (h : Indexed r) (id : String) (role : Role) (tags : List String) :
    Indexed (r.insert id role tags) := by
  by_cases hc : r.contains id = true
  · rwa [Registry.insert, if_pos hc]
  have hnone : r.find? id = none := contains_eq_false_iff.1 (eq_false_of_ne_true hc)
  have hfind : ∀ key, (r.insert id role tags).find? key =
      if key = id then some { id, role, tags } else r.find? key := by
    intro key
    rw [find?_insert, nodeOrNew, hnone, Option.getD_none]
  have hids : ∀ other, (r.insert id role tags).ids other =
      if other = role then addId id (r.ids role) else r.ids other := by
    intro other
    rw [Registry.insert, if_neg hc]
    exact ids_modifyIds _ other
  constructor
  · rw [Registry.insert, if_neg hc, nodes_modifyIds, List.map_append]
    apply nodup_append_new h.keys_nodup
    intro hkey
    obtain ⟨n, hn⟩ := mem_keys.1 hkey
    rw [hnone] at hn
    cases hn
  · intro other
    rw [hids]
    split
    · exact nodup_addId (h.ids_nodup role)
    · exact h.ids_nodup other
  · intro other key
    rw [hids, hfind]
    by_cases hkey : key = id
    · have hnot : id ∉ r.ids other := by
        rw [h.mem_ids, hnone]
        simp
      by_cases ho : other = role
      · simp [ho, hkey, mem_addId]
      · simp [ho, hkey, hnot, Ne.symm ho]
    · by_cases ho : other = role
      · simp [ho, hkey, mem_addId, h.mem_ids]
      · simp [ho, hkey, h.mem_ids]
  · intro key m hm
    rw [hfind] at hm
    split at hm
    · next hkey =>
      cases hm
      rw [hkey]
      exact .new id role tags
    · exact h.proper key m hm

theorem modify (h : Indexed r) {f : Node → Node} (hrole : ∀ n, (f n).role = n.role)
    (hproper : ∀ n, n.Proper id → (f n).Proper id) : Indexed (r.modify id f) where
  keys_nodup := by
    have hkeys : (r.modify id f).nodes.map (·.1) = r.nodes.map (·.1) := by
      rw [Registry.modify, List.map_map]
      apply List.map_congr_left
      rintro ⟨key, n⟩ -
      dsimp only [Function.comp_apply]
      split <;> rfl
    rw [hkeys]
    exact h.keys_nodup
  ids_nodup := by
    intro role
    cases role
    · exact h.ids_nodup .master
    · exact h.ids_nodup .slave
  mem_ids := by
    intro role key
    have hids : (r.modify id f).ids role = r.ids role := by cases role <;> rfl
    rw [hids, h.mem_ids, find?_modify]
    split
    · constructor
      · rintro ⟨n, hn, hr⟩
        exact ⟨f n, by rw [hn, Option.map_some], (hrole n).trans hr⟩
      · rintro ⟨m, hm, hr⟩
        obtain ⟨n, hn, rfl⟩ := Option.map_eq_some_iff.1 hm
        exact ⟨n, hn, (hrole n).symm.trans hr⟩
    · rfl
  proper := by
    intro key m hm
    rw [find?_modify] at hm
    split at hm
    · next hkey =>
      obtain ⟨n, hn, rfl⟩ := Option.map_eq_some_iff.1 hm
      rw [hkey] at hn ⊢
      exact hproper n (h.proper id n hn)
    · exact h.proper key m hm

theorem erase (h : Indexed r) (hn : r.find? id = some n) : Indexed (r.erase id n.role) := by
  have hids : ∀ other, (r.erase id n.role).ids other =
      if other = n.role then (r.ids n.role).filter (· ≠ id) else r.ids other := by
    intro other
    rw [Registry.erase, ids_modifyIds]
    cases n.role <;> cases other <;> rfl
  constructor
  · rw [Registry.erase, nodes_modifyIds]
    exact (List.filter_sublist.map _).nodup h.keys_nodup
  · intro other
    rw [hids]
    split
    · exact (h.ids_nodup n.role).filter _
    · exact h.ids_nodup other
  · intro other key
    rw [hids, find?_erase]
    by_cases hkey : key = id
    · by_cases ho : other = n.role
      · simp [hkey, ho]
      · simp [hkey, ho, h.mem_ids, hn, Ne.symm ho]
    · by_cases ho : other = n.role
      · simp [hkey, ho, h.mem_ids]
      · simp [hkey, ho, h.mem_ids]
  · intro key m hm
    rw [find?_erase] at hm
    split at hm
    · cases hm
    · exact h.proper key m hm

theorem update (h : Indexed r) {f : Node → Node} (hrole : ∀ n, (f n).role = n.role)
    (hproper : ∀ n, n.Proper id → (f n).Proper id) : Indexed (r.update id f).2 := by
  unfold Registry.update
  split
  · exact h.modify hrole hproper
  · exact h

/-- **Every call keeps the indexes in agreement.** -/
theorem apply (h : Indexed r) (call : Call) : Indexed (r.apply call).2 := by
  cases call with
  | addNode id role tags => exact h.insert id role tags
  | register id role tags c =>
    exact (h.insert id role tags).modify (Node.role_attach c) fun n hn => hn.attach c
  | removeNode id =>
    change Indexed (r.removeNode id).2
    unfold removeNode
    split
    · next hn => exact h.erase hn
    · exact h
  | addConnection id c => exact h.update (Node.role_attach c) fun n hn => hn.attach c
  | addReplica id c =>
    exact h.update (fun n => by rw [Node.attachReplica_eq]) fun n hn => hn.attachReplica c
  | removeConnection id c =>
    change Indexed (r.removeConnection id c).2
    unfold removeConnection
    split
    · exact h
    · next hn =>
      dsimp only
      split
      · exact h.erase hn
      · exact h.modify (fun _ => rfl) fun n hn => hn.detach c

theorem mem_connections (h : Indexed r) {c : ConnectionId} (hn : r.find? id = some n)
    (hc : c ∈ n.connections) : c ∈ r.connections.map (·.2) := by
  have hentry := (mem_nodes h.keys_nodup).2 hn
  refine List.mem_map.2 ⟨(n.id, c), List.mem_flatMap.2 ⟨(id, n), hentry, ?_⟩, rfl⟩
  exact List.mem_map_of_mem (List.mem_append_left _ hc)

/-- A registry that finds nothing holds nothing. -/
theorem eq_empty (h : Indexed r) (hnone : ∀ id, r.find? id = none) : r = {} := by
  have hids : ∀ role, r.ids role = [] := by
    intro role
    refine List.eq_nil_iff_forall_not_mem.2 fun id hid => ?_
    obtain ⟨n, hn, -⟩ := (h.mem_ids role id).1 hid
    rw [hnone] at hn
    cases hn
  have hnodes : r.nodes = [] := by
    refine List.eq_nil_iff_forall_not_mem.2 fun entry hentry => ?_
    obtain ⟨n, hn⟩ := mem_keys.1 (List.mem_map_of_mem hentry)
    rw [hnone] at hn
    cases hn
  have hmasters : r.masters = [] := hids .master
  have hslaves : r.slaves = [] := hids .slave
  cases r
  cases hnodes
  cases hmasters
  cases hslaves
  rfl

end Indexed

theorem indexed_reachable (h : machine.Reachable r) : Indexed r :=
  Machine.invariant .empty (fun _ call _ hr hs => Option.some.inj hs ▸ hr.apply call) h

theorem run_machine (r : Registry) (calls : List Call) :
    machine.run r calls = some (r.applyAll calls).2 := by
  induction calls generalizing r with
  | nil => rfl
  | cons call later ih => exact ih (r.apply call).2

theorem indexed_after (calls : List Call) : Indexed (after calls) :=
  indexed_reachable ((Machine.reachable_iff machine _).2 ⟨calls, run_machine {} calls⟩)

/-! ## The lists of masters and slaves -/

theorem mem_sorted {ids : List String} : n ∈ r.sorted ids ↔ ∃ id ∈ ids, r.find? id = some n := by
  simp only [sorted, List.mem_mergeSort, List.mem_filterMap]

theorem pairwise_le_sorted (r : Registry) (ids : List String) :
    (r.sorted ids).Pairwise fun a b => a.id ≤ b.id := by
  refine (List.pairwise_mergeSort (fun a b c hab hbc => ?_) (fun a b => ?_) _).imp of_decide_eq_true
  · exact decide_eq_true (String.le_trans (of_decide_eq_true hab) (of_decide_eq_true hbc))
  · simpa using String.le_total a.id b.id

/-- There is one way to list nodes with different ids in order. -/
theorem sorted_unique {ids : List String} {nodes : List Node}
    (hperm : nodes.Perm (ids.filterMap r.find?)) (hle : nodes.Pairwise fun a b => a.id ≤ b.id)
    (hinj : ∀ a ∈ nodes, ∀ b ∈ nodes, a.id = b.id → a = b) : r.sorted ids = nodes := by
  have hsame : (r.sorted ids).Perm nodes := (List.mergeSort_perm _ _).trans hperm.symm
  exact hsame.eq_of_pairwise
    (fun a b ha hb hab hba => hinj a (hsame.mem_iff.1 ha) b hb (String.le_antisymm hab hba))
    (pairwise_le_sorted r ids) hle

/-- What the lists of masters and slaves hold. -/
structure Listing (r : Registry) : Prop where
  masters_sorted : r.masterNodes.Pairwise fun a b => a.id < b.id
  slaves_sorted : r.slaveNodes.Pairwise fun a b => a.id < b.id
  /-- No node is on both lists. -/
  apart : ∀ a ∈ r.masterNodes, ∀ b ∈ r.slaveNodes, a.id ≠ b.id
  /-- Every node is on one of them, once. -/
  complete : (r.masterNodes ++ r.slaveNodes).Perm (r.nodes.map (·.2))
  size_eq : r.size = r.masterNodes.length + r.slaveNodes.length

namespace Indexed

theorem mem_nodesOf (h : Indexed r) (role : Role) :
    n ∈ r.sorted (r.ids role) ↔ r.find? n.id = some n ∧ n.role = role := by
  rw [mem_sorted]
  constructor
  · rintro ⟨id, hid, hn⟩
    obtain ⟨m, hm, hrole⟩ := (h.mem_ids role id).1 hid
    rw [hn] at hm
    cases hm
    rw [(h.proper id n hn).id_eq]
    exact ⟨hn, hrole⟩
  · rintro ⟨hn, hrole⟩
    exact ⟨n.id, (h.mem_ids role n.id).2 ⟨n, hn, hrole⟩, hn⟩

theorem map_id_sorted (h : Indexed r) (role : Role) :
    ((r.sorted (r.ids role)).map (·.id)).Perm (r.ids role) := by
  have hids : ((r.ids role).filterMap r.find?).map (·.id) = r.ids role := by
    rw [List.map_filterMap]
    calc (r.ids role).filterMap (fun id => (r.find? id).map (·.id))
        = (r.ids role).filterMap some := by
          apply List.filterMap_congr
          intro id hid
          obtain ⟨n, hn, -⟩ := (h.mem_ids role id).1 hid
          rw [hn, Option.map_some, (h.proper id n hn).id_eq]
      _ = r.ids role := List.filterMap_some
  calc (r.sorted (r.ids role)).map (·.id)
      |>.Perm (((r.ids role).filterMap r.find?).map (·.id)) := (List.mergeSort_perm _ _).map _
    _ = r.ids role := hids

/-- The ids of a role occur once, so nodes sorted by id are strictly so. -/
theorem pairwise_sorted (h : Indexed r) (role : Role) :
    (r.sorted (r.ids role)).Pairwise fun a b => a.id < b.id := by
  have hne : (r.sorted (r.ids role)).Pairwise fun a b => a.id ≠ b.id :=
    List.pairwise_map.1 ((h.map_id_sorted role).nodup_iff.2 (h.ids_nodup role))
  refine ((pairwise_le_sorted r _).and hne).imp ?_
  rintro a b ⟨hab, hdiffer⟩
  apply Std.lt_of_le_of_ne hab hdiffer

theorem nodup_sorted (h : Indexed r) (role : Role) : (r.sorted (r.ids role)).Nodup :=
  List.Nodup.of_map _ ((h.map_id_sorted role).nodup_iff.2 (h.ids_nodup role))

theorem apart (h : Indexed r) {a b : Node} (ha : a ∈ r.masterNodes) (hb : b ∈ r.slaveNodes) :
    a.id ≠ b.id := by
  obtain ⟨hfind, hrole⟩ := (h.mem_nodesOf .master).1 ha
  obtain ⟨hfind', hrole'⟩ := (h.mem_nodesOf .slave).1 hb
  intro heq
  rw [heq, hfind'] at hfind
  cases hfind
  rw [hrole] at hrole'
  cases hrole'

theorem mem_map_nodes (h : Indexed r) : n ∈ r.nodes.map (·.2) ↔ r.find? n.id = some n := by
  rw [List.mem_map]
  constructor
  · rintro ⟨⟨key, m⟩, hm, rfl⟩
    have hfind := (mem_nodes h.keys_nodup).1 hm
    rw [(h.proper key m hfind).id_eq]
    exact hfind
  · intro hn
    exact ⟨(n.id, n), (mem_nodes h.keys_nodup).2 hn, rfl⟩

theorem nodup_map_nodes (h : Indexed r) : (r.nodes.map (·.2)).Nodup := by
  apply List.Nodup.of_map Node.id
  have hkeys : (r.nodes.map (·.2)).map Node.id = r.nodes.map (·.1) := by
    rw [List.map_map]
    apply List.map_congr_left
    rintro ⟨key, m⟩ hm
    exact (h.proper key m ((mem_nodes h.keys_nodup).1 hm)).id_eq
  rw [hkeys]
  exact h.keys_nodup

theorem complete (h : Indexed r) :
    (r.masterNodes ++ r.slaveNodes).Perm (r.nodes.map (·.2)) := by
  refine (List.perm_ext_iff_of_nodup ?_ h.nodup_map_nodes).2 ?_
  · refine List.nodup_append.2 ⟨h.nodup_sorted .master, h.nodup_sorted .slave, ?_⟩
    intro a ha b hb heq
    exact h.apart ha hb (congrArg Node.id heq)
  · intro n
    rw [h.mem_map_nodes, List.mem_append]
    constructor
    · rintro (hn | hn)
      · exact ((h.mem_nodesOf .master).1 hn).1
      · exact ((h.mem_nodesOf .slave).1 hn).1
    · intro hn
      cases hrole : n.role with
      | master => exact Or.inl ((h.mem_nodesOf .master).2 ⟨hn, hrole⟩)
      | slave => exact Or.inr ((h.mem_nodesOf .slave).2 ⟨hn, hrole⟩)

/-- **Masters and slaves are all nodes, each of them once and in the order of the ids.** -/
theorem listing (h : Indexed r) : Listing r where
  masters_sorted := h.pairwise_sorted .master
  slaves_sorted := h.pairwise_sorted .slave
  apart _ ha _ hb := h.apart ha hb
  complete := h.complete
  size_eq := by
    rw [size, ← List.length_append, h.complete.length_eq, List.length_map]

end Indexed

/-! ## Where a node comes from -/

/-- Some call created the node of an id with a role and tags: there was none before it, and there
has been one since. -/
def CreatedBy (calls : List Call) (id : String) (role : Role) (tags : List String) : Prop :=
  ∃ before call later, calls = before ++ call :: later ∧
    (after before).contains id = false ∧ call.id = id ∧ call.profile? = some (role, tags) ∧
    machine.Along (fun r => r.contains id = true) (after (before ++ [call])) later

theorem after_concat (calls : List Call) (call : Call) :
    after (calls ++ [call]) = ((after calls).apply call).2 := by
  have hrun := run_machine {} (calls ++ [call])
  rw [Machine.run_concat (run_machine {} calls) rfl] at hrun
  exact (Option.some.inj hrun).symm

/-- As long as there is a node under an id, its role and tags are the same, in whatever makes one
call at a time. -/
theorem profile_along {State Event : Type} {m : Machine State Event} {view : State → Registry}
    (hstep : ∀ s e t, m.step s e = some t →
      view t = view s ∨ ∃ call, view t = ((view s).apply call).2)
    {s t : State} {events : List Event} {first last : Node}
    (hall : m.Along (fun s => (view s).contains id = true) s events)
    (hrun : m.run s events = some t) (hfirst : (view s).find? id = some first)
    (hlast : (view t).find? id = some last) : last.role = first.role ∧ last.tags = first.tags := by
  obtain ⟨n, hn, h⟩ : ∃ n, (view t).find? id = some n ∧ n.role = first.role ∧
      n.tags = first.tags := by
    refine @Machine.Along.invariant _ _ m _
      (fun s => ∃ n, (view s).find? id = some n ∧ n.role = first.role ∧ n.tags = first.tags)
      s t events hall hrun ⟨first, hfirst, rfl, rfl⟩ ?_
    rintro u e v later - - - hv ⟨n, hn, hrole, htags⟩ hs
    rcases hstep u e v hs with hsame | ⟨call, hcall⟩
    · exact ⟨n, hsame ▸ hn, hrole, htags⟩
    · obtain ⟨n', hn'⟩ := contains_iff.1 hv
      obtain ⟨hrole', htags'⟩ := profile_kept hn (hcall ▸ hn')
      exact ⟨n', hn', hrole'.trans hrole, htags'.trans htags⟩
  rw [hlast] at hn
  cases hn
  exact h

/-- **Every node has the role and the tags of the call that created it.** -/
theorem created {calls : List Call} (hn : (after calls).find? id = some n) :
    CreatedBy calls id n.role n.tags := by
  have hstart : ¬ machine.start.contains id = true := Bool.false_ne_true
  obtain ⟨before, call, later, u, v, hsplit, hu, hnot, hv, hlater, hall⟩ :=
    Machine.onset (P := fun r => r.contains id = true) hstart (run_machine {} calls)
      (contains_iff.2 ⟨n, hn⟩)
  obtain rfl : after before = u := Option.some.inj ((run_machine {} before).symm.trans hu)
  have hstep : v = after (before ++ [call]) := by
    rw [after_concat]
    exact (Option.some.inj hv).symm
  subst hstep
  have hnone : (after before).contains id = false := eq_false_of_ne_true hnot
  obtain ⟨m, hm⟩ := contains_iff.1 hall.head
  obtain ⟨hrole, htags⟩ := profile_along (fun _ call _ hs => Or.inr ⟨call, (Option.some.inj hs).symm⟩)
    hall hlater hm hn
  rw [after_concat] at hm
  obtain ⟨hid, hprofile⟩ := profile?_of_created (contains_eq_false_iff.1 hnone) hm
  rw [hrole, htags]
  exact ⟨before, call, later, hsplit, hnone, hid, hprofile, hall⟩

/-! ## Any sequence of calls -/

/-- The two sets of ids split the ids that nodes are known under. -/
structure Partition (r : Registry) : Prop where
  apart : ∀ id, id ∈ r.masters → id ∉ r.slaves
  covered : ∀ id, (id ∈ r.masters ∨ id ∈ r.slaves) ↔ id ∈ r.nodes.map (·.1)
  /-- All three are sets. -/
  once : r.masters.Nodup ∧ r.slaves.Nodup ∧ (r.nodes.map (·.1)).Nodup

theorem Indexed.partition (h : Indexed r) : Partition r where
  apart := by
    intro id hmaster hslave
    obtain ⟨m, hm, hrole⟩ := (h.mem_ids .master id).1 hmaster
    obtain ⟨n, hn, hrole'⟩ := (h.mem_ids .slave id).1 hslave
    rw [hm] at hn
    cases hn
    rw [hrole] at hrole'
    cases hrole'
  covered := by
    intro id
    rw [mem_keys]
    constructor
    · rintro (hid | hid)
      · obtain ⟨n, hn, -⟩ := (h.mem_ids .master id).1 hid
        exact ⟨n, hn⟩
      · obtain ⟨n, hn, -⟩ := (h.mem_ids .slave id).1 hid
        exact ⟨n, hn⟩
    · rintro ⟨n, hn⟩
      have hid := (h.mem_ids n.role id).2 ⟨n, hn, rfl⟩
      cases hrole : n.role <;> rw [hrole] at hid
      · exact Or.inl hid
      · exact Or.inr hid
  once := ⟨h.ids_nodup .master, h.ids_nodup .slave, h.keys_nodup⟩

/-- A call leaves alone also what the sets say of other ids. -/
theorem Indexed.mem_ids_apply (h : Indexed r) {call : Call} (hid : id ≠ call.id) :
    id ∈ (r.apply call).2.ids role ↔ id ∈ r.ids role := by
  rw [(h.apply call).mem_ids, h.mem_ids, find?_apply_of_ne r hid]

/-- **The indexes agree.** After any sequence of calls the sets of masters and slaves split the ids
of the nodes; every node is known under its own id, listed under its role, has the role and the tags
of the call that created it and no connection twice; one more call changes no node but its own; and
the lists of masters and slaves are all nodes. -/
theorem indexes_agree (calls : List Call) :
    Partition (after calls) ∧
    (∀ id n, (id, n) ∈ (after calls).nodes →
      n.id = id ∧ id ∈ (after calls).ids n.role ∧ CreatedBy calls id n.role n.tags ∧
        n.connections.Nodup ∧ n.replicas.Nodup) ∧
    (∀ call id, id ≠ call.id →
      ((after calls).apply call).2.find? id = (after calls).find? id ∧
        ∀ role, id ∈ ((after calls).apply call).2.ids role ↔ id ∈ (after calls).ids role) ∧
    Listing (after calls) := by
  have h := indexed_after calls
  refine ⟨h.partition, ?_, ?_, h.listing⟩
  · intro id n hmem
    have hn := (mem_nodes h.keys_nodup).1 hmem
    have hproper := h.proper id n hn
    exact ⟨hproper.id_eq, (h.mem_ids n.role id).2 ⟨n, hn, rfl⟩, created hn,
      hproper.connections_nodup, hproper.replicas_nodup⟩
  · intro call id hid
    exact ⟨find?_apply_of_ne _ hid, fun role => h.mem_ids_apply hid⟩

/-- A slave that is dropped and comes back as a master, and is registered as a slave once more. -/
private def turns : List Call :=
  [.register "b" .slave ["east"] ⟨0⟩, .addNode "a" .slave [], .removeConnection "b" ⟨0⟩,
    .register "b" .master ["west"] ⟨1⟩, .register "b" .slave ["east"] ⟨2⟩, .addReplica "b" ⟨1⟩,
    .addConnection "b" ⟨1⟩]

theorem the_first_registration_decides :
    (after turns).find? "b" = some ⟨"b", .master, ["west"], [⟨1⟩, ⟨2⟩], [⟨1⟩]⟩ ∧
      CreatedBy turns "b" .master ["west"] ∧ "b" ∉ (after turns).slaves ∧
      Listing (after turns) := by
  obtain ⟨hpartition, hnodes, -, hlisting⟩ := indexes_agree turns
  have hmem : ("b", (⟨"b", .master, ["west"], [⟨1⟩, ⟨2⟩], [⟨1⟩]⟩ : Node)) ∈ (after turns).nodes := by
    decide
  obtain ⟨-, hrole, hcreated, -⟩ := hnodes _ _ hmem
  exact ⟨by decide, hcreated, hpartition.apart "b" hrole, hlisting⟩

end Registry
end ClusterLink
