import ClusterLink.Registry.Node
/-!
# The directory of nodes

The registry keeps every node under its id, and the ids of masters and of slaves apart. The first
registration of an id decides its role and tags; later ones add to it. A node whose last connection
is taken away is dropped.

Results:
* `Registry.find?_insert`, `find?_modify`, `find?_erase`: what each change does to a look-up.
-/

namespace ClusterLink

/-- The nodes of the cluster by id, and the ids of each role (`Members`). -/
structure Registry where
  nodes : List (String × Node) := []
  masters : List String := []
  slaves : List String := []
  deriving DecidableEq, Repr

namespace Registry

/-- The node of an id (`get_node`). -/
def find? (r : Registry) (id : String) : Option Node := r.nodes.lookup id

/-- Whether a node is known (`contains`). -/
def contains (r : Registry) (id : String) : Bool := (r.find? id).isSome

def size (r : Registry) : Nat := r.nodes.length

def isEmpty (r : Registry) : Bool := r.size == 0

/-- The ids of a role. -/
def ids (r : Registry) : Role → List String
  | .master => r.masters
  | .slave => r.slaves

/-- Changes the ids of a role. -/
def modifyIds (r : Registry) (role : Role) (f : List String → List String) : Registry :=
  match role with
  | .master => { r with masters := f r.masters }
  | .slave => { r with slaves := f r.slaves }

/-- Adds an id to a set of ids. -/
def addId (id : String) (ids : List String) : List String := if id ∈ ids then ids else ids ++ [id]

/-- Changes the node with an id. -/
def modify (r : Registry) (id : String) (f : Node → Node) : Registry :=
  { r with nodes := r.nodes.map fun (key, n) => if key = id then (key, f n) else (key, n) }

/-- Takes out the node with an id and the id from those of a role. -/
def erase (r : Registry) (id : String) (role : Role) : Registry :=
  let rest : Registry := { r with nodes := r.nodes.filter (·.1 ≠ id) }
  rest.modifyIds role (·.filter (· ≠ id))

/-- Makes sure there is a node with an id; one that is there stays as it is. -/
def insert (r : Registry) (id : String) (role : Role) (tags : List String) : Registry :=
  if r.contains id then r
  else
    let more : Registry := { r with nodes := r.nodes ++ [(id, { id, role, tags })] }
    more.modifyIds role (addId id)

/-- The node with an id, after a change that makes sure there is one. -/
def nodeOrNew (r : Registry) (id : String) (role : Role) (tags : List String) : Node :=
  (r.find? id).getD { id, role, tags }

@[simp] theorem nodes_modifyIds (r : Registry) (role : Role) (f : List String → List String) :
    (r.modifyIds role f).nodes = r.nodes := by
  cases role <;> rfl

theorem find?_erase (r : Registry) (id other : String) (role : Role) :
    (r.erase id role).find? other = if other = id then none else r.find? other := by
  simp only [find?, erase, nodes_modifyIds]
  induction r.nodes with
  | nil => simp
  | cons entry rest ih =>
    obtain ⟨key, n⟩ := entry
    by_cases hkey : key = id
    · subst hkey
      rw [List.filter_cons_of_neg (by simp), ih, List.lookup_cons]
      by_cases ho : other = key
      · simp [ho]
      · simp [ho, beq_eq_false_iff_ne.2 ho]
    · rw [List.filter_cons_of_pos (by simpa using hkey), List.lookup_cons, List.lookup_cons, ih]
      by_cases ho : other = key
      · subst ho; simp [hkey]
      · simp [beq_eq_false_iff_ne.2 ho]

theorem find?_modify (r : Registry) (id other : String) (f : Node → Node) :
    (r.modify id f).find? other = if other = id then (r.find? other).map f else r.find? other := by
  simp only [find?, modify]
  induction r.nodes with
  | nil => simp
  | cons entry rest ih =>
    obtain ⟨key, n⟩ := entry
    rw [List.map_cons, List.lookup_cons, List.lookup_cons] at *
    by_cases hkey : key = id
    · subst hkey
      by_cases ho : other = key
      · simp [ho]
      · simpa [ho, beq_eq_false_iff_ne.2 ho] using ih
    · by_cases ho : other = key
      · subst ho; simp [hkey]
      · simpa [hkey, beq_eq_false_iff_ne.2 ho] using ih

theorem find?_insert (r : Registry) (id other : String) (role : Role) (tags : List String) :
    (r.insert id role tags).find? other =
      if other = id then some (r.nodeOrNew id role tags) else r.find? other := by
  unfold insert
  split
  · next h =>
    by_cases ho : other = id
    · subst ho
      obtain ⟨n, hn⟩ := Option.isSome_iff_exists.1 h
      simp [nodeOrNew, hn]
    · simp [ho]
  · next h =>
    have hnone : r.find? id = none := by simpa [contains] using h
    simp only [find?, nodes_modifyIds] at hnone ⊢
    rw [List.lookup_append]
    by_cases ho : other = id
    · subst ho
      simp [nodeOrNew, find?, hnone]
    · simp [ho, List.lookup_cons, beq_eq_false_iff_ne.2 ho]

/-! ## What the cluster asks of it -/

/-- Registers a node (`add_node`). One that is known already is returned unchanged. -/
def addNode (r : Registry) (id : String) (role : Role) (tags : List String) : Node × Registry :=
  (r.nodeOrNew id role tags, r.insert id role tags)

/-- Registers a node if needed and attaches a connection to it in one step, so that nobody can drop
the node in between (`register`). -/
def register (r : Registry) (id : String) (role : Role) (tags : List String) (c : ConnectionId) :
    Node × Registry :=
  ((r.nodeOrNew id role tags).attach c, (r.insert id role tags).modify id (·.attach c))

/-- Takes a node out (`remove_node`). -/
def removeNode (r : Registry) (id : String) : Option Node × Registry :=
  match r.find? id with
  | some n => (some n, r.erase id n.role)
  | none => (none, r)

/-- Changes a node that has to be known. -/
def update (r : Registry) (id : String) (f : Node → Node) : Bool × Registry :=
  if r.contains id then (true, r.modify id f) else (false, r)

/-- Attaches a connection to a node (`add_connection`). -/
def addConnection (r : Registry) (id : String) (c : ConnectionId) : Bool × Registry :=
  r.update id (·.attach c)

/-- Attaches a connection to a replica of a node (`add_replica`). -/
def addReplica (r : Registry) (id : String) (c : ConnectionId) : Bool × Registry :=
  r.update id (·.attachReplica c)

/-- Detaches a connection from a node, and drops the node once nothing leads to it
(`remove_connection`). Tells whether the connection was known. -/
def removeConnection (r : Registry) (id : String) (c : ConnectionId) : Bool × Registry :=
  match r.find? id with
  | none => (false, r)
  | some n =>
    (n.holds c,
      if (n.detach c).isBare then r.erase id n.role else r.modify id (·.detach c))

/-- The nodes with some ids, sorted by id (`snapshot`). -/
def sorted (r : Registry) (ids : List String) : List Node :=
  (ids.filterMap r.find?).mergeSort fun a b => decide (a.id ≤ b.id)

/-- The nodes that joined as masters, sorted by id (`masters`). -/
def masterNodes (r : Registry) : List Node := r.sorted r.masters

/-- The nodes that joined as replicas, sorted by id (`slaves`). -/
def slaveNodes (r : Registry) : List Node := r.sorted r.slaves

/-- Every connection with the id of the node that it leads to (`connections`). -/
def connections (r : Registry) : List (String × ConnectionId) :=
  r.nodes.flatMap fun (_, n) => (n.connections ++ n.replicas).map fun c => (n.id, c)

end Registry

end ClusterLink
