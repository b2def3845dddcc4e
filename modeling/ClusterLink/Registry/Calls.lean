import ClusterLink.Machine
import ClusterLink.Registry.Basic
/-!
# Sequences of registry calls

Every call takes the registry's lock, so several users of a registry together make a sequence of
calls. A call is about one id, and its answer says what it found.
-/

namespace ClusterLink.Registry

/-- A call that may change the registry. -/
inductive Call where
  | addNode (id : String) (role : Role) (tags : List String)
  | register (id : String) (role : Role) (tags : List String) (connection : ConnectionId)
  | removeNode (id : String)
  | addConnection (id : String) (connection : ConnectionId)
  | addReplica (id : String) (connection : ConnectionId)
  | removeConnection (id : String) (connection : ConnectionId)
  deriving DecidableEq, Repr

/-- The node that a call is about. -/
def Call.id : Call → String
  | addNode id .. => id
  | register id .. => id
  | removeNode id => id
  | addConnection id _ => id
  | addReplica id _ => id
  | removeConnection id _ => id

/-- What a call says to its caller. -/
inductive Answer where
  /-- The node as it is after the call. -/
  | node (n : Node)
  /-- The node that was taken out, if there was one. -/
  | removed (n : Option Node)
  /-- Whether the call found what it was about. -/
  | found (yes : Bool)
  deriving DecidableEq, Repr

/-- Whether the call did not find what it was about. -/
def Answer.isRefusal : Answer → Bool
  | removed none => true
  | found false => true
  | _ => false

def apply (r : Registry) : Call → Answer × Registry
  | .addNode node role tags => (r.addNode node role tags).map .node id
  | .register node role tags c => (r.register node role tags c).map .node id
  | .removeNode node => (r.removeNode node).map .removed id
  | .addConnection node c => (r.addConnection node c).map .found id
  | .addReplica node c => (r.addReplica node c).map .found id
  | .removeConnection node c => (r.removeConnection node c).map .found id

/-- The answers to some calls in a row, and the registry after them. -/
def applyAll (r : Registry) : List Call → List Answer × Registry
  | [] => ([], r)
  | call :: later =>
    let first := r.apply call
    let rest := applyAll first.2 later
    (first.1 :: rest.1, rest.2)

/-- A new registry after some calls. -/
def after (calls : List Call) : Registry := (applyAll {} calls).2

/-- All registries that calls can lead to. -/
def machine : Machine Registry Call where
  start := {}
  step r call := some (r.apply call).2

end ClusterLink.Registry
