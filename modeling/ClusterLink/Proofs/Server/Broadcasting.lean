import ClusterLink.Proofs.Connection.Wire
import ClusterLink.Proofs.Registry.Indexes
import ClusterLink.Server.Broadcast
/-!
# What a broadcast reaches

A broadcast goes through all slaves by id and through the connections of each. A connection that
takes no frames any more is reported and left behind; every other gets the frame, once for each
slave that it belongs to. Nothing else is written anywhere.

A connection that somebody is just closing may still take frames although it is marked as closed, or
take none although it is not; between such moments it fails exactly if it is closed.

Results:
* `Connection.isResting_of_waiting`: when nobody is in the middle of closing a connection.
* `Connection.push_of_room`: what a frame comes to that need not wait for room.
* `Registry.Indexed.mem_deliveries`, `Registry.Indexed.nodup_deliveries`: the connections of slaves,
  each once.
* `broadcastTo_eq`: what the writing of one frame to any list of connections comes to.
* `Roster.reaches_every_slave`: a broadcast in any registry that calls have led to.
-/
namespace ClusterLink

/-! ## One connection -/

namespace Connection

variable {options : ConnectionOptions} {c : Connection}

/-- Whether nobody is in the middle of closing the connection. -/
def IsResting (c : Connection) : Prop := c.isOpen = true ∨ c.closing.isOver = true

theorem IsResting.refusesFrames_eq (h : c.IsResting) : c.refusesFrames = c.isClosed := by
  rcases h with hopen | hover
  · simp only [isOpen, Bool.and_eq_true, Bool.not_eq_true'] at hopen
    rw [refusesFrames, hopen.1, hopen.2, Closing.eq_notYet hopen.1]
    rfl
  · rw [refusesFrames, isClosed, Closing.hasQueue_of_isOver hover,
      Closing.isFlagged_of_isOver hover]
    rfl

/-- A connection rests as soon as all of those who serve it wait. -/
theorem isResting_of_waiting (hc : (machine options).Reachable c) (hn : c.next? = none) :
    c.IsResting := by
  have hclosing : c.closing.next? = none := by
    cases h : c.closing.next? with
    | none => rfl
    | some e => simp [next?, h] at hn
  cases hk : c.closing with
  | settled closer result => exact Or.inr (by rw [hk]; rfl)
  | notYet =>
    have hopen : c.isClosed = false := by rw [isClosed, hk]; rfl
    have hwriter : c.nextOfWriter? = none := by
      cases h : c.nextOfWriter? with
      | none => rfl
      | some e => simp [next?, hclosing, h] at hn
    have hcalled : c.writer.hasClosed = false := by
      cases hw : c.writer.hasClosed with
      | false => rfl
      | true => rw [isClosed_of_hasClosed hc hw] at hopen; cases hopen
    refine Or.inl ?_
    rw [isOpen, hopen]
    cases hw : c.writer with
    | leaving result => simp [nextOfWriter?, hw] at hwriter
    | closing result => rw [hw] at hcalled; cases hcalled
    | ended result => rw [hw] at hcalled; cases hcalled
    | _ => rfl
  | _ => rw [hk] at hclosing; cases hclosing

/-- What a write comes to that need not wait for room. -/
def promptResult (c : Connection) (bytes : Bytes) : Except ConnectionError Nat :=
  if c.refusesFrames then .error .closed else .ok bytes.length

/-- The connection after some prompt writes of the same frame. -/
def pushed (c : Connection) (bytes : Bytes) (n : Nat) : Connection :=
  let frames := List.replicate (if c.refusesFrames then 0 else n) bytes
  { c with
    writes := c.writes ++ List.replicate n ⟨bytes, .ended (c.promptResult bytes)⟩
    queue := c.queue ++ frames
    history := { c.history with queued := c.history.queued ++ frames } }

@[simp] theorem pushed_zero (c : Connection) (bytes : Bytes) : c.pushed bytes 0 = c := by
  simp [pushed]

@[simp] theorem refusesFrames_pushed (c : Connection) (bytes : Bytes) (n : Nat) :
    (c.pushed bytes n).refusesFrames = c.refusesFrames := rfl

@[simp] theorem promptResult_pushed (c : Connection) (bytes other : Bytes) (n : Nat) :
    (c.pushed bytes n).promptResult other = c.promptResult other := rfl

@[simp] theorem capacity_pushed (c : Connection) (bytes : Bytes) (n : Nat) :
    (c.pushed bytes n).capacity = c.capacity := rfl

theorem queue_pushed (c : Connection) (bytes : Bytes) (n : Nat) : (c.pushed bytes n).queue =
    c.queue ++ List.replicate (if c.refusesFrames then 0 else n) bytes := rfl

theorem queued_pushed (c : Connection) (bytes : Bytes) (n : Nat) :
    (c.pushed bytes n).history.queued =
      c.history.queued ++ List.replicate (if c.refusesFrames then 0 else n) bytes := rfl

theorem pushed_pushed (c : Connection) (bytes : Bytes) (n k : Nat) :
    (c.pushed bytes n).pushed bytes k = c.pushed bytes (n + k) := by
  rw [pushed, refusesFrames_pushed, promptResult_pushed]
  simp only [pushed, List.append_assoc, ← List.replicate_add]
  cases c.refusesFrames <;> rfl

/-- A frame that need not wait for room is queued, or turned away if no frame is queued any more. -/
theorem push_of_room (h : c.refusesFrames = false → c.queue.length < c.capacity) (bytes : Bytes) :
    c.push bytes = (c.promptResult bytes, c.pushed bytes 1) := by
  rw [push, write_eq]
  cases hrefuses : c.refusesFrames
  · rw [if_neg Bool.false_ne_true, if_pos (h hrefuses)]
    simp [promptResult, pushed, hrefuses, addWrite, enqueue]
  · rw [if_pos rfl]
    simp [promptResult, pushed, hrefuses, addWrite]

end Connection

/-! ## The connections that are addressed -/

namespace Registry

variable {r : Registry}

namespace Indexed

/-- **The connections of the slaves are addressed**, and no others. -/
theorem mem_deliveries (h : Indexed r) (d : Delivery) : d ∈ r.deliveries ↔
    ∃ n, r.find? d.nodeId = some n ∧ n.role = .slave ∧ d.connection ∈ n.connections := by
  simp only [deliveries, List.mem_flatMap, List.mem_map]
  constructor
  · rintro ⟨n, hn, c, hc, rfl⟩
    obtain ⟨hfind, hrole⟩ := (h.mem_nodesOf .slave).1 hn
    exact ⟨n, hfind, hrole, hc⟩
  · rintro ⟨n, hfind, hrole, hc⟩
    have hid : n.id = d.nodeId := (h.proper _ n hfind).id_eq
    exact ⟨n, (h.mem_nodesOf .slave).2 ⟨hid ▸ hfind, hrole⟩, d.connection, hc, by rw [hid]⟩

/-- **No connection is addressed twice for one slave.** -/
theorem nodup_deliveries (h : Indexed r) : r.deliveries.Nodup := by
  refine List.nodup_flatMap.2 ⟨fun n hn => ?_, (h.pairwise_sorted .slave).imp fun {a b} hlt => ?_⟩
  · obtain ⟨hfind, -⟩ := (h.mem_nodesOf .slave).1 hn
    exact (h.proper _ n hfind).connections_nodup.map fun c c' heq => (Delivery.mk.inj heq).2
  · intro d ha hb
    obtain ⟨c, -, rfl⟩ := List.mem_map.1 ha
    obtain ⟨c', -, heq⟩ := List.mem_map.1 hb
    exact absurd (Delivery.mk.inj heq).1.symm (String.ne_of_lt hlt)

end Indexed

/-- Those of the addressed connections that have a property, slave by slave. -/
theorem filter_deliveries (r : Registry) (p : ConnectionId → Bool) :
    (r.deliveries.filter fun d => p d.connection) =
      r.slaveNodes.flatMap fun n => (n.connections.filter p).map fun c => ⟨n.id, c⟩ := by
  simp only [deliveries, List.filter_flatMap, List.filter_map, Function.comp_def]

end Registry

/-! ## One frame for many connections -/

/-- Whether every connection that takes frames has room for as many as are addressed to it. -/
def Connections.HaveRoom (t : Connections) (ds : List Delivery) : Prop :=
  ∀ id, (t id).refusesFrames = false →
    (t id).queue.length + ds.countP (·.connection = id) ≤ (t id).capacity

namespace Connections

variable {t : Connections} {d : Delivery} {ds : List Delivery}

theorem HaveRoom.head (h : t.HaveRoom (d :: ds)) (hd : (t d.connection).refusesFrames = false) :
    (t d.connection).queue.length < (t d.connection).capacity := by
  have hroom := h d.connection hd
  rw [List.countP_cons_of_pos (by simp)] at hroom
  omega

/-- What is written to one connection leaves enough room for the others, itself included. -/
theorem HaveRoom.tail (h : t.HaveRoom (d :: ds)) (bytes : Bytes) :
    (t.set d.connection ((t d.connection).pushed bytes 1)).HaveRoom ds := by
  intro id hid
  by_cases heq : id = d.connection
  · subst heq
    rw [set_self] at hid ⊢
    rw [Connection.refusesFrames_pushed] at hid
    have hroom := h d.connection hid
    rw [List.countP_cons_of_pos (by simp), Nat.add_comm _ 1, ← Nat.add_assoc] at hroom
    simpa [Connection.queue_pushed, hid] using hroom
  · rw [set_of_ne t heq] at hid ⊢
    have hroom := h id hid
    rwa [List.countP_cons_of_neg (by simpa using Ne.symm heq)] at hroom

end Connections

/-- **A failure stops nothing.** One frame is written to some connections: those that take frames get
it as often as they are listed, the others are reported, and both reports keep the order. -/
theorem broadcastTo_eq (m : Message) (ds : List Delivery) (report : BroadcastReport)
    (t : Connections) (hroom : t.HaveRoom ds) :
    broadcastTo m ds (report, t) =
      ({ delivered := report.delivered ++ ds.filter fun d => !(t d.connection).refusesFrames
         failed := report.failed ++
          (ds.filter fun d => (t d.connection).refusesFrames).map (·, .closed) },
        fun id => (t id).pushed m.encode (ds.countP (·.connection = id))) := by
  induction ds generalizing report t with
  | nil => simp [broadcastTo]
  | cons d rest ih =>
    have hsame : ∀ id, (t.set d.connection ((t d.connection).pushed m.encode 1) id).refusesFrames =
        (t id).refusesFrames := by
      intro id
      by_cases heq : id = d.connection
      · rw [heq, Connections.set_self]
        rfl
      · rw [Connections.set_of_ne t heq]
    unfold broadcastTo
    rw [Connection.push_of_room hroom.head]
    dsimp only
    rw [ih _ _ (hroom.tail m.encode)]
    simp only [hsame]
    congr 1
    · cases hd : (t d.connection).refusesFrames <;>
        simp [BroadcastReport.note, Connection.promptResult, hd]
    · funext id
      by_cases heq : id = d.connection
      · rw [heq, Connections.set_self, Connection.pushed_pushed,
          List.countP_cons_of_pos (by simp), Nat.add_comm]
      · rw [Connections.set_of_ne t heq, List.countP_cons_of_neg (by simpa using Ne.symm heq)]

/-! ## A broadcast -/

/-- The registry of a server and its connections. -/
structure Roster where
  registry : Registry
  connections : Connections

namespace Roster

/-- Writes a message to all slaves. -/
def broadcast (s : Roster) (m : Message) : BroadcastReport × Roster :=
  let (report, connections) := s.registry.broadcast s.connections m
  (report, { s with connections })

/-- What a broadcast reports and leaves behind. -/
structure Reaches (s : Roster) (m : Message) (report : BroadcastReport) (t : Roster) : Prop where
  /-- The slaves in the order of their ids, each with its connections in the order of joining. -/
  delivered_eq : report.delivered = s.registry.slaveNodes.flatMap fun n =>
    (n.connections.filter fun c => !(s.connections c).refusesFrames).map fun c => ⟨n.id, c⟩
  failed_eq : report.failed = s.registry.slaveNodes.flatMap fun n =>
    (n.connections.filter fun c => (s.connections c).refusesFrames).map fun c => (⟨n.id, c⟩, .closed)
  slaves_sorted : s.registry.slaveNodes.Pairwise fun a b => a.id < b.id
  mem_deliveries_iff : ∀ d, d ∈ s.registry.deliveries ↔
    ∃ n, s.registry.find? d.nodeId = some n ∧ n.role = .slave ∧ d.connection ∈ n.connections
  /-- Each connection of each slave is in one of the two lists, once. -/
  accounted : ∀ d, (report.delivered ++ report.failed.map (·.1)).count d =
    if d ∈ s.registry.deliveries then 1 else 0
  failed_iff : ∀ d e, (d, e) ∈ report.failed ↔
    d ∈ s.registry.deliveries ∧ e = .closed ∧ (s.connections d.connection).refusesFrames = true
  /-- Unless somebody is just closing it, that is whether it is closed. -/
  failed_iff_closed : ∀ d ∈ s.registry.deliveries, (s.connections d.connection).IsResting →
    ((d, .closed) ∈ report.failed ↔ (s.connections d.connection).isClosed = true)
  /-- The frame is queued once for each pair that is reported as delivered. -/
  queue_eq : ∀ id, (t.connections id).queue = (s.connections id).queue ++
    List.replicate (report.delivered.countP (·.connection = id)) m.encode
  queued_eq : ∀ id, (t.connections id).history.queued = (s.connections id).history.queued ++
    List.replicate (report.delivered.countP (·.connection = id)) m.encode
  /-- Neither a master's connection nor one to a replica is touched, unless a slave has it too. -/
  untouched : ∀ id, (∀ key n, s.registry.find? key = some n → n.role = .slave → id ∉ n.connections) →
    t.connections id = s.connections id
  isComplete_iff : report.isComplete = true ↔
    ∀ d ∈ s.registry.deliveries, (s.connections d.connection).refusesFrames = false
  isComplete_iff_open :
    (∀ d ∈ s.registry.deliveries, (s.connections d.connection).IsResting) →
    (report.isComplete = true ↔
      ∀ d ∈ s.registry.deliveries, (s.connections d.connection).isClosed = false)
  registry_eq : t.registry = s.registry

section
variable {s : Roster} {m : Message} {d : Delivery} {id : ConnectionId}
  (hindexed : s.registry.Indexed) (hroom : s.connections.HaveRoom s.registry.deliveries)
include hroom

theorem broadcast_eq : s.broadcast m =
    ({ delivered := s.registry.deliveries.filter fun d => !(s.connections d.connection).refusesFrames
       failed := (s.registry.deliveries.filter fun d =>
        (s.connections d.connection).refusesFrames).map (·, .closed) },
      ⟨s.registry, fun id => (s.connections id).pushed m.encode
        (s.registry.deliveries.countP (·.connection = id))⟩) := by
  unfold broadcast Registry.broadcast
  rw [broadcastTo_eq m _ {} _ hroom]
  rfl

theorem mem_failed_broadcast {e : ConnectionError} : (d, e) ∈ (s.broadcast m).1.failed ↔
    d ∈ s.registry.deliveries ∧ e = .closed ∧ (s.connections d.connection).refusesFrames = true := by
  rw [broadcast_eq hroom]
  simp only [List.mem_map, List.mem_filter, Prod.mk.injEq]
  constructor
  · rintro ⟨d, ⟨hd, hrefuses⟩, rfl, rfl⟩
    exact ⟨hd, rfl, hrefuses⟩
  · rintro ⟨hd, rfl, hrefuses⟩
    exact ⟨d, ⟨hd, hrefuses⟩, rfl, rfl⟩

theorem isComplete_broadcast : (s.broadcast m).1.isComplete = true ↔
    ∀ d ∈ s.registry.deliveries, (s.connections d.connection).refusesFrames = false := by
  rw [broadcast_eq hroom, BroadcastReport.isComplete, List.isEmpty_iff, List.map_eq_nil_iff,
    List.filter_eq_nil_iff]
  simp only [Bool.not_eq_true]

/-- Delivered and failed together are all that is addressed. -/
theorem report_perm : ((s.broadcast m).1.delivered ++ (s.broadcast m).1.failed.map (·.1)).Perm
    s.registry.deliveries := by
  rw [broadcast_eq hroom]
  simp only [List.map_map, Function.comp_def, List.map_id']
  exact List.perm_append_comm.trans (List.filter_append_perm _ _)

/-- A connection turns away all that is addressed to it or nothing. -/
theorem countP_delivered_broadcast : (s.broadcast m).1.delivered.countP (·.connection = id) =
    if (s.connections id).refusesFrames then 0
    else s.registry.deliveries.countP (·.connection = id) := by
  rw [broadcast_eq hroom, List.countP_filter]
  split
  · next hrefuses =>
    refine List.countP_eq_zero.2 fun d _ => ?_
    by_cases heq : d.connection = id <;> simp [heq, hrefuses]
  · next hrefuses =>
    refine List.countP_congr fun d _ => ?_
    by_cases heq : d.connection = id <;> simp [heq, hrefuses]

include hindexed in
theorem untouched_of_no_slave
    (h : ∀ key n, s.registry.find? key = some n → n.role = .slave → id ∉ n.connections) :
    (s.broadcast m).2.connections id = s.connections id := by
  have hnone : s.registry.deliveries.countP (·.connection = id) = 0 := by
    refine List.countP_eq_zero.2 fun d hd heq => ?_
    obtain ⟨n, hfind, hrole, hc⟩ := (hindexed.mem_deliveries d).1 hd
    exact h _ n hfind hrole (of_decide_eq_true heq ▸ hc)
  rw [broadcast_eq hroom]
  dsimp only
  rw [hnone, Connection.pushed_zero]

end

/-- **A broadcast reaches every connection of every slave, once**, in whatever registry some calls
have led to. One that takes no frames any more is reported, and keeps nobody else from the message. -/
theorem reaches_every_slave (calls : List Registry.Call) (connections : Connections) (m : Message)
    (hroom : connections.HaveRoom (Registry.after calls).deliveries) :
    let s : Roster := ⟨.after calls, connections⟩
    s.Reaches m (s.broadcast m).1 (s.broadcast m).2 := by
  intro s
  have hindexed : s.registry.Indexed := Registry.indexed_after calls
  have hroom : s.connections.HaveRoom s.registry.deliveries := hroom
  constructor
  case delivered_eq =>
    rw [broadcast_eq hroom]
    exact Registry.filter_deliveries _ fun c => !(s.connections c).refusesFrames
  case failed_eq =>
    rw [broadcast_eq hroom]
    dsimp only
    rw [Registry.filter_deliveries _ fun c => (s.connections c).refusesFrames, List.map_flatMap]
    simp only [List.map_map, Function.comp_def]
  case slaves_sorted => exact hindexed.pairwise_sorted .slave
  case mem_deliveries_iff => exact hindexed.mem_deliveries
  case accounted =>
    intro d
    rw [(report_perm hroom).count_eq, hindexed.nodup_deliveries.count]
  case failed_iff => exact fun d e => mem_failed_broadcast hroom
  case failed_iff_closed =>
    intro d hd hrest
    rw [mem_failed_broadcast hroom, ← hrest.refusesFrames_eq]
    exact ⟨fun h => h.2.2, fun h => ⟨hd, rfl, h⟩⟩
  case queue_eq =>
    intro id
    rw [countP_delivered_broadcast hroom, broadcast_eq hroom, Connection.queue_pushed]
  case queued_eq =>
    intro id
    rw [countP_delivered_broadcast hroom, broadcast_eq hroom, Connection.queued_pushed]
  case untouched => exact fun id => untouched_of_no_slave hindexed hroom
  case isComplete_iff => exact isComplete_broadcast hroom
  case isComplete_iff_open =>
    intro hrest
    rw [isComplete_broadcast hroom]
    exact forall₂_congr fun d hd => by rw [(hrest d hd).refusesFrames_eq]
  case registry_eq => rw [broadcast_eq hroom]

/-! ### One closed connection among several -/

/-- Slaves with several connections, one of which two of them have; a master, a slave that was
registered as a master once more, a slave that came back as a master, and a replica. -/
private def mixed : List Registry.Call :=
  [.register "b" .slave [] ⟨0⟩, .register "m" .master [] ⟨4⟩, .addConnection "b" ⟨1⟩,
    .register "b" .master [] ⟨2⟩, .register "a" .slave [] ⟨3⟩, .addConnection "a" ⟨0⟩,
    .addReplica "a" ⟨5⟩, .register "d" .slave [] ⟨6⟩, .removeConnection "d" ⟨6⟩,
    .register "d" .master [] ⟨6⟩]

private def oneClosed : Connections := fun id =>
  if id = ⟨1⟩ then { Connection.new {} with closing := .settled .caller (.ok ()) } else .new {}

private def ping : Message := .bare (.ofNat 7) .ping

private def roster : Roster := ⟨.after mixed, oneClosed⟩

private theorem slaveNodes_mixed : (Registry.after mixed).slaveNodes =
    [⟨"a", .slave, [], [⟨3⟩, ⟨0⟩], [⟨5⟩]⟩, ⟨"b", .slave, [], [⟨0⟩, ⟨1⟩, ⟨2⟩], []⟩] :=
  Registry.sorted_unique (by decide) (by decide) (by decide)

private theorem deliveries_mixed : (Registry.after mixed).deliveries =
    [⟨"a", ⟨3⟩⟩, ⟨"a", ⟨0⟩⟩, ⟨"b", ⟨0⟩⟩, ⟨"b", ⟨1⟩⟩, ⟨"b", ⟨2⟩⟩] := by
  rw [Registry.deliveries, slaveNodes_mixed]
  rfl

private theorem haveRoom_oneClosed : oneClosed.HaveRoom (Registry.after mixed).deliveries := by
  intro id _
  have hqueue : (oneClosed id).queue = [] := by unfold oneClosed; split <;> rfl
  have hcapacity : (oneClosed id).capacity = 256 := by unfold oneClosed; split <;> rfl
  rw [hqueue, hcapacity, deliveries_mixed]
  exact Nat.le_trans (Nat.add_le_add_left List.countP_le_length _) (by decide)

/-- The connection of both slaves is written to twice, and the one to a replica not at all. -/
theorem one_closed_connection_is_reported :
    (roster.broadcast ping).1.delivered =
      [⟨"a", ⟨3⟩⟩, ⟨"a", ⟨0⟩⟩, ⟨"b", ⟨0⟩⟩, ⟨"b", ⟨2⟩⟩] ∧
    (roster.broadcast ping).1.failed = [(⟨"b", ⟨1⟩⟩, .closed)] ∧
    (roster.broadcast ping).1.isComplete = false ∧
    ((roster.broadcast ping).2.connections ⟨0⟩).queue = [ping.encode, ping.encode] ∧
    (roster.broadcast ping).2.connections ⟨5⟩ = .new {} := by
  have h := reaches_every_slave mixed oneClosed ping haveRoom_oneClosed
  have hdelivered : (roster.broadcast ping).1.delivered =
      [⟨"a", ⟨3⟩⟩, ⟨"a", ⟨0⟩⟩, ⟨"b", ⟨0⟩⟩, ⟨"b", ⟨2⟩⟩] := by
    refine h.delivered_eq.trans ?_
    dsimp only
    rw [slaveNodes_mixed]
    rfl
  have hfailed : (roster.broadcast ping).1.failed = [(⟨"b", ⟨1⟩⟩, .closed)] := by
    refine h.failed_eq.trans ?_
    dsimp only
    rw [slaveNodes_mixed]
    rfl
  refine ⟨hdelivered, hfailed, ?_, ?_, h.untouched ⟨5⟩ fun key n hfind hrole hc => ?_⟩
  · rw [BroadcastReport.isComplete, hfailed]
    rfl
  · refine (h.queue_eq ⟨0⟩).trans ?_
    change _ ++ List.replicate ((roster.broadcast ping).1.delivered.countP _) _ = _
    rw [hdelivered]
    rfl
  · have hmem := (h.mem_deliveries_iff ⟨key, ⟨5⟩⟩).2 ⟨n, hfind, hrole, hc⟩
    simp [deliveries_mixed] at hmem

end Roster
end ClusterLink
