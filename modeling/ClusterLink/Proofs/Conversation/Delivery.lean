import ClusterLink.Conversation
import ClusterLink.Proofs.Connection.Outgoing
import ClusterLink.Proofs.Frame.Arrival
import Mathlib.Data.List.Infix
/-!
# Frames on their way

The frames that one end queues come in at the other in their order, each of them once, however the
writer and the network cut the bytes. At any time some of them were read and the others are on their
way: in the queue, with the writer, on the wire or before the reader.

Results:
* `Outgoing.Delivers.advance`, `Outgoing.Delivers.arrive`, `Outgoing.Delivers.take`: every step on
  the way from one end to the other keeps the frames and their order.
* `Outgoing.Delivers.all_read`: where no such step is left, every frame was read.
-/
namespace ClusterLink

namespace Frame

/-- A frame that is taken off a byte string stood in front of the rest of it. -/
theorem eq_encode_of_parse {bytes rest : Bytes} {m : Message} (h : parse bytes = (.ok m, rest)) :
    m.Readable ∧ m.normalized = m ∧ bytes = m.encode ++ rest := by
  simp only [parse] at h
  split at h
  · cases h
  split at h
  · cases h
  next hd hdec =>
  split at h
  · cases h
  next hsize =>
  split at h
  next hlen =>
    cases h
    have hbody := List.length_take_of_le hlen
    obtain ⟨henc, hnorm⟩ := encode_assemble hdec hbody
    refine ⟨?_, hnorm, ?_⟩
    · have hle := UInt32.le_iff_toNat_le.1 (UInt32.not_lt.1 hsize)
      rw [Message.Readable]
      exact Nat.le_trans (List.length_take_le ..) hle
    · rw [henc, List.append_assoc, List.take_append_drop, List.take_append_drop]
  · cases h

/-- What stands in front of a byte string is what is taken off it. -/
theorem eq_normalized_of_parse {bytes rest more later : Bytes} {m x : Message}
    (h : parse bytes = (.ok m, rest)) (hb : bytes ++ more = x.encode ++ later) :
    m = x.normalized ∧ bytes.length = x.encode.length + rest.length := by
  obtain ⟨hread, hnorm, rfl⟩ := eq_encode_of_parse h
  have hfront := parse_encode_append m (rest ++ more)
  rw [if_neg (Nat.not_lt.2 hread), ← List.append_assoc, hb, parse_encode_append, hnorm] at hfront
  split at hfront
  · cases hfront
  · cases hfront
    refine ⟨rfl, ?_⟩
    rw [List.length_append, Message.length_encode, Message.length_encode]
    rfl

end Frame

/-- More has arrived, and no more than what was sent. -/
theorem Transit.arrived_of_arrive {t t' : Transit} {wire : Bytes} {n : Nat}
    (h : t.arrive wire n = some t') : t.arrived < t'.arrived ∧ t'.arrived ≤ wire.length := by
  unfold arrive at h
  split at h
  · next hn =>
    cases h
    exact ⟨Nat.lt_add_of_pos_right hn.1, hn.2⟩
  · cases h

namespace Outgoing

variable {o p : Outgoing} {t t' : Transit} {front back more : List Message}
  {arrivals : List Message} {m : Message}

/-- Whether of the messages that one end queued the `front` came in at the other, and the `back` is
on its way. -/
structure Delivers (front back : List Message) (o : Outgoing) (t : Transit)
    (arrivals : List Message) : Prop where
  sound : o.Sound
  queued : o.queued = (front ++ back).map Message.encode
  read : arrivals = front.map Message.normalized
  consumed : t.consumed = (front.map Message.encode).flatten.length
  ordered : t.consumed ≤ t.arrived
  arrived : t.arrived ≤ o.wire.length

namespace Delivers

theorem advance (h : Delivers front back o t arrivals) (hp : o.Advances more p) :
    Delivers front (back ++ more) p t arrivals :=
  { h with
    sound := hp.sound h.sound
    queued := by rw [hp.queued_eq, h.queued, ← List.map_append, List.append_assoc]
    arrived := Nat.le_trans h.arrived hp.wire_isPrefix.length_le }

theorem arrive {n : Nat} (h : Delivers front back o t arrivals) (ha : t.arrive o.wire n = some t') :
    Delivers front back o t' arrivals := by
  unfold Transit.arrive at ha
  split at ha
  · next hn =>
    cases ha
    exact { h with
      ordered := Nat.le_trans h.ordered (Nat.le_add_right ..)
      arrived := hn.2 }
  · cases ha

/-- What was not read yet is the beginning of the frames that are on their way. -/
theorem unread_isPrefix (h : Delivers front back o t arrivals) :
    t.unread o.wire <+: (back.map Message.encode).flatten := by
  have hwire := List.IsPrefix.drop
    ((List.take_prefix t.arrived o.wire).trans h.sound.wire_isPrefix) t.consumed
  rwa [h.queued, List.map_append, List.flatten_append, h.consumed, List.drop_left, ← h.consumed]
    at hwire

theorem length_unread (h : Delivers front back o t arrivals) :
    (t.unread o.wire).length = t.arrived - t.consumed := by
  rw [Transit.unread, List.length_drop, List.length_take, Nat.min_eq_left h.arrived]

/-- The frame that is taken is the oldest of those on their way. -/
theorem take (h : Delivers front back o t arrivals) (ht : t.take? o.wire = some (m, t')) :
    ∃ x later, back = x :: later ∧ m = x.normalized ∧
      Delivers (front ++ [x]) later o t' (arrivals ++ [m]) ∧
      t'.arrived = t.arrived ∧ t.consumed < t'.consumed := by
  unfold Transit.take? at ht
  split at ht
  · next y rest hparse =>
    cases ht
    obtain ⟨bytes, hbytes⟩ := h.unread_isPrefix
    have hlen := h.length_unread
    cases back with
    | nil =>
      rw [List.map_nil, List.flatten_nil, List.append_eq_nil_iff] at hbytes
      rw [hbytes.1] at hparse
      cases hparse
    | cons x later =>
      rw [List.map_cons, List.flatten_cons] at hbytes
      obtain ⟨rfl, hsize⟩ := Frame.eq_normalized_of_parse hparse hbytes
      have hpos : 0 < x.encode.length := by rw [Message.length_encode, headerSize]; omega
      have hord := h.ordered
      have hcons : t.arrived - rest.length = t.consumed + x.encode.length := by omega
      refine ⟨x, later, rfl, rfl, ?_, rfl, ?_⟩
      · refine ⟨h.sound, ?_, ?_, ?_, Nat.sub_le .., h.arrived⟩
        · rw [h.queued, List.append_assoc, List.singleton_append]
        · rw [List.map_append, ← h.read]
          rfl
        · rw [List.map_append, List.flatten_append, List.length_append, ← h.consumed]
          simpa using hcons
      · simp only [hcons]
        omega
  · cases ht

/-- Once everything is written and has come in, and no frame can be taken, all were read. -/
theorem all_read (h : Delivers front back o t arrivals) (hback : ∀ m ∈ back, m.Readable)
    (hw : o.writer = .idle) (hq : o.queue = []) (ha : o.wire.length ≤ t.arrived)
    (ht : t.take? o.wire = none) : back = [] := by
  cases back with
  | nil => rfl
  | cons x later =>
    have hall : t.unread o.wire = x.encode ++ (later.map Message.encode).flatten := by
      rw [Transit.unread, List.take_of_length_le ha, h.sound.wire_of_idle hw hq, h.queued,
        List.map_append, List.flatten_append, h.consumed, List.drop_left, List.map_cons,
        List.flatten_cons]
    have hparse := Frame.parse_encode_append x (later.map Message.encode).flatten
    rw [if_neg (Nat.not_lt.2 (hback x (List.mem_cons_self ..))), ← hall] at hparse
    rw [Transit.take?, hparse] at ht
    cases ht

end Delivers

end Outgoing

end ClusterLink
