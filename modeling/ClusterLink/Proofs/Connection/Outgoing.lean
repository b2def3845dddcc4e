import ClusterLink.Connection.Calls
import Mathlib.Algebra.GroupWithZero.Nat
/-!
# What a connection sends

Frames go through a bounded queue to one writer, which puts them on the socket piece by piece. While
nobody closes the connection and the socket does not fail, the bytes on the socket, those that the
writer still has and those in the queue are, one behind the other, the frames that were queued.

Results:
* `Connection.write_eq`: what a write comes to on a connection in whatever state.
* `Connection.stepWriter_outgoing`: what a step of the writer does to what is sent.
* `Outgoing.Sound.writerStep`, `Outgoing.Sound.enqueue`: what is sent is what was queued.
* `Connection.exists_writer_step`: the writer can go on until all is on the socket.
-/
namespace ClusterLink

/-- The bytes of its frame that the writer has not put on the socket. -/
def Writer.unwritten : Writer → Bytes
  | holding frame => frame
  | writing frame done => frame.drop done
  | _ => []

/-- Whether the writer waits for a frame or is writing one. -/
def Writer.IsAtWork : Writer → Prop
  | idle | holding _ => True
  | writing frame done => done ≤ frame.length
  | _ => False

theorem Writer.IsAtWork.isServing {w : Writer} (h : w.IsAtWork) : w.isServing = true := by
  cases w with
  | idle | holding | writing => rfl
  | _ => exact h.elim

/-- A step of a writer that is neither closed nor failing. -/
def WriterEvent.isCalm : WriterEvent → Bool
  | fetch | look | accept _ | interrupted | flush => true
  | _ => false

/-- The part of a connection that has to do with sending. -/
structure Outgoing where
  wire : Bytes
  writer : Writer
  queue : List Bytes
  queued : List Bytes

def Connection.outgoing (c : Connection) : Outgoing := ⟨c.wire, c.writer, c.queue, c.history.queued⟩

namespace Outgoing

variable {o p : Outgoing}

/-- A frame is put into the queue. -/
def enqueue (o : Outgoing) (frame : Bytes) : Outgoing :=
  { o with queue := o.queue ++ [frame], queued := o.queued ++ [frame] }

/-- A message is queued if there is one. -/
def send (o : Outgoing) : Option Message → Outgoing
  | some m => o.enqueue m.encode
  | none => o

/-- What a calm step of the writer does. -/
inductive WriterStep (o : Outgoing) : WriterEvent → Outgoing → Prop
  | fetch {frame : Bytes} {later : List Bytes} (hw : o.writer = .idle)
      (hq : o.queue = frame :: later) :
    WriterStep o .fetch { o with writer := .holding frame, queue := later }
  | look {frame : Bytes} (hw : o.writer = .holding frame) :
    WriterStep o .look { o with writer := .writing frame 0 }
  | accept {frame : Bytes} {done n : Nat} (hw : o.writer = .writing frame done) (hn : 0 < n)
      (hle : done + n ≤ frame.length) :
    WriterStep o (.accept n)
      { o with writer := .writing frame (done + n), wire := o.wire ++ (frame.drop done).take n }
  | interrupted : WriterStep o .interrupted o
  | flush {frame : Bytes} (hw : o.writer = .writing frame frame.length) :
    WriterStep o .flush { o with writer := .idle }

/-- What one step does to what is sent: nothing, some writing, or a frame more in the queue. The
list names the messages that are queued. -/
inductive Advances (o : Outgoing) : List Message → Outgoing → Prop
  | rest : Advances o [] o
  | write {e : WriterEvent} {p : Outgoing} (h : o.WriterStep e p) : Advances o [] p
  | enqueue (m : Message) : Advances o [m] (o.enqueue m.encode)

/-- Whether what was sent and what is to be sent is what was queued. -/
structure Sound (o : Outgoing) : Prop where
  writer : o.writer.IsAtWork
  bytes : o.wire ++ (o.writer.unwritten ++ o.queue.flatten) = o.queued.flatten

/-- How much the writer has to do until everything is on the socket. -/
def backlog (o : Outgoing) : Nat :=
  (o.queue.map fun frame => 3 + frame.length).sum +
    match o.writer with
    | .holding frame => 2 + frame.length
    | .writing frame done => 1 + (frame.length - done)
    | _ => 0

namespace Sound

theorem enqueue (h : o.Sound) (frame : Bytes) : (o.enqueue frame).Sound where
  writer := h.writer
  bytes := by
    simp only [Outgoing.enqueue, List.flatten_append, List.flatten_singleton, ← h.bytes,
      List.append_assoc]

theorem writerStep {e : WriterEvent} (h : o.Sound) (hs : o.WriterStep e p) : p.Sound := by
  have hbytes := h.bytes
  cases hs with
  | fetch hw hq =>
    refine ⟨trivial, ?_⟩
    rw [← hbytes, hw, hq]
    simp [Writer.unwritten]
  | look hw =>
    refine ⟨Nat.zero_le _, ?_⟩
    rw [← hbytes, hw]
    simp [Writer.unwritten]
  | @accept frame done n hw hn hle =>
    refine ⟨hle, ?_⟩
    rw [← hbytes, hw]
    simp only [Writer.unwritten, List.append_assoc, List.append_cancel_left_eq]
    rw [← List.append_assoc, ← List.drop_drop, List.take_append_drop]
  | interrupted => exact h
  | flush hw =>
    refine ⟨trivial, ?_⟩
    rw [← hbytes, hw]
    simp [Writer.unwritten]

/-- With nothing left to write all that was queued is on the socket. -/
theorem wire_of_idle (h : o.Sound) (hw : o.writer = .idle) (hq : o.queue = []) :
    o.wire = o.queued.flatten := by
  rw [← h.bytes, hw, hq]
  simp [Writer.unwritten]

theorem wire_isPrefix (h : o.Sound) : o.wire <+: o.queued.flatten := ⟨_, h.bytes⟩

end Sound

/-- Every step of the writer but an interruption leaves it less to do. -/
theorem backlog_writerStep {e : WriterEvent} (hs : o.WriterStep e p) (he : e ≠ .interrupted) :
    p.backlog < o.backlog := by
  cases hs with
  | fetch hw hq => simp only [backlog, hw, hq, List.map_cons, List.sum_cons]; omega
  | look hw => simp only [backlog, hw]; omega
  | accept hw hn hle => simp only [backlog, hw]; omega
  | interrupted => exact absurd rfl he
  | flush hw => simp only [backlog, hw]; omega

theorem wire_writerStep {e : WriterEvent} (hs : o.WriterStep e p) : o.wire <+: p.wire := by
  cases hs with
  | accept => exact List.prefix_append ..
  | _ => exact List.prefix_refl _

theorem advances_send (o : Outgoing) (m : Option Message) : o.Advances m.toList (o.send m) := by
  cases m with
  | none => exact .rest
  | some m => exact .enqueue m

theorem queued_writerStep {e : WriterEvent} (hs : o.WriterStep e p) : p.queued = o.queued := by
  cases hs <;> rfl

namespace Advances

variable {more : List Message}

theorem sound (ha : o.Advances more p) (h : o.Sound) : p.Sound := by
  cases ha with
  | rest => exact h
  | write hs => exact h.writerStep hs
  | enqueue m => exact h.enqueue _

theorem queued_eq (ha : o.Advances more p) : p.queued = o.queued ++ more.map Message.encode := by
  cases ha with
  | rest => exact (List.append_nil _).symm
  | write hs => exact (queued_writerStep hs).trans (List.append_nil _).symm
  | enqueue m => rfl

theorem wire_isPrefix (ha : o.Advances more p) : o.wire <+: p.wire := by
  cases ha with
  | write hs => exact wire_writerStep hs
  | _ => exact List.prefix_refl _

end Advances

end Outgoing

namespace Connection

variable {c d : Connection}

/-- What a calm step of the writer does to a connection that nobody closes. -/
theorem stepWriter_outgoing {e : WriterEvent} (hopen : c.isClosed = false)
    (h : c.stepWriter e = some d) (he : e.isCalm = true) :
    c.outgoing.WriterStep e d.outgoing ∧
      d = { c with wire := d.wire, writer := d.writer, queue := d.queue } := by
  revert he
  unfold stepWriter at h
  split at h
  · next hw =>
    split at h
    · next hq => cases h; exact fun _ => ⟨.fetch hw hq, rfl⟩
    · cases h
  · exact fun he => by cases he
  · next hw =>
    simp only [hopen, Bool.false_eq_true, if_false, Option.some.injEq] at h
    subst h
    exact fun _ => ⟨.look hw, rfl⟩
  · next hw =>
    split at h
    · next hn => cases h; exact fun _ => ⟨.accept hw hn.1 hn.2, rfl⟩
    · cases h
  · split at h
    · cases h; exact fun _ => ⟨.interrupted, rfl⟩
    · cases h
  · exact fun he => by cases he
  · next hw =>
    split at h
    · next hd => cases h; subst hd; exact fun _ => ⟨.flush hw, rfl⟩
    · cases h
  · exact fun he => by cases he
  · exact fun he => by cases he
  · exact fun he => by cases he
  · exact fun he => by cases he
  · cases h

/-- A writer that has something to write can go on. -/
theorem exists_writer_step (hwork : c.writer.IsAtWork) (h : c.writer ≠ .idle ∨ c.queue ≠ []) :
    ∃ e d, e.isCalm = true ∧ e ≠ .interrupted ∧ c.stepWriter e = some d := by
  cases hw : c.writer with
  | idle =>
    obtain ⟨frame, later, hq⟩ := List.exists_cons_of_ne_nil (h.resolve_left (absurd hw))
    exact ⟨.fetch, { c with writer := .holding frame, queue := later }, rfl, by decide,
      by simp only [stepWriter, hw, hq]⟩
  | holding frame =>
    exact ⟨.look, { c with writer := if c.isClosed then .leaving (.ok ()) else .writing frame 0 },
      rfl, by decide, by simp only [stepWriter, hw]⟩
  | writing frame done =>
    rw [hw] at hwork
    by_cases hd : done = frame.length
    · exact ⟨.flush, { c with writer := .idle }, rfl, by decide,
        by simp only [stepWriter, hw, if_pos hd]⟩
    · have hle : done ≤ frame.length := hwork
      exact ⟨.accept 1,
        { c with
          writer := .writing frame (done + 1)
          wire := c.wire ++ (frame.drop done).take 1 }, rfl, by decide,
        by simp only [stepWriter, hw, if_pos (show 0 < 1 ∧ done + 1 ≤ frame.length by omega)]⟩
  | _ => rw [hw] at hwork; exact hwork.elim

/-! ## Queueing -/

/-- The connection with one more write. -/
def addWrite (c : Connection) (w : Write) : Connection := { c with writes := c.writes ++ [w] }

@[simp] theorem getElem?_addWrite (c : Connection) (w : Write) :
    (c.addWrite w).writes[c.writes.length]? = some w :=
  List.getElem?_concat_length ..

@[simp] theorem setWrite_addWrite (c : Connection) (w : Write) (stage : WriteStage) :
    (c.addWrite w).setWrite c.writes.length w stage = c.addWrite { w with stage } := by
  simp [setWrite, addWrite]

/-- Whether no frame can be queued any more: the queue cannot be got hold of, or nobody takes frames
off it. -/
def refusesFrames (c : Connection) : Bool := !c.closing.hasQueue || !c.writer.isServing

theorem step_reach (c : Connection) (bytes : Bytes) :
    (c.addWrite ⟨bytes, .entered⟩).step (.writing c.writes.length .reach) =
      some (c.addWrite ⟨bytes, if c.closing.hasQueue then .holding else .ended (.error .closed)⟩) := by
  simp only [step, getElem?_addWrite, Option.bind_some, stepWrite, setWrite_addWrite]
  rfl

theorem step_queue (c : Connection) (bytes : Bytes) :
    (c.addWrite ⟨bytes, .holding⟩).step (.writing c.writes.length .queue) =
      if !c.writer.isServing then some (c.addWrite ⟨bytes, .ended (.error .closed)⟩)
      else if c.queue.length < c.capacity then
        some ((c.addWrite ⟨bytes, .ended (.ok bytes.length)⟩).enqueue bytes)
      else none := by
  simp only [step, getElem?_addWrite, Option.bind_some, stepWrite, setWrite_addWrite]
  rfl

/-- A frame that needs no response is turned away at once if no frame can be queued any more;
otherwise it is queued as soon as there is room. -/
theorem write_eq (c : Connection) (bytes : Bytes) :
    c.write bytes =
      if c.refusesFrames then some (.error .closed, c.addWrite ⟨bytes, .ended (.error .closed)⟩)
      else if c.queue.length < c.capacity then
        some (.ok bytes.length, (c.addWrite ⟨bytes, .ended (.ok bytes.length)⟩).enqueue bytes)
      else none := by
  have hqueued : ((c.addWrite ⟨bytes, .ended (.ok bytes.length)⟩).enqueue bytes).writes[
      c.writes.length]? = some ⟨bytes, .ended (.ok bytes.length)⟩ := getElem?_addWrite ..
  unfold write refusesFrames
  change ((c.addWrite ⟨bytes, .entered⟩).step _).bind _ = _
  rw [step_reach, Option.bind_some]
  cases hqueue : c.closing.hasQueue
  · simp only [getElem?_addWrite, Option.bind_some, Write.result?]
    rfl
  · simp only [if_true, getElem?_addWrite, Option.bind_some, Write.result?, step_queue]
    cases hserving : c.writer.isServing
    · simp only [Bool.not_false, if_true, Option.bind_eq_bind, Option.bind_some, getElem?_addWrite]
      rfl
    · by_cases hroom : c.queue.length < c.capacity
      · simp only [Bool.not_true, Bool.false_eq_true, if_false, if_pos hroom, Option.bind_eq_bind,
          Option.bind_some, hqueued]
        rfl
      · simp only [Bool.not_true, Bool.false_eq_true, if_false, if_neg hroom]
        rfl

/-- A frame that needs no response is queued on an open connection as soon as there is room. -/
theorem write_of_open (hopen : c.closing = .notYet) (hserving : c.writer.isServing = true)
    (bytes : Bytes) :
    c.write bytes = if c.queue.length < c.capacity then
      some (.ok bytes.length, (c.addWrite ⟨bytes, .ended (.ok bytes.length)⟩).enqueue bytes)
    else none := by
  have hrefuses : c.refusesFrames = false := by rw [refusesFrames, hopen, hserving]; rfl
  rw [write_eq, hrefuses, if_neg Bool.false_ne_true]

end Connection

end ClusterLink
