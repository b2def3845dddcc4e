import ClusterLink.Proofs.Connection.Exactness
import ClusterLink.Proofs.Connection.Replies
import ClusterLink.Proofs.Connection.Wire
/-!
# What a peer can take

Everything that fits in a frame can be made, queued and written. A reader takes less: it refuses a
frame for its size as soon as it has the header. So it is the size of a body, and nothing else about
the messages that a connection accepts, that can make the frames of the connection unreadable to its
peer.

Results:
* `Frame.exists_stops`: how far reading comes with the first bytes of some frames.
* `Frame.Stops.isFraming_iff`, `Frame.Stops.isFraming_iff_of_all`: when there is an error in them.
* `Connection.exists_messages_of_run`: what messages a connection has accepted.
* `Connection.only_large_bodies_break_the_stream`: this for all that one end accepts and any part of
  it that arrives at the other.
-/
namespace ClusterLink

/-- Whether an error says that the bytes are no frames, and not that no more of them come. -/
def FrameError.isFraming : FrameError → Bool
  | header _ | oversized _ | shortBody .. => true
  | ended | io _ => false

/-- What a stream is found to be that ends within the frame of a message, behind some bytes of it. -/
def Message.tornAt (m : Message) (got : Nat) : FrameError :=
  if got < headerSize then .header (.length got) else .shortBody m.header.bodySize (got - headerSize)

theorem Message.isFraming_tornAt (m : Message) (got : Nat) : (m.tornAt got).isFraming = true := by
  unfold tornAt
  split <;> rfl

/-- What the other end reads is written in the same way. -/
@[simp] theorem Message.encode_normalized (m : Message) : m.normalized.encode = m.encode := by
  simp only [encode, header, normalized, Header.encode, Kind.code_ofCode]

namespace Frame

variable {failure : Option IoError} {messages next : List Message} {m : Message}
  {bytes rest : Bytes} {cause : FrameError}

theorem whole_normalized (h : m.Readable) : Whole m.normalized :=
  ⟨h, by simp only [Message.normalized, Kind.code_ofCode]⟩

/-! ## The first bytes of some frames -/

/-- Why reading stops in front of some messages, if `rest` is what has arrived of their frames. -/
inductive Stops (failure : Option IoError) : List Message → Bytes → FrameError → Prop
  /-- Nothing has arrived. -/
  | between (next : List Message) : Stops failure next [] (reported .ended failure)
  /-- A part of the first frame has arrived, but not so much that its size could be refused. -/
  | within {m : Message} {later : List Message} {part : Bytes} (hpart : part <+: m.encode)
      (hne : part ≠ []) (hlt : part.length < m.encode.length)
      (hsize : m.Readable ∨ part.length < headerSize) :
    Stops failure (m :: later) part (reported (m.tornAt part.length) failure)
  /-- The header of the first frame has arrived, and the size in it is refused. -/
  | refused {m : Message} {later : List Message} {rest : Bytes} (hsize : ¬ m.Readable)
      (hhead : headerSize ≤ rest.length) :
    Stops failure (m :: later) rest (.oversized m.header.bodySize)

/-- What is there of a frame that is too large has a fault once the header is there. -/
theorem fault_of_not_readable (hbig : ¬ m.Readable) {tail : Bytes}
    (h : m.header.encode ++ tail = bytes) : Fault failure bytes (.oversized m.header.bodySize) := by
  subst h
  refine .oversized (UInt32.lt_iff_toNat_lt.2 ?_)
  rw [m.toNat_bodySize_header]
  exact Nat.lt_of_not_le hbig

/-- What is there of a frame has a fault as long as it is not all of it. -/
theorem fault_of_within (hpart : bytes <+: m.encode) (hne : bytes ≠ [])
    (hlt : bytes.length < m.encode.length) (hsize : m.Readable ∨ bytes.length < headerSize) :
    Fault failure bytes (reported (m.tornAt bytes.length) failure) := by
  unfold Message.tornAt
  by_cases hhead : bytes.length < headerSize
  · rw [if_pos hhead]
    exact .header hne hhead
  rw [if_neg hhead]
  have hreadable := hsize.resolve_right hhead
  have hlen : m.header.encode.length ≤ bytes.length := by
    rw [Header.length_encode]
    exact Nat.le_of_not_lt hhead
  obtain ⟨part, rfl⟩ := List.prefix_of_prefix_length_le (List.prefix_append _ _) hpart hlen
  rw [List.length_append, Header.length_encode, Nat.add_sub_cancel_left]
  refine .body (UInt32.le_iff_toNat_le.2 ?_) ?_
  · rw [m.toNat_bodySize_header]
    exact hreadable
  · rw [m.toNat_bodySize_header]
    simpa using hlt

/-- The first bytes of the frames of a message and of others are a part of the first frame, or all of
it and the first bytes of the others. -/
theorem prefix_cases {later : Bytes} (h : bytes <+: m.encode ++ later) :
    (bytes <+: m.encode ∧ bytes.length < m.encode.length) ∨
      ∃ more, bytes = m.encode ++ more ∧ more <+: later := by
  by_cases hlt : bytes.length < m.encode.length
  · exact Or.inl ⟨List.prefix_of_prefix_length_le h (List.prefix_append _ _) (Nat.le_of_lt hlt), hlt⟩
  · obtain ⟨more, rfl⟩ :=
      List.prefix_of_prefix_length_le (List.prefix_append _ _) h (Nat.le_of_not_lt hlt)
    exact Or.inr ⟨more, rfl, (List.prefix_append_right_inj _).1 h⟩

/-- **Reading comes up to the first frame that is not all there, or too large.** -/
theorem exists_stops (failure : Option IoError) (h : bytes <+: (messages.map Message.encode).flatten) :
    ∃ front next rest cause, messages = front ++ next ∧ (∀ m ∈ front, m.Readable) ∧
      Framing failure bytes (front.map Message.normalized) rest cause ∧
      Stops failure next rest cause := by
  induction messages generalizing bytes with
  | nil =>
    obtain rfl : bytes = [] := List.prefix_nil.1 h
    exact ⟨[], [], [], _, rfl, by simp, ⟨by simp, rfl, .ended⟩, .between []⟩
  | cons m later ih =>
    rw [List.map_cons, List.flatten_cons] at h
    by_cases hbig : ¬ m.Readable ∧ headerSize ≤ bytes.length
    · -- The header is there, and nothing behind it matters.
      rw [Message.encode, List.append_assoc] at h
      obtain ⟨tail, htail⟩ := List.prefix_of_prefix_length_le (List.prefix_append _ _) h
        (by rw [Header.length_encode]; exact hbig.2)
      exact ⟨[], _, bytes, _, rfl, by simp, ⟨by simp, rfl, fault_of_not_readable hbig.1 htail⟩,
        .refused hbig.1 hbig.2⟩
    have hsize : m.Readable ∨ bytes.length < headerSize := by
      by_cases hm : m.Readable
      · exact Or.inl hm
      · exact Or.inr (Nat.lt_of_not_le fun hle => hbig ⟨hm, hle⟩)
    obtain ⟨hpart, hlt⟩ | ⟨more, rfl, hmore⟩ := prefix_cases h
    · by_cases hne : bytes = []
      · subst hne
        exact ⟨[], _, [], _, rfl, by simp, ⟨by simp, rfl, .ended⟩, .between _⟩
      · exact ⟨[], _, bytes, _, rfl, by simp,
          ⟨by simp, rfl, fault_of_within hpart hne hlt hsize⟩, .within hpart hne hlt hsize⟩
    · have hlong : ¬ (m.encode ++ more).length < headerSize := by
        rw [List.length_append, Message.length_encode]
        omega
      have hm : m.Readable := hsize.resolve_right hlong
      obtain ⟨front, next, rest, cause, rfl, hfront, hframing, hstops⟩ := ih hmore
      refine ⟨m :: front, next, rest, cause, rfl, List.forall_mem_cons.2 ⟨hm, hfront⟩, ⟨?_, ?_, ?_⟩,
        hstops⟩
      · exact List.forall_mem_cons.2 ⟨whole_normalized hm, hframing.whole⟩
      · rw [hframing.eq_append]
        simp
      · exact hframing.fault

/-- There is an error in the frames exactly if the size of one of them is refused, or the stream has
ended within one. -/
theorem Stops.isFraming_iff (h : Stops failure next rest cause) :
    cause.isFraming = true ↔ ∃ m later, next = m :: later ∧
      (¬ m.Readable ∧ cause = .oversized m.header.bodySize ∨
        failure = none ∧ rest ≠ [] ∧ rest <+: m.encode ∧ rest.length < m.encode.length) := by
  constructor
  · intro hc
    cases h with
    | between => cases failure <;> cases hc
    | @within m later part hpart hne hlt hsize =>
      refine ⟨m, later, rfl, Or.inr ⟨?_, hne, hpart, hlt⟩⟩
      cases failure with
      | none => rfl
      | some e => cases hc
    | @refused m later rest hsize hhead => exact ⟨m, later, rfl, Or.inl ⟨hsize, rfl⟩⟩
  · rintro ⟨m, later, rfl, ⟨-, rfl⟩ | ⟨rfl, hne, -, -⟩⟩
    · rfl
    · cases h with
      | between => exact absurd rfl hne
      | within => exact m.isFraming_tornAt _
      | refused => rfl

/-- **If all the frames have arrived, there is an error in them exactly if one is too large.** -/
theorem Stops.isFraming_iff_of_all (h : Stops failure next rest cause)
    (hall : rest = (next.map Message.encode).flatten) :
    cause.isFraming = true ↔ ∃ m ∈ next, ¬ m.Readable := by
  cases h with
  | between =>
    have hnext : next = [] := by
      cases next with
      | nil => rfl
      | cons m later =>
        have hlen := congrArg List.length hall
        rw [List.map_cons, List.flatten_cons, List.length_append, Message.length_encode] at hlen
        simp only [List.length_nil, headerSize] at hlen
        omega
    subst hnext
    cases failure <;> simp [reported, FrameError.isFraming]
  | @within m later part hpart hne hlt hsize =>
    rw [hall, List.map_cons, List.flatten_cons, List.length_append] at hlt
    exact absurd hlt (Nat.not_lt.2 (Nat.le_add_right ..))
  | @refused m later rest hsize hhead =>
    exact ⟨fun _ => ⟨m, List.mem_cons_self .., hsize⟩, fun _ => rfl⟩

end Frame

namespace ReadLoop

variable {options : ConnectionOptions} {frames : List Message} {rest : Bytes} {cause : FrameError}
  {l : ReadLoop}

/-- Whoever else closes the connection, the reader reports nothing but the cause for which it has no
further frame. -/
theorem Reads.eq_of_ended_error (h : Reads options frames rest cause l) {error : ConnectionError}
    (hended : l.connection.reader = .ended (.error error)) : error = .frame cause := by
  obtain ⟨-, hresult | ⟨hok, -⟩⟩ := h.verdict (.error error) (by rw [hended]; rfl)
  · unfold FrameError.outcome at hresult
    split at hresult
    · cases hresult
    · cases hresult
      rfl
  · cases hok

end ReadLoop

/-- What is to be written from an event on. -/
def ConnectionEvent.written : ConnectionEvent → List Bytes
  | write bytes => [bytes]
  | _ => []

namespace Connection

variable {options : ConnectionOptions} {c d : Connection} {e : ConnectionEvent}
  {events : List ConnectionEvent}

/-! ## What is accepted -/

/-- What one step has queued: the frame of a request or what is to be written, if anything. -/
theorem queued_of_step (h : c.step e = some d) :
    d.history.queued = c.history.queued ∨
      (∃ r ∈ c.requests, d.history.queued = c.history.queued ++ [r.message.encode]) ∨
      ∃ w ∈ c.writes, d.history.queued = c.history.queued ++ [w.bytes] := by
  have hkept {frame : Bytes} (heq : d.outgoing = c.outgoing.enqueue frame) :
      d.history.queued = c.history.queued ++ [frame] := congrArg Outgoing.queued heq
  cases e with
  | request t x =>
    obtain ⟨r, hr, hs⟩ := Option.bind_eq_some_iff.1 h
    by_cases hx : x = .queue
    · obtain heq | heq := queue_sending (hx ▸ hs)
      · exact Or.inl (congrArg Outgoing.queued heq)
      · exact Or.inr (Or.inl ⟨r, List.mem_of_getElem? hr, hkept heq⟩)
    · exact Or.inl (congrArg Outgoing.queued (outgoing_stepRequest hs hx))
  | writing n x =>
    obtain ⟨w, hw, hs⟩ := Option.bind_eq_some_iff.1 h
    obtain heq | heq := stepWrite_sending hs
    · exact Or.inl (congrArg Outgoing.queued heq)
    · exact Or.inr (Or.inr ⟨w, List.mem_of_getElem? hw, hkept heq⟩)
  | writer x => exact Or.inl (queued_stepWriter h)
  | closing x => exact Or.inl (queued_stepClosing h)
  | reader x => exact Or.inl (congrArg Outgoing.queued (outgoing_stepReader h))
  | send m => cases h; exact Or.inl rfl
  | write bytes => cases h; exact Or.inl rfl
  | close =>
    cases h
    unfold beginClose
    split <;> exact Or.inl rfl

/-- The writes of a connection are those that were begun. -/
theorem bytes_of_step (h : c.step e = some d) :
    d.writes.map Write.bytes = c.writes.map Write.bytes ++ e.written := by
  have hkept (hd : d.writes = c.writes) :
      d.writes.map Write.bytes = c.writes.map Write.bytes ++ [] := by rw [hd, List.append_nil]
  cases e with
  | request t x =>
    obtain ⟨r, -, hs⟩ := Option.bind_eq_some_iff.1 h
    exact hkept (stepRequest_writes hs)
  | writing n x =>
    obtain ⟨w, hw, hs⟩ := Option.bind_eq_some_iff.1 h
    have hset (stage : WriteStage) :
        (c.writes.set n { w with stage }).map Write.bytes = c.writes.map Write.bytes ++ [] := by
      obtain ⟨hlt, rfl⟩ := List.getElem?_eq_some_iff.1 hw
      have hmapped : n < (c.writes.map Write.bytes).length := by rwa [List.length_map]
      rw [List.map_set, List.append_nil]
      exact (congrArg _ (List.getElem_map Write.bytes)).symm.trans (List.set_getElem_self hmapped)
    unfold stepWrite at hs
    split at hs
    · cases hs; exact hset _
    · split at hs
      · cases hs; exact hset _
      · split at hs <;> cases hs
        exact hset _
    · cases hs
  | writer x => exact hkept (stepWriter_writes h)
  | closing x =>
    refine hkept ?_
    change c.stepClosing x = some d at h
    unfold stepClosing at h
    split at h <;> cases h <;> rfl
  | reader x => exact hkept (stepReader_writes h)
  | send m => cases h; exact hkept rfl
  | write bytes => cases h; exact List.map_append
  | close => cases h; exact hkept (beginClose_writes c .caller)

/-- If what is written are the frames of messages, all that is queued are frames of messages. -/
theorem exists_messages_of_run (hrun : (new options).run events = some c)
    (hwritten : ∀ bytes, .write bytes ∈ events → ∃ m : Message, bytes = m.encode) :
    ∃ messages : List Message, c.history.queued = messages.map Message.encode := by
  suffices h : (∀ bytes ∈ c.writes.map Write.bytes, .write bytes ∈ events) ∧
      ((∀ bytes, .write bytes ∈ events → ∃ m : Message, bytes = m.encode) →
        ∃ messages : List Message, c.history.queued = messages.map Message.encode) from h.2 hwritten
  refine @Machine.run_induction _ _ (machine options) (fun events c =>
    (∀ bytes ∈ c.writes.map Write.bytes, .write bytes ∈ events) ∧
      ((∀ bytes, .write bytes ∈ events → ∃ m : Message, bytes = m.encode) →
        ∃ messages : List Message, c.history.queued = messages.map Message.encode))
    (new options) c ⟨by simp [new], fun _ => ⟨[], rfl⟩⟩ (fun events u e v _ ih hs => ?_) events hrun
  have hs : u.step e = some v := hs
  constructor
  · intro bytes hbytes
    rw [bytes_of_step hs, List.mem_append] at hbytes
    rw [List.mem_append]
    refine hbytes.imp (ih.1 bytes) fun hmem => ?_
    cases e with
    | write more => rw [List.mem_singleton.1 hmem]; exact List.mem_singleton_self _
    | _ => cases hmem
  · intro hall
    have hbefore : ∀ bytes, .write bytes ∈ events → ∃ m : Message, bytes = m.encode :=
      fun bytes hbytes => hall bytes (List.mem_append_left _ hbytes)
    obtain ⟨messages, hmessages⟩ := ih.2 hbefore
    have hmore (m : Message) (h : v.history.queued = u.history.queued ++ [m.encode]) :
        ∃ messages : List Message, v.history.queued = messages.map Message.encode :=
      ⟨messages ++ [m], by rw [h, hmessages, List.map_append]; rfl⟩
    obtain hsame | ⟨r, -, hqueued⟩ | ⟨w, hw, hqueued⟩ := queued_of_step hs
    · exact ⟨messages, hsame.trans hmessages⟩
    · exact hmore _ hqueued
    · obtain ⟨m, hm⟩ := hbefore w.bytes (ih.1 _ (List.mem_map_of_mem hw))
      exact hmore m (hm ▸ hqueued)

/-- The socket has the first bytes of what was queued. -/
theorem wire_isPrefix_of_run (hrun : (new options).run events = some c) :
    c.wire <+: c.history.queued.flatten := by
  obtain ⟨sent, rest, part, h⟩ := sent_of_run hrun
  rw [show c.history.queued = sent ++ rest from h.queued, List.flatten_append,
    show c.wire = sent.flatten ++ part from h.wire, List.prefix_append_right_inj]
  obtain rfl | ⟨frame, later, rfl, hpart, -⟩ := h.of_part
  · exact List.nil_prefix
  · rw [List.flatten_cons]
    exact hpart.trans (List.prefix_append _ _)

/-! ## Two ends -/

/-- **Only a large body breaks the stream.** One end is asked to send any messages, as requests or
otherwise. While it is open it accepts every message, of whatever size. Some of the bytes that its
socket took arrive at the other end, in any pieces.

The read loop there takes the accepted messages in their order up to the first that is too large, or
not all there. It reports an error in the frames exactly if the size of that one is refused, which
happens as soon as its header is there, or the stream has ended within it. So if all that was
accepted arrives, there is an error in the frames exactly if one of the messages is too large. -/
theorem only_large_bodies_break_the_stream (hrun : (new options).run events = some c)
    (hwritten : ∀ bytes, .write bytes ∈ events → ∃ m : Message, bytes = m.encode) :
    (c.Able options → ∀ m : Message, (c.push m.encode).1 = .ok m.encode.length ∧
      (c.push m.encode).2.history.queued = c.history.queued ++ [m.encode]) ∧
    ∃ messages : List Message, c.history.queued = messages.map Message.encode ∧
      ∀ setup peer (s : Frame.Source), (machine setup).Reachable peer →
        peer.reader = .notStarted → s.Flows → s.arriving <+: c.wire →
        ∃ front next rest cause, messages = front ++ next ∧ (∀ m ∈ front, m.Readable) ∧
          s.arriving = (front.map Message.encode).flatten ++ rest ∧
          Frame.Stops s.failure? next rest cause ∧
          (ReadLoop.mk peer s).ReadsExactly (front.map Message.normalized) cause ∧
          (∀ later l error, (ReadLoop.mk peer s).run later = some l →
            l.connection.reader = .ended (.error error) → error = .frame cause) ∧
          (cause.isFraming = true ↔ ∃ m later, next = m :: later ∧
            (¬ m.Readable ∧ cause = .oversized m.header.bodySize ∨
              s.failure? = none ∧ rest ≠ [] ∧ rest <+: m.encode ∧
                rest.length < m.encode.length)) ∧
          (s.arriving = c.history.queued.flatten →
            (cause.isFraming = true ↔ ∃ m ∈ messages, ¬ m.Readable)) := by
  obtain ⟨messages, hmessages⟩ := exists_messages_of_run hrun hwritten
  refine ⟨fun hable m => push_of_able hable m.encode, messages, hmessages,
    fun setup peer s hpeer hr hs harrived => ?_⟩
  have hprefix := harrived.trans (wire_isPrefix_of_run hrun)
  rw [hmessages] at hprefix
  obtain ⟨front, next, rest, cause, rfl, hfront, hframing, hstops⟩ :=
    Frame.exists_stops s.failure? hprefix
  have heq : s.arriving = (front.map Message.encode).flatten ++ rest := by
    simpa [Function.comp_def] using hframing.eq_append
  refine ⟨front, next, rest, cause, rfl, hfront, heq, hstops,
    ReadLoop.readsExactly hpeer hr hs hframing, ?_, hstops.isFraming_iff, fun hall => ?_⟩
  · intro later l error hl hended
    exact ((ReadLoop.reads_start hpeer hr hs hframing).of_run hl).eq_of_ended_error hended
  · have hrest : rest = (next.map Message.encode).flatten := by
      rw [heq, hmessages, List.map_append, List.flatten_append] at hall
      exact List.append_cancel_left hall
    rw [hstops.isFraming_iff_of_all hrest]
    refine ⟨fun ⟨m, hm, hbig⟩ => ⟨m, List.mem_append_right _ hm, hbig⟩, fun ⟨m, hm, hbig⟩ => ?_⟩
    exact ⟨m, (List.mem_append.1 hm).resolve_left fun h => hbig (hfront m h), hbig⟩

/-! ### One byte too many -/

/-- A body of one byte more than a peer may announce. -/
private def vastBody : Bytes := List.replicate (maxBodySize.toNat + 1) 0

private theorem length_vastBody : vastBody.length = 67108865 := List.length_replicate

private def vast : Message :=
  ⟨.ofNat 1, .select, vastBody, by rw [length_vastBody]; decide⟩

private theorem make_vast : Message.make (.ofNat 1) .select vastBody = .ok vast :=
  dif_pos vast.fits

private theorem not_readable_vast : ¬ vast.Readable := by
  rw [Message.Readable, show vast.body.length = 67108865 from length_vastBody]
  decide

private theorem bodySize_vast : vast.header.bodySize = 67108865 := by
  rw [Message.header, show vast.body.length = 67108865 from length_vastBody]
  rfl

/-- A message is written, and the socket takes all of it at once. -/
private def sending (m : Message) : List ConnectionEvent :=
  [.write m.encode, .writing 0 .reach, .writing 0 .queue, .writer .fetch, .writer .look] ++
    [.writer (.accept m.encode.length), .writer .flush]

private def accepting (m : Message) : Connection :=
  { new {} with
    writes := [⟨m.encode, .ended (.ok m.encode.length)⟩]
    writer := .writing m.encode 0
    history := { queued := [m.encode] } }

private def written (m : Message) : Connection :=
  { accepting m with writer := .writing m.encode m.encode.length, wire := m.encode }

private def sent (m : Message) : Connection := { written m with writer := .idle }

private theorem run_sending (m : Message) : (new {}).run (sending m) = some (sent m) := by
  have hpos : 0 < m.encode.length := by
    rw [Message.length_encode]
    exact Nat.lt_of_lt_of_le (by decide) (Nat.le_add_right ..)
  have hqueued : (new {}).run
      [.write m.encode, .writing 0 .reach, .writing 0 .queue, .writer .fetch, .writer .look] =
      some (accepting m) := rfl
  have haccept : (accepting m).step (.writer (.accept m.encode.length)) = some (written m) := by
    refine (if_pos ⟨hpos, Nat.le_of_eq (Nat.zero_add _)⟩).trans ?_
    rw [Nat.zero_add, List.drop_zero, List.take_length]
    rfl
  have hflush : (written m).step (.writer .flush) = some (sent m) := if_pos rfl
  refine run_append hqueued ?_
  rw [run_cons, haccept, Option.bind_some, run_cons, hflush]
  rfl

private theorem written_of_sending (m : Message) (bytes : Bytes) (h : .write bytes ∈ sending m) :
    ∃ m : Message, bytes = m.encode := by
  refine ⟨m, ?_⟩
  simpa [sending] using h

private theorem flows_ofBytes (bytes : Bytes) : (Frame.Source.ofBytes bytes).Flows := by
  intro h
  cases h

private theorem arriving_ofBytes (bytes : Bytes) : (Frame.Source.ofBytes bytes).arriving = bytes := by
  rw [Frame.Source.arriving_of_flows (flows_ofBytes bytes)]
  exact List.append_nil _

private def notice : Message := ⟨.ofNat 2, .select, [6, 6, 7, 8], by decide⟩

theorem the_size_decides_whether_a_frame_is_read :
    ((new {}).run (sending vast) = some (sent vast) ∧
      ∃ frames cause, (ReadLoop.mk (new {}) (.ofBytes (sent vast).wire)).ReadsExactly frames cause ∧
        cause.isFraming = true) ∧
    (new {}).run (sending notice) = some (sent notice) ∧
      ∃ frames cause,
        (ReadLoop.mk (new {}) (.ofBytes (sent notice).wire)).ReadsExactly frames cause ∧
          cause.isFraming = false := by
  have hends (m : Message) : ∃ frames cause,
      (ReadLoop.mk (new {}) (.ofBytes (sent m).wire)).ReadsExactly frames cause ∧
        (cause.isFraming = true ↔ ¬ m.Readable) := by
    obtain ⟨-, messages, hmessages, hends⟩ :=
      only_large_bodies_break_the_stream (run_sending m) (written_of_sending m)
    have harriving : (Frame.Source.ofBytes (sent m).wire).arriving =
        (sent m).history.queued.flatten :=
      (arriving_ofBytes m.encode).trans (List.append_nil m.encode).symm
    obtain ⟨front, next, rest, cause, -, -, -, -, hexact, -, -, hall⟩ :=
      hends {} (new {}) (.ofBytes (sent m).wire) .start rfl (flows_ofBytes _)
        ((arriving_ofBytes _).symm ▸ List.prefix_refl _)
    refine ⟨_, cause, hexact, (hall harriving).trans ?_⟩
    -- What was queued is one frame, which tells the size of its body.
    have hone : [m.encode] = messages.map Message.encode := hmessages
    obtain ⟨m', rfl, hm'⟩ := List.map_eq_singleton_iff.1 hone.symm
    have hlen : m'.body.length = m.body.length := by
      have := congrArg List.length hm'
      rwa [Message.length_encode, Message.length_encode, Nat.add_left_cancel_iff] at this
    simp only [List.mem_singleton, exists_eq_left, Message.Readable, hlen]
  obtain ⟨frames, cause, hvast, hlarge⟩ := hends vast
  obtain ⟨frames', cause', hnote, hsmall⟩ := hends notice
  refine ⟨⟨run_sending vast, frames, cause, hvast, hlarge.2 not_readable_vast⟩, run_sending notice,
    frames', cause', hnote, ?_⟩
  exact Bool.eq_false_iff.2 fun h => hsmall.1 h (by decide)

/-- A message can be made, the one end accepts it and puts all of it on the socket, and the read loop
at the other end ends with an error in the frames. -/
theorem a_message_is_accepted_and_refused :
    Message.make (.ofNat 1) .select vastBody = .ok vast ∧
      (new {}).run (sending vast) = some (sent vast) ∧
      (sent vast).writes.map Write.result? = [some (.ok vast.encode.length)] ∧
      (sent vast).wire = vast.encode ∧
      ((new {}).serve none (.ofBytes (sent vast).wire)).1.reader =
        .ended (.error (.frame (.oversized 67108865))) := by
  refine ⟨make_vast, run_sending vast, rfl, rfl, ?_⟩
  have hframing : Frame.Framing (Frame.Source.ofBytes vast.encode).failure?
      (Frame.Source.ofBytes vast.encode).arriving [] vast.encode (.oversized 67108865) :=
    ⟨by simp, arriving_ofBytes _, bodySize_vast ▸ Frame.fault_of_not_readable not_readable_vast rfl⟩
  have hexact : (ReadLoop.mk (new {}) (.ofBytes vast.encode)).ReadsExactly []
    (.oversized 67108865) := ReadLoop.readsExactly .start rfl (flows_ofBytes _) hframing
  exact (hexact.serve none rfl trivial (by rintro _ ⟨⟩)).result

end Connection

end ClusterLink
