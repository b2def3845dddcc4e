import ClusterLink.Proofs.Frame.Arrival
/-!
# Why the frames come to an end

The bytes that can arrive from a source end with the stream or with a failure. The frames that are
read are the longest run of whole frames of an allowed size at the front of these bytes. What is left
behind them, together with what the bytes end with, decides why there is no further frame.

Results:
* `fill_flowing`: how a source that gives no more bytes is told from one that failed.
* `read_of_whole`, `read_of_fault`: what reading a frame comes to.
* `exists_framing`: all bytes are whole frames and a rest with a fault.
* `readAll_of_framing`, `Framing.longest`: reading all frames comes to just these.
-/
namespace ClusterLink.Frame

/-- What the bytes of some events end with: a failure, or nothing where the stream ends. -/
def failureFrom : List ReadEvent → Option IoError
  | [] => none
  | .data bytes :: later => if bytes = [] then none else failureFrom later
  | .failure e :: later => if e.kind = .interrupted then failureFrom later else some e

namespace Source

/-- The failure behind the bytes that can arrive, unless the stream ends there. -/
def failure? (s : Source) : Option IoError := failureFrom s.upcoming

/-- Whether each piece that the source gives of its bytes has at least one of them. -/
def Flows (s : Source) : Prop := s.chunk ≠ some 0

instance (s : Source) : Decidable s.Flows := inferInstanceAs (Decidable (s.chunk ≠ some 0))

variable {s t : Source} {room : Nat} {r : Except IoError Bytes}

theorem arriving_of_flows (hs : s.Flows) : s.arriving = s.current ++ arrivingFrom s.upcoming :=
  if_neg hs

theorem takeCurrent_ne_nil_of_flows (hs : s.Flows) (hr : room ≠ 0) (hc : s.current ≠ []) :
    (s.takeCurrent room).1 ≠ [] := by
  intro hnil
  have hnone := arriving_of_takeCurrent_nil hr hc hnil
  rw [arriving_of_flows hs, List.append_eq_nil_iff] at hnone
  exact hc hnone.1

/-- What the outcome of a read call tells of the failure behind the bytes: no bytes mean that there
is none, and a failure that does not pass is the one. -/
def Finds (s t : Source) : Except IoError Bytes → Prop
  | .ok [] => s.failure? = none
  | .ok (_ :: _) => t.failure? = s.failure?
  | .error e => if e.kind = .interrupted then t.failure? = s.failure? else s.failure? = some e

theorem read_flowing (hs : s.Flows) (hr : room ≠ 0) (h : s.read room = (r, t)) :
    t.Flows ∧ Finds s t r := by
  unfold read at h
  split at h
  · next hc hu =>
    cases h
    exact ⟨hs, by simp [Finds, failure?, hu, failureFrom]⟩
  · next e later hc hu =>
    cases h
    refine ⟨hs, ?_⟩
    by_cases hint : e.kind = .interrupted
    · simp [Finds, failure?, hu, failureFrom, hint]
    · simp [Finds, failure?, hu, failureFrom, hint]
  · next bytes later hc hu =>
    cases h
    refine ⟨hs, ?_⟩
    by_cases hb : bytes = []
    · simp [Finds, takeCurrent, hb, failure?, hu, failureFrom]
    · have hflows : ({ s with current := bytes, upcoming := later } : Source).Flows := hs
      obtain ⟨x, xs, hx⟩ :=
        List.exists_cons_of_ne_nil (takeCurrent_ne_nil_of_flows hflows hr hb)
      rw [hx]
      simp [Finds, takeCurrent, failure?, hu, failureFrom, hb]
  · next x xs hc =>
    cases h
    refine ⟨hs, ?_⟩
    obtain ⟨y, ys, hy⟩ := List.exists_cons_of_ne_nil
      (takeCurrent_ne_nil_of_flows hs hr (by rw [hc]; exact List.cons_ne_nil x xs))
    rw [hy]
    rfl

end Source

variable {s t : Source} {want : Nat}

/-! ## Filling -/

/-- What asking for more bytes than can arrive comes to. -/
def Fill.lacking (want got : Nat) : Option IoError → Fill want
  | none => .short got
  | some e => .failed e

theorem Fill.prepend_lacking (front : Bytes) (h : front.length ≤ want) (got : Nat)
    (failure : Option IoError) :
    (Fill.lacking (want - front.length) got failure).prepend front h =
      Fill.lacking want (front.length + got) failure := by
  cases failure <;> rfl

/-- Bytes that can arrive leave the failure behind them; bytes that cannot find it. -/
theorem fill_flowing (hs : s.Flows) (want : Nat) :
    (want ≤ s.arriving.length → (fill s want).2.Flows ∧ (fill s want).2.failure? = s.failure?) ∧
      (s.arriving.length < want →
        (fill s want).1 = Fill.lacking want s.arriving.length s.failure?) := by
  fun_induction fill s want with
  | case1 s => exact ⟨fun _ => ⟨hs, rfl⟩, fun hlt => absurd hlt (Nat.not_lt_zero _)⟩
  | case2 s want hw t hread =>
    obtain ⟨-, hnone⟩ := Source.read_flowing hs hw hread
    obtain ⟨hnil, -⟩ | ⟨b, more, he, -⟩ | ⟨e, he, -⟩ := Source.read_arriving hw hread
    · rw [hnil, hnone]
      exact ⟨fun hle => absurd (Nat.le_zero.1 hle) hw, fun _ => rfl⟩
    · cases he
    · cases he
  | case3 s want hw b more t hread rest ih =>
    obtain ⟨ht, hsame⟩ := Source.read_flowing hs hw hread
    obtain ⟨-, he | ⟨e, he, -⟩⟩ | ⟨b', more', he, harr⟩ | ⟨e, he, -⟩ :=
      Source.read_arriving hw hread
    · cases he
    · cases he
    · cases he
      have hle := Source.length_read hread
      have hlen : s.arriving.length = (b :: more).length + t.arriving.length := by
        rw [harr, List.length_append]
      obtain ⟨hfull, hlack⟩ := ih ht
      refine ⟨fun hw' => ?_, fun hw' => ?_⟩
      · rw [← hsame]
        exact hfull (by omega)
      · have hrest : rest.1 = Fill.lacking (want - (b :: more).length) t.arriving.length
            t.failure? := hlack (by omega)
        rw [hrest, Fill.prepend_lacking, hlen, hsame]
    · cases he
  | case4 s want hw e t hread hint ih =>
    obtain ⟨ht, hsame⟩ := Source.read_flowing hs hw hread
    simp only [Source.Finds, hint, if_true] at hsame
    obtain ⟨-, he | ⟨e', he, hno⟩⟩ | ⟨b, more, he, -⟩ | ⟨e', -, -, harr⟩ :=
      Source.read_arriving hw hread
    · cases he
    · cases he
      exact absurd hint hno
    · cases he
    · rw [← harr, ← hsame]
      exact ih ht
  | case5 s want hw e t hread hint =>
    obtain ⟨-, hsome⟩ := Source.read_flowing hs hw hread
    simp only [Source.Finds, hint, if_false] at hsome
    obtain ⟨hnil, -⟩ | ⟨b, more, he, -⟩ | ⟨e', he, hk, -⟩ := Source.read_arriving hw hread
    · rw [hnil, hsome]
      exact ⟨fun hle => absurd (Nat.le_zero.1 hle) hw, fun _ => rfl⟩
    · cases he
    · cases he
      exact absurd hk hint

/-- A source whose bytes start with a header has that read off. -/
theorem fill_header (hs : s.Flows) {head : Header} {rest : Bytes}
    (h : s.arriving = head.encode ++ rest) :
    ∃ t, fill s headerSize = (.full head.encode head.length_encode, t) ∧ t.arriving = rest ∧
      t.Flows ∧ t.failure? = s.failure? := by
  obtain ⟨t, hfill, hrest⟩ := fill_append h head.length_encode
  have hflows := (fill_flowing hs headerSize).1
    (by rw [h, List.length_append, head.length_encode]; exact Nat.le_add_right ..)
  rw [hfill] at hflows
  exact ⟨t, hfill, hrest, hflows⟩

/-! ## Faults -/

/-- How the end of the bytes is reported where more are needed: a failure goes before what the end
of the stream means there. -/
def reported (atEnd : FrameError) : Option IoError → FrameError
  | none => atEnd
  | some e => .io e

/-- Why there is no frame at the front of some bytes, given the failure behind them if there is
one. -/
inductive Fault (failure : Option IoError) : Bytes → FrameError → Prop
  | ended : Fault failure [] (reported .ended failure)
  | header {bytes : Bytes} (hne : bytes ≠ []) (hlt : bytes.length < headerSize) :
    Fault failure bytes (reported (.header (.length bytes.length)) failure)
  | body {head : Header} {part : Bytes} (hsize : head.bodySize ≤ maxBodySize)
      (hlt : part.length < head.bodySize.toNat) :
    Fault failure (head.encode ++ part) (reported (.shortBody head.bodySize part.length) failure)
  /-- The size is refused before any of the body is read, so that nothing behind it matters. -/
  | oversized {head : Header} {rest : Bytes} (hsize : maxBodySize < head.bodySize) :
    Fault failure (head.encode ++ rest) (.oversized head.bodySize)

theorem Fault.isDisconnect_iff {failure : Option IoError} {bytes : Bytes} {cause : FrameError}
    (h : Fault failure bytes cause) :
    cause.isDisconnect ↔
      (bytes = [] ∧ failure = none) ∨ ∃ e, cause = .io e ∧ e.kind.isDisconnect := by
  have hlong (head : Header) (more : Bytes) : head.encode ++ more ≠ [] := by
    intro hnil
    have := congrArg List.length hnil
    simp [headerSize] at this
  cases h with
  | ended => cases failure <;> simp [reported, FrameError.isDisconnect]
  | header hne hlt => cases failure <;> simp [reported, FrameError.isDisconnect, hne]
  | body hsize hlt => cases failure <;> simp [reported, FrameError.isDisconnect, hlong]
  | oversized hsize => simp [FrameError.isDisconnect, hlong]

theorem read_ended (hs : s.Flows) (h : s.arriving = []) :
    (read s).1 = .error (reported .ended s.failure?) := by
  obtain ⟨t, hfill⟩ : ∃ t, fill s headerSize = (Fill.lacking headerSize 0 s.failure?, t) :=
    ⟨_, Prod.ext (by rw [(fill_flowing hs headerSize).2 (by simp [h, headerSize]), h]; rfl) rfl⟩
  rw [read, hfill]
  cases s.failure? <;> rfl

theorem read_short (hs : s.Flows) (hne : s.arriving ≠ []) (hlt : s.arriving.length < headerSize) :
    (read s).1 = .error (reported (.header (.length s.arriving.length)) s.failure?) := by
  obtain ⟨got, hgot⟩ := Nat.exists_eq_succ_of_ne_zero fun h => hne (List.length_eq_zero_iff.1 h)
  obtain ⟨t, hfill⟩ :
      ∃ t, fill s headerSize = (Fill.lacking headerSize (got + 1) s.failure?, t) :=
    ⟨_, Prod.ext (by rw [(fill_flowing hs headerSize).2 hlt, hgot]) rfl⟩
  rw [read, hfill, hgot]
  cases s.failure? <;> rfl

theorem read_oversized (hs : s.Flows) {head : Header} {rest : Bytes}
    (h : s.arriving = head.encode ++ rest) (hsize : maxBodySize < head.bodySize) :
    (read s).1 = .error (.oversized head.bodySize) := by
  obtain ⟨t, hhead, -⟩ := fill_header hs h
  have hbig : maxBodySize < head.normalized.bodySize := hsize
  simp only [read, hhead, Header.decode_encode, if_pos hbig]
  rfl

theorem read_cut (hs : s.Flows) {head : Header} {part : Bytes}
    (h : s.arriving = head.encode ++ part) (hsize : head.bodySize ≤ maxBodySize)
    (hlt : part.length < head.bodySize.toNat) :
    (read s).1 = .error (reported (.shortBody head.bodySize part.length) s.failure?) := by
  obtain ⟨t, hhead, rfl, ht, hsame⟩ := fill_header hs h
  obtain ⟨u, hbody⟩ : ∃ u, fill t head.normalized.bodySize.toNat =
      (Fill.lacking head.normalized.bodySize.toNat t.arriving.length t.failure?, u) :=
    ⟨_, Prod.ext ((fill_flowing ht _).2 hlt) rfl⟩
  have hallowed : ¬ maxBodySize < head.normalized.bodySize := UInt32.not_lt.2 hsize
  simp only [read, hhead, Header.decode_encode, if_neg hallowed, hbody, hsame]
  cases s.failure? <;> rfl

/-- **A frame is refused for what is wrong with the bytes at the front and for nothing else.** -/
theorem read_of_fault (hs : s.Flows) {cause : FrameError} (h : Fault s.failure? s.arriving cause) :
    (read s).1 = .error cause := by
  generalize harr : s.arriving = bytes at h
  cases h with
  | ended => exact read_ended hs harr
  | header hne hlt =>
    subst harr
    exact read_short hs hne hlt
  | body hsize hlt => exact read_cut hs harr hsize hlt
  | oversized hsize => exact read_oversized hs harr hsize

/-! ## All frames of a source -/

/-- Whether the other end reads the frame of a message as this message and no other. -/
def Whole (m : Message) : Prop := m.Readable ∧ m.normalized = m

instance (m : Message) : Decidable (Whole m) :=
  inferInstanceAs (Decidable (m.body.length ≤ maxBodySize.toNat ∧ m.normalized = m))

/-- Some bytes, with the failure behind them if there is one, are whole frames and a rest that no
frame stands in front of. -/
structure Framing (failure : Option IoError) (bytes : Bytes) (frames : List Message) (rest : Bytes)
    (cause : FrameError) : Prop where
  whole : ∀ m ∈ frames, Whole m
  eq_append : bytes = (frames.map Message.encode).flatten ++ rest
  fault : Fault failure rest cause

/-- Bytes that no frame stands in front of have a fault. -/
theorem exists_fault_or_frame (failure : Option IoError) (bytes : Bytes) :
    (∃ cause, Fault failure bytes cause) ∨ ∃ m rest, Whole m ∧ bytes = m.encode ++ rest := by
  by_cases hne : bytes = []
  · subst hne
    exact Or.inl ⟨_, .ended⟩
  by_cases hlt : bytes.length < headerSize
  · exact Or.inl ⟨_, .header hne hlt⟩
  have hlen : (bytes.take headerSize).length = headerSize :=
    List.length_take_of_le (Nat.le_of_not_lt hlt)
  obtain ⟨head, hdec⟩ : ∃ head, Header.decode (bytes.take headerSize) = .ok head := by
    cases hdec : Header.decode (bytes.take headerSize) with
    | ok head => exact ⟨head, rfl⟩
    | error e => exact absurd hlen (Header.decode_eq_error_iff.1 hdec).1
  have hbytes : bytes = head.encode ++ bytes.drop headerSize := by
    rw [Header.encode_of_decode hdec, List.take_append_drop]
  generalize bytes.drop headerSize = part at hbytes
  subst hbytes
  by_cases hbig : maxBodySize < head.bodySize
  · exact Or.inl ⟨_, .oversized hbig⟩
  have hsize := UInt32.not_lt.1 hbig
  by_cases hcut : part.length < head.bodySize.toNat
  · exact Or.inl ⟨_, .body hsize hcut⟩
  have hbody : (part.take head.bodySize.toNat).length = head.bodySize.toNat :=
    List.length_take_of_le (Nat.le_of_not_lt hcut)
  obtain ⟨henc, hnorm⟩ := encode_assemble hdec hbody
  refine Or.inr ⟨_, part.drop head.bodySize.toNat, ⟨?_, hnorm⟩, ?_⟩
  · rw [Message.Readable]
    exact Nat.le_trans (Nat.le_of_eq hbody) (UInt32.le_iff_toNat_le.1 hsize)
  · rw [henc, ← Header.encode_of_decode hdec, List.append_assoc, List.take_append_drop]

/-- **All bytes are whole frames and a rest with a fault.** -/
theorem exists_framing (failure : Option IoError) (bytes : Bytes) :
    ∃ frames rest cause, Framing failure bytes frames rest cause := by
  induction hn : bytes.length using Nat.strongRecOn generalizing bytes with
  | ind n ih =>
    obtain ⟨cause, hfault⟩ | ⟨m, rest, hwhole, rfl⟩ := exists_fault_or_frame failure bytes
    · exact ⟨[], bytes, cause, by simp, by simp, hfault⟩
    · obtain ⟨frames, tail, cause, hmore⟩ := ih rest.length
        (by rw [← hn, List.length_append, Message.length_encode, headerSize]; omega) rest rfl
      exact ⟨m :: frames, tail, cause, List.forall_mem_cons.2 ⟨hwhole, hmore.whole⟩,
        by rw [hmore.eq_append]; simp, hmore.fault⟩

/-- A whole frame at the front is taken, and nothing behind it is touched. -/
theorem read_of_whole (hs : s.Flows) {m : Message} (hm : Whole m) {rest : Bytes}
    (h : s.arriving = m.encode ++ rest) :
    ∃ t, read s = (.ok m, t) ∧ t.arriving = rest ∧ t.Flows ∧ t.failure? = s.failure? := by
  rw [Message.encode, List.append_assoc] at h
  obtain ⟨t, hhead, hbody, ht, hsame⟩ := fill_header hs h
  have hsize : m.body.length = m.header.normalized.bodySize.toNat :=
    m.toNat_bodySize_header.symm
  obtain ⟨u, hfill, hrest⟩ := fill_append hbody hsize
  have hflows := (fill_flowing ht m.header.normalized.bodySize.toNat).1
    (by rw [hbody, List.length_append, hsize]; exact Nat.le_add_right ..)
  rw [hfill] at hflows
  have hallowed : ¬ maxBodySize < m.header.normalized.bodySize := by
    rw [UInt32.not_lt, UInt32.le_iff_toNat_le, ← hsize]
    exact hm.1
  refine ⟨u, ?_, hrest, hflows.1, hflows.2.trans hsame⟩
  simp only [read, hhead, Header.decode_encode, if_neg hallowed, hfill]
  exact congrArg (fun n => (Except.ok n, u)) hm.2

theorem readAll_cons {m : Message} (h : read s = (.ok m, t)) :
    readAll s = (m :: (readAll t).1, (readAll t).2) := by
  rw [readAll]
  split
  · next e u h' => rw [h] at h'; cases h'
  · next n u h' => rw [h] at h'; cases h'; rfl

theorem readAll_nil {cause : FrameError} (h : read s = (.error cause, t)) :
    readAll s = ([], cause, t) := by
  rw [readAll]
  split
  · next e u h' => rw [h] at h'; cases h'; rfl
  · next n u h' => rw [h] at h'; cases h'

variable {frames others : List Message} {rest tail : Bytes} {cause : FrameError}

/-- **Reading all frames of a source takes those that its bytes are made of, and stops for the fault
behind them.** -/
theorem readAll_of_framing (hs : s.Flows) (h : Framing s.failure? s.arriving frames rest cause) :
    ∃ t, readAll s = (frames, cause, t) := by
  induction frames generalizing s with
  | nil =>
    have hfault : Fault s.failure? s.arriving cause := by simpa [h.eq_append] using h.fault
    exact ⟨_, readAll_nil (Prod.ext (read_of_fault hs hfault) rfl)⟩
  | cons m more ih =>
    obtain ⟨hm, hmore⟩ := List.forall_mem_cons.1 h.whole
    have heq : s.arriving = m.encode ++ ((more.map Message.encode).flatten ++ rest) := by
      simpa using h.eq_append
    obtain ⟨t, hread, harr, ht, hsame⟩ := read_of_whole hs hm heq
    obtain ⟨u, hu⟩ := ih ht ⟨hmore, harr, hsame ▸ h.fault⟩
    exact ⟨u, by rw [readAll_cons hread, hu]⟩

/-- No longer run of whole frames stands at the front of what arrives from a source. -/
theorem Framing.longest (hs : s.Flows) (h : Framing s.failure? s.arriving frames rest cause)
    (hothers : ∀ m ∈ others, Whole m)
    (heq : s.arriving = (others.map Message.encode).flatten ++ tail) : others <+: frames := by
  obtain ⟨u, hall⟩ := readAll_of_framing hs h
  rw [show frames = (readAll s).1 from by rw [hall]]
  clear h hall
  induction others generalizing s with
  | nil => exact List.nil_prefix
  | cons m more ih =>
    obtain ⟨hm, hmore⟩ := List.forall_mem_cons.1 hothers
    have hfirst : s.arriving = m.encode ++ ((more.map Message.encode).flatten ++ tail) := by
      simpa using heq
    obtain ⟨t, hread, harr, ht, -⟩ := read_of_whole hs hm hfirst
    rw [readAll_cons hread]
    exact List.cons_prefix_cons.2 ⟨rfl, ih ht hmore harr⟩

end ClusterLink.Frame
