import ClusterLink.Proofs.Frame.Writing
/-!
# Writing to any sink

A sink may take a part of what it is offered or nothing, may fail a write call or a flush, and may
interrupt a call as often as it likes. What a write call took is a beginning of what is left of the
frame, so what the sink holds of a frame after all calls is a beginning of the frame, and the events
of the sink say which one. Only a whole frame is flushed, and it is flushed once.

Results:
* `Sink.exists_offers`: offering a frame ends, in a number of write calls that the sink bounds.
* `Sink.Offers.stops`: what one run of the loop takes, and which events it uses up.
* `Sink.exists_ending`: the same of a frame, with its flush.
* `Sink.writes_all_or_a_beginning`: what any sequence of frames and messages comes to.
-/
namespace ClusterLink.Frame

/-! ## The loop -/

/-- The bytes that some events take where enough are offered. -/
def room : List WriteEvent → Nat
  | [] => 0
  | .accept most :: later => most + room later
  | .failure _ :: later => room later
  | .flushFailure _ :: later => room later
  | .flushSuccess :: later => room later

/-- An answer to a write call after which the writer goes on with the frame. -/
def WriteEvent.GoesOn : WriteEvent → Prop
  | .accept most => most ≠ 0
  | .failure e => e.kind = .interrupted
  | .flushFailure _ | .flushSuccess => False

namespace Sink

variable {s t u : Sink} {bytes taken frame : Bytes} {used : List WriteEvent} {calls flushes : Nat}

/-- Offering some bytes until all are taken, in so many write calls. What a call comes to decides how
it goes on: what is left is offered next, and an interrupted call is made again. -/
inductive Offers : (calls : Nat) → Sink → Bytes → Except IoError Unit → Sink → Prop
  | all (s : Sink) : Offers 0 s [] (.ok ()) s
  | taken {s t u : Sink} {bytes : Bytes} {calls n : Nat} {result : Except IoError Unit}
      (hbytes : bytes ≠ []) (hwrite : s.write bytes = (.ok (n + 1), t))
      (hlater : Offers calls t (bytes.drop (n + 1)) result u) :
    Offers (calls + 1) s bytes result u
  | stuck {s t : Sink} {bytes : Bytes} (hbytes : bytes ≠ []) (hwrite : s.write bytes = (.ok 0, t)) :
    Offers 1 s bytes (.error .writeZero) t
  | again {s t u : Sink} {bytes : Bytes} {calls : Nat} {result : Except IoError Unit} {e : IoError}
      (hbytes : bytes ≠ []) (hwrite : s.write bytes = (.error e, t))
      (hinterrupted : e.kind = .interrupted) (hlater : Offers calls t bytes result u) :
    Offers (calls + 1) s bytes result u
  | failed {s t : Sink} {bytes : Bytes} {e : IoError} (hbytes : bytes ≠ [])
      (hwrite : s.write bytes = (.error e, t)) (hfatal : e.kind ≠ .interrupted) :
    Offers 1 s bytes (.error e) t

/-- **Offering bytes ends.** -/
theorem exists_offers (s : Sink) (bytes : Bytes) :
    ∃ calls, Offers calls s bytes (s.writeAll bytes).1 (s.writeAll bytes).2 := by
  fun_induction writeAll s bytes with
  | case1 s => exact ⟨0, .all s⟩
  | case2 s bytes hbytes t hwrite => exact ⟨1, .stuck hbytes hwrite⟩
  | case3 s bytes hbytes n t hwrite ih =>
    obtain ⟨calls, hoffers⟩ := ih
    exact ⟨calls + 1, .taken hbytes hwrite hoffers⟩
  | case4 s bytes hbytes e t hwrite hinterrupted ih =>
    obtain ⟨calls, hoffers⟩ := ih
    exact ⟨calls + 1, .again hbytes hwrite hinterrupted hoffers⟩
  | case5 s bytes hbytes e t hwrite hfatal => exact ⟨1, .failed hbytes hwrite hfatal⟩

/-- How offering some bytes stops: the events that are used up, the bytes that are taken, and the
result. The writer goes on after all events but the last, and a part that is taken has the room that
they give. -/
inductive Stops (bytes : Bytes) : List WriteEvent → Bytes → Except IoError Unit → Prop
  | all {used : List WriteEvent} (hgoes : ∀ e ∈ used, e.GoesOn) : Stops bytes used bytes (.ok ())
  | stuck {used : List WriteEvent} (hgoes : ∀ e ∈ used, e.GoesOn)
      (hpart : room used < bytes.length) :
    Stops bytes (used ++ [.accept 0]) (bytes.take (room used)) (.error .writeZero)
  | failed {used : List WriteEvent} {e : IoError} (hgoes : ∀ e ∈ used, e.GoesOn)
      (hpart : room used < bytes.length) (hfatal : e.kind ≠ .interrupted) :
    Stops bytes (used ++ [.failure e]) (bytes.take (room used)) (.error e)

theorem take_append_take_drop {bytes : Bytes} {most n : Nat}
    (h : n < (bytes.drop (min most bytes.length)).length) :
    bytes.take (min most bytes.length) ++ (bytes.drop (min most bytes.length)).take n =
      bytes.take (most + n) ∧ most + n < bytes.length := by
  rw [List.length_drop] at h
  have hmost : min most bytes.length = most := by omega
  rw [hmost] at h ⊢
  exact ⟨List.take_add.symm, by omega⟩

/-- An event that takes some bytes goes before those that are used for what is left. -/
theorem Stops.accept {most : Nat} {result : Except IoError Unit} (hmost : most ≠ 0)
    (h : Stops (bytes.drop (min most bytes.length)) used taken result) :
    Stops bytes (.accept most :: used) (bytes.take (min most bytes.length) ++ taken) result := by
  have hall {used : List WriteEvent} (h : ∀ e ∈ used, e.GoesOn) :
      ∀ e ∈ WriteEvent.accept most :: used, e.GoesOn := List.forall_mem_cons.2 ⟨hmost, h⟩
  cases h with
  | all hgoes =>
    rw [List.take_append_drop]
    exact .all (hall hgoes)
  | stuck hgoes hpart =>
    obtain ⟨htake, hlt⟩ := take_append_take_drop hpart
    rw [htake]
    exact .stuck (hall hgoes) hlt
  | failed hgoes hpart hfatal =>
    obtain ⟨htake, hlt⟩ := take_append_take_drop hpart
    rw [htake]
    exact .failed (hall hgoes) hlt hfatal

theorem Stops.interrupted {e : IoError} {result : Except IoError Unit}
    (he : e.kind = .interrupted) (h : Stops bytes used taken result) :
    Stops bytes (.failure e :: used) taken result := by
  have hall {used : List WriteEvent} (h : ∀ e ∈ used, e.GoesOn) :
      ∀ x ∈ WriteEvent.failure e :: used, x.GoesOn := List.forall_mem_cons.2 ⟨he, h⟩
  cases h with
  | all hgoes => exact .all (hall hgoes)
  | stuck hgoes hpart => exact .stuck (hall hgoes) hpart
  | failed hgoes hpart hfatal => exact .failed (hall hgoes) hpart hfatal

/-- What some calls did to a sink: the events they used up, the bytes they added and the flushes they
asked for. -/
structure Moves (s t : Sink) (used : List WriteEvent) (taken : Bytes) (flushes : Nat) : Prop where
  upcoming : s.upcoming = used ++ t.upcoming
  written : t.written = s.written ++ taken
  flushes : t.flushes = s.flushes + flushes

/-- **What a run of the loop does.** It makes at most one write call more than it uses up events. -/
theorem Offers.stops {result : Except IoError Unit} (h : Offers calls s bytes result t) :
    ∃ used taken, Moves s t used taken 0 ∧ Stops bytes used taken result ∧
      calls ≤ used.length + 1 := by
  induction h with
  | all s => exact ⟨[], [], ⟨rfl, by simp, rfl⟩, .all (by simp), Nat.zero_le _⟩
  | @taken s t u bytes calls n result hbytes hwrite hlater ih =>
    obtain ⟨used, taken, hmoves, hstops, hcalls⟩ := ih
    obtain ⟨hn, rfl⟩ | ⟨most, later, hup, hn, rfl⟩ | ⟨e, later, -, hn, -⟩ := write_cases hwrite
    · -- Nothing is left, so that no further call is made.
      rw [Except.ok.inj hn, List.drop_length] at hlater
      cases hlater with
      | all => exact ⟨[], bytes, ⟨rfl, by simp [Sink.take], rfl⟩, .all (by simp), Nat.le_refl _⟩
      | taken hne => exact absurd rfl hne
      | stuck hne => exact absurd rfl hne
      | again hne => exact absurd rfl hne
      | failed hne => exact absurd rfl hne
    · have hmost : most ≠ 0 := by
        intro h0
        have := Except.ok.inj hn
        omega
      rw [Except.ok.inj hn] at hstops
      refine ⟨_, _, ⟨?_, ?_, hmoves.flushes⟩, hstops.accept hmost, Nat.succ_le_succ hcalls⟩
      · rw [hup, List.cons_append]
        exact congrArg _ hmoves.upcoming
      · rw [hmoves.written, ← List.append_assoc]
        rfl
    · cases hn
  | @stuck s t bytes hbytes hwrite =>
    have hpos : 0 < bytes.length := List.length_pos_iff.2 hbytes
    obtain ⟨hn, -⟩ | ⟨most, later, hup, hn, rfl⟩ | ⟨e, later, -, hn, -⟩ := write_cases hwrite
    · have := Except.ok.inj hn
      omega
    · have hmost : most = 0 := by
        have := Except.ok.inj hn
        omega
      subst hmost
      refine ⟨[.accept 0], [], ⟨hup, ?_, rfl⟩, ?_, Nat.le_add_left ..⟩
      · simp [Sink.take]
      · exact @Stops.stuck bytes [] (by simp) hpos
    · cases hn
  | @again s t u bytes calls result e hbytes hwrite hinterrupted hlater ih =>
    obtain ⟨used, taken, hmoves, hstops, hcalls⟩ := ih
    obtain ⟨hn, -⟩ | ⟨most, later, -, hn, -⟩ | ⟨e', later, hup, hn, rfl⟩ := write_cases hwrite
    · cases hn
    · cases hn
    · cases hn
      refine ⟨_, taken, ⟨?_, hmoves.written, hmoves.flushes⟩, hstops.interrupted hinterrupted,
        Nat.succ_le_succ hcalls⟩
      rw [hup, List.cons_append]
      exact congrArg _ hmoves.upcoming
  | @failed s t bytes e hbytes hwrite hfatal =>
    have hpos : 0 < bytes.length := List.length_pos_iff.2 hbytes
    obtain ⟨hn, -⟩ | ⟨most, later, -, hn, -⟩ | ⟨e', later, hup, hn, rfl⟩ := write_cases hwrite
    · cases hn
    · cases hn
    · cases hn
      refine ⟨[.failure e], [], ⟨hup, by simp, rfl⟩, ?_, Nat.le_add_left ..⟩
      exact @Stops.failed bytes [] e (by simp) hpos hfatal

/-! ## One frame -/

/-- How writing a frame ends: the events that are used up, the bytes that are taken, the flushes that
are asked for, and the result. -/
inductive Ending (frame : Bytes) :
    List WriteEvent → Bytes → (flushes : Nat) → Except FrameError Unit → Prop
  | written {used : List WriteEvent} (hgoes : ∀ e ∈ used, e.GoesOn) :
    Ending frame used frame 1 (.ok ())
  | flushed {used : List WriteEvent} (hgoes : ∀ e ∈ used, e.GoesOn) :
    Ending frame (used ++ [.flushSuccess]) frame 1 (.ok ())
  | unflushed {used : List WriteEvent} {e : IoError} (hgoes : ∀ e ∈ used, e.GoesOn) :
    Ending frame (used ++ [.flushFailure e]) frame 1 (.error (.io e))
  /-- A call that takes nothing. -/
  | stuck {used : List WriteEvent} (hgoes : ∀ e ∈ used, e.GoesOn)
      (hpart : room used < frame.length) :
    Ending frame (used ++ [.accept 0]) (frame.take (room used)) 0 (.error (.io .writeZero))
  | failed {used : List WriteEvent} {e : IoError} (hgoes : ∀ e ∈ used, e.GoesOn)
      (hpart : room used < frame.length) (hfatal : e.kind ≠ .interrupted) :
    Ending frame (used ++ [.failure e]) (frame.take (room used)) 0 (.error (.io e))

theorem take_ne_self {n : Nat} (h : n < frame.length) : frame.take n ≠ frame := by
  intro heq
  have := congrArg List.length heq
  rw [List.length_take] at this
  omega

/-- **How a frame ends.** Only what is taken whole is flushed, and the result is that of the flush. -/
theorem exists_ending (s : Sink) (frame : Bytes) :
    ∃ used taken flushes, Moves s (s.writeFrame frame).2 used taken flushes ∧
      Ending frame used taken flushes (s.writeFrame frame).1 ∧
      ((s.writeFrame frame).1 = .ok () ↔
        taken = frame ∧ (s.writeAll frame).2.flush.1 = .ok ()) ∧
      (∀ e, (s.writeAll frame).1 = .error e →
        (s.writeFrame frame).1 = .error (.io e) ∧ taken ≠ frame ∧ flushes = 0) ∧
      ∃ calls, calls ≤ used.length + 1 ∧
        Offers calls s frame (s.writeAll frame).1 (s.writeAll frame).2 := by
  obtain ⟨calls, hoffers⟩ := exists_offers s frame
  obtain ⟨used, taken, hmoves, hstops, hcalls⟩ := hoffers.stops
  generalize hw : s.writeAll frame = w at hoffers hmoves hstops
  obtain ⟨result, t⟩ := w
  simp only at hoffers hmoves hstops
  cases hstops with
  | all hgoes =>
    have hcalls' (e : WriteEvent) : calls ≤ (used ++ [e]).length + 1 := by
      rw [List.length_append]
      exact Nat.le_trans hcalls (Nat.add_le_add_right (Nat.le_add_right ..) 1)
    have hup' {e : WriteEvent} {later : List WriteEvent} (hup : t.upcoming = e :: later) :
        s.upcoming = (used ++ [e]) ++ later := by
      rw [hmoves.upcoming, hup, List.append_assoc]
      rfl
    obtain ⟨e, later, hup, hflush⟩ | ⟨later, hup, hflush⟩ | hflush := t.flush_cases
    · simp only [writeFrame, hw, hflush]
      exact ⟨_, frame, 1, ⟨hup' hup, hmoves.written, congrArg (· + 1) hmoves.flushes⟩,
        .unflushed hgoes, by simp, by simp, calls, hcalls' _, hoffers⟩
    · simp only [writeFrame, hw, hflush]
      exact ⟨_, frame, 1, ⟨hup' hup, hmoves.written, congrArg (· + 1) hmoves.flushes⟩,
        .flushed hgoes, by simp, by simp, calls, hcalls' _, hoffers⟩
    · simp only [writeFrame, hw, hflush]
      exact ⟨used, frame, 1, ⟨hmoves.upcoming, hmoves.written, congrArg (· + 1) hmoves.flushes⟩,
        .written hgoes, by simp, by simp, calls, hcalls, hoffers⟩
  | stuck hgoes hpart =>
    have hne := take_ne_self hpart
    simp only [writeFrame, hw]
    exact ⟨_, _, 0, hmoves, .stuck hgoes hpart, by simp [hne], by simp [hne], calls, hcalls,
      hoffers⟩
  | failed hgoes hpart hfatal =>
    have hne := take_ne_self hpart
    simp only [writeFrame, hw]
    exact ⟨_, _, 0, hmoves, .failed hgoes hpart hfatal, by simp [hne], by simp [hne], calls,
      hcalls, hoffers⟩

theorem Ending.isPrefix {result : Except FrameError Unit}
    (h : Ending frame used taken flushes result) : taken <+: frame := by
  cases h with
  | written hgoes => exact List.prefix_rfl
  | flushed hgoes => exact List.prefix_rfl
  | unflushed hgoes => exact List.prefix_rfl
  | stuck hgoes hpart => exact List.take_prefix _ _
  | failed hgoes hpart hfatal => exact List.take_prefix _ _

theorem Ending.flushes_eq {result : Except FrameError Unit}
    (h : Ending frame used taken flushes result) : flushes = if taken = frame then 1 else 0 := by
  cases h with
  | written hgoes => exact (if_pos rfl).symm
  | flushed hgoes => exact (if_pos rfl).symm
  | unflushed hgoes => exact (if_pos rfl).symm
  | stuck hgoes hpart => exact (if_neg (take_ne_self hpart)).symm
  | failed hgoes hpart hfatal => exact (if_neg (take_ne_self hpart)).symm

/-- The writer does not go on after a call that takes nothing. -/
theorem Ending.of_accept_zero {result : Except FrameError Unit}
    (h : Ending frame used taken flushes result) (hzero : .accept 0 ∈ used) :
    result = .error (.io .writeZero) := by
  have hno {used : List WriteEvent} (hgoes : ∀ e ∈ used, e.GoesOn) :
      .accept 0 ∉ used := fun hmem => hgoes _ hmem rfl
  cases h with
  | written hgoes => exact absurd hzero (hno hgoes)
  | flushed hgoes => simp [hno hgoes] at hzero
  | unflushed hgoes => simp [hno hgoes] at hzero
  | stuck hgoes hpart => rfl
  | failed hgoes hpart hfatal => simp [hno hgoes] at hzero

end Sink

/-! ## Any sequence of frames -/

/-- What a sink is asked to write. -/
inductive WriteRequest where
  | frame (bytes : Bytes)
  | message (m : Message)
  deriving DecidableEq, Repr

/-- The bytes of the frame that is asked for. -/
def WriteRequest.bytes : WriteRequest → Bytes
  | frame bytes => bytes
  | message m => m.encode

/-- A request, the sink that it found, what it came to and the sink that it left. -/
structure WriteReport where
  request : WriteRequest
  found : Sink
  result : Except FrameError Unit
  left : Sink

namespace Sink

/-- Writes what is asked for. -/
def perform (s : Sink) : WriteRequest → Except FrameError Unit × Sink
  | .frame bytes => s.writeFrame bytes
  | .message m => s.writeMessage m

/-- Writes what is asked for, one request after the other: a report of each, and the sink behind the
last. -/
def performAll (s : Sink) : List WriteRequest → List WriteReport × Sink
  | [] => ([], s)
  | q :: later =>
    let first := s.perform q
    let rest := first.2.performAll later
    (⟨q, s, first.1, first.2⟩ :: rest.1, rest.2)

theorem perform_eq (s : Sink) (q : WriteRequest) : s.perform q = s.writeFrame q.bytes := by
  cases q <;> rfl

end Sink

namespace WriteReport

/-- The bytes that were taken during the call. -/
def taken (r : WriteReport) : Bytes := r.left.written.drop r.found.written.length

/-- The events that were used up during the call. -/
def used (r : WriteReport) : List WriteEvent :=
  r.found.upcoming.take (r.found.upcoming.length - r.left.upcoming.length)

/-- The flushes that were asked for during the call. -/
def flushes (r : WriteReport) : Nat := r.left.flushes - r.found.flushes

/-- What a report of a call says, for every sink that the call may find. -/
structure Sound (r : WriteReport) : Prop where
  /-- The call only adds to what the sink holds, and goes on with the events where it found them. -/
  moves : r.found.Moves r.left r.used r.taken r.flushes
  isPrefix : r.taken <+: r.request.bytes
  ok_iff : r.result = .ok () ↔
    r.taken = r.request.bytes ∧ (r.found.writeAll r.request.bytes).2.flush.1 = .ok ()
  flushes_eq : r.flushes = if r.taken = r.request.bytes then 1 else 0
  /-- Less than the frame is taken if the writing fails, and nothing is flushed. -/
  cut : ∀ e, (r.found.writeAll r.request.bytes).1 = .error e →
    r.result = .error (.io e) ∧ r.taken ≠ r.request.bytes ∧ r.flushes = 0
  zero : .accept 0 ∈ r.used → r.result = .error (.io .writeZero)
  ending : Sink.Ending r.request.bytes r.used r.taken r.flushes r.result
  ends : ∃ calls, calls ≤ r.used.length + 1 ∧
    Sink.Offers calls r.found r.request.bytes (r.found.writeAll r.request.bytes).1
      (r.found.writeAll r.request.bytes).2

end WriteReport

namespace Sink

/-- What a sink holds, and what of its events is left, tells what happened in between. -/
theorem Moves.eq {s t : Sink} {used : List WriteEvent} {taken : Bytes} {flushes : Nat}
    (h : s.Moves t used taken flushes) :
    t.written.drop s.written.length = taken ∧
      s.upcoming.take (s.upcoming.length - t.upcoming.length) = used ∧
      t.flushes - s.flushes = flushes := by
  refine ⟨?_, ?_, ?_⟩
  · rw [h.written, List.drop_left]
  · rw [h.upcoming, List.length_append, Nat.add_sub_cancel, List.take_left]
  · rw [h.flushes, Nat.add_sub_cancel_left]

theorem sound_perform (s : Sink) (q : WriteRequest) :
    WriteReport.Sound ⟨q, s, (s.perform q).1, (s.perform q).2⟩ := by
  obtain ⟨used, taken, flushes, hmoves, hending, hok, hcut, hends⟩ := s.exists_ending q.bytes
  rw [← perform_eq] at hmoves hending hok hcut
  obtain ⟨htaken, hused, hflushes⟩ := hmoves.eq
  subst htaken hused hflushes
  exact ⟨hmoves, hending.isPrefix, hok, hending.flushes_eq, hcut, hending.of_accept_zero, hending,
    hends⟩

/-- **All of a frame or a beginning of it.** Whatever a sink does with the calls that are made to it,
each of some requests comes to an end. It adds a beginning of its frame to what the sink holds, and it
succeeds exactly if that is the whole frame and the one flush behind it succeeds. Less than the whole
frame is not flushed: a call took nothing, or failed for good. The sink then holds these beginnings,
one behind the other. -/
theorem writes_all_or_a_beginning (s : Sink) (requests : List WriteRequest) :
    (s.performAll requests).1.map WriteReport.request = requests ∧
    (∀ r ∈ (s.performAll requests).1, r.Sound) ∧
    (s.performAll requests).2.written =
      s.written ++ ((s.performAll requests).1.map WriteReport.taken).flatten ∧
    s.upcoming = ((s.performAll requests).1.map WriteReport.used).flatten ++
      (s.performAll requests).2.upcoming := by
  induction requests generalizing s with
  | nil => exact ⟨rfl, by simp [performAll], by simp [performAll], rfl⟩
  | cons q later ih =>
    obtain ⟨hrequests, hsound, hwritten, hupcoming⟩ := ih (s.perform q).2
    have hfirst := s.sound_perform q
    have hmoves := hfirst.moves
    refine ⟨congrArg (q :: ·) hrequests, List.forall_mem_cons.2 ⟨hfirst, hsound⟩, ?_, ?_⟩
    · simp only [performAll, List.map_cons, List.flatten_cons]
      rw [hwritten, ← List.append_assoc, ← hmoves.written]
    · simp only [performAll, List.map_cons, List.flatten_cons]
      rw [List.append_assoc, ← hupcoming]
      exact hmoves.upcoming

/-- It takes two bytes, is interrupted and takes nothing. The next frame it takes and flushes, but not
an empty one behind it, and later it fails a write call. -/
private def moodySink : Sink where
  upcoming :=
    [.accept 2, .failure ⟨.interrupted, "again", none⟩, .accept 0, .accept 10, .flushSuccess,
      .flushFailure ⟨.brokenPipe, "gone", none⟩, .failure ⟨.connectionReset, "reset", none⟩]

private def fiveFrames : List WriteRequest :=
  [.frame [1, 2, 3], .frame [4, 5], .frame [], .frame [6], .frame [7]]

theorem a_cut_frame_a_lost_flush_and_an_empty_frame :
    (moodySink.performAll fiveFrames).1.map WriteReport.request = fiveFrames ∧
    ((moodySink.performAll fiveFrames).1.map (·.result.toBool) =
        [false, true, false, false, true] ∧
      (moodySink.performAll fiveFrames).1.map WriteReport.taken =
        [[1, 2], [4, 5], [], [], [7]] ∧
      (moodySink.performAll fiveFrames).1.map WriteReport.flushes = [0, 1, 1, 0, 1] ∧
      (moodySink.performAll fiveFrames).2.written = [1, 2, 4, 5, 7]) ∧
    ∀ r ∈ (moodySink.performAll fiveFrames).1.head?, r.result = .error (.io .writeZero) := by
  obtain ⟨hrequests, hsound, hwritten, -⟩ := moodySink.writes_all_or_a_beginning fiveFrames
  have htaken : (moodySink.performAll fiveFrames).1.map WriteReport.taken =
      [[1, 2], [4, 5], [], [], [7]] := by
    decide +kernel
  refine ⟨hrequests, ⟨by decide +kernel, htaken, by decide +kernel, ?_⟩, ?_⟩
  · rw [hwritten, htaken]
    rfl
  · intro r hr
    have hzero : ∀ r ∈ (moodySink.performAll fiveFrames).1.head?, .accept 0 ∈ r.used := by
      decide +kernel
    exact (hsound r (List.mem_of_mem_head? hr)).zero (hzero r hr)

end Sink

end ClusterLink.Frame
