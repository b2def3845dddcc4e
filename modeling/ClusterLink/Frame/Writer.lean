import ClusterLink.Frame.Error
import ClusterLink.Message.Basic
/-!
# Writing frames to a stream

A sink takes as many of the offered bytes as it likes, may fail a call, and may fail a flush.
Writing offers what is left until nothing is, makes interrupted calls again, and flushes once after
the last byte. A call that takes nothing ends the writing, as no progress is to be expected.
-/

namespace ClusterLink.Frame

/-- What a stream does with the next call. -/
inductive WriteEvent where
  | accept (most : Nat)
  | failure (error : IoError)
  /-- Fails the next flush; writes before it succeed. -/
  | flushFailure (error : IoError)
  /-- Lets the next flush succeed, and the writes before it. -/
  | flushSuccess
  deriving DecidableEq, Repr

/-- The writing end of a stream: the bytes it took, the flushes it was asked for, and what comes
next. A flush that finds nothing about flushes next succeeds, and after the last event every call
succeeds in full. -/
structure Sink where
  written : Bytes := []
  flushes : Nat := 0
  upcoming : List WriteEvent := []
  deriving DecidableEq, Repr

namespace Sink

/-- Takes the first bytes of what is offered. -/
def take (s : Sink) (bytes : Bytes) (n : Nat) : Sink := { s with written := s.written ++ bytes.take n }

/-- One write call: how many bytes were taken. -/
def write (s : Sink) (bytes : Bytes) : Except IoError Nat × Sink :=
  match s.upcoming with
  | [] => (.ok bytes.length, s.take bytes bytes.length)
  | .flushFailure _ :: _ => (.ok bytes.length, s.take bytes bytes.length)
  | .flushSuccess :: _ => (.ok bytes.length, s.take bytes bytes.length)
  | .accept most :: later =>
    let n := min most bytes.length
    (.ok n, { s with upcoming := later }.take bytes n)
  | .failure e :: later => (.error e, { s with upcoming := later })

/-- One flush call. -/
def flush (s : Sink) : Except IoError Unit × Sink :=
  let counted := { s with flushes := s.flushes + 1 }
  match s.upcoming with
  | .flushFailure e :: later => (.error e, { counted with upcoming := later })
  | .flushSuccess :: later => (.ok (), { counted with upcoming := later })
  | _ => (.ok (), counted)

theorem upcoming_write (s : Sink) (bytes : Bytes) :
    (s.write bytes).2.upcoming.length ≤ s.upcoming.length := by
  unfold write
  split <;> simp_all [take]

/-- A call that neither takes bytes nor succeeds uses up an event. -/
theorem upcoming_write_error {s t : Sink} {bytes : Bytes} {e : IoError}
    (h : s.write bytes = (.error e, t)) : t.upcoming.length < s.upcoming.length := by
  unfold write at h
  split at h
  · cases h
  · cases h
  · cases h
  · cases h
  · next hu => cases h; simp [hu]

/-- Offers the bytes until all are taken. -/
def writeAll (s : Sink) (bytes : Bytes) : Except IoError Unit × Sink :=
  if bytes = [] then (.ok (), s)
  else
    match h : s.write bytes with
    | (.ok 0, t) => (.error .writeZero, t)
    | (.ok (n + 1), t) => writeAll t (bytes.drop (n + 1))
    | (.error e, t) => if e.kind = .interrupted then writeAll t bytes else (.error e, t)
termination_by s.upcoming.length + bytes.length
decreasing_by
  · next hne =>
    have hw := upcoming_write s bytes
    rw [h] at hw
    have hpos : 0 < bytes.length := List.length_pos_iff.2 hne
    simp only [List.length_drop] at hw ⊢
    omega
  · have := upcoming_write_error h
    omega

/-- Writes the bytes of a frame and flushes (`write_frame`). -/
def writeFrame (s : Sink) (bytes : Bytes) : Except FrameError Unit × Sink :=
  match s.writeAll bytes with
  | (.error e, t) => (.error (.io e), t)
  | (.ok (), t) =>
    match t.flush with
    | (.error e, u) => (.error (.io e), u)
    | (.ok (), u) => (.ok (), u)

/-- Writes a message as a frame (`write_message`). -/
def writeMessage (s : Sink) (m : Message) : Except FrameError Unit × Sink := s.writeFrame m.encode

end Sink

end ClusterLink.Frame
