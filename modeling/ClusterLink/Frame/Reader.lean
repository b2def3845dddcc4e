import ClusterLink.Frame.Parse
/-!
# Reading frames from a stream

A source hands out its bytes in pieces of its own choosing, may fail a call, and may end. A read
call that was only interrupted is made again. Reading a frame asks for the 24 bytes of its header
and then for exactly the bytes that the header announces, so it never takes a byte of the next
frame.

Results:
* `Source.weight_read`: a call that gives bytes or fails uses up a part of the source, which is why
  reading a frame ends.
* `weight_read_ok`: a frame uses up a part of the source, which is why reading all frames ends.
-/

namespace ClusterLink.Frame

/-- What comes next from a stream. -/
inductive ReadEvent where
  | data (bytes : Bytes)
  | failure (error : IoError)
  deriving DecidableEq, Repr

/-- The reading end of a stream: bytes at hand, what comes after them, and the most bytes that one
call gives. After the last event the stream has ended. -/
structure Source where
  current : Bytes := []
  upcoming : List ReadEvent := []
  chunk : Option Nat := none
  deriving DecidableEq, Repr

namespace Source

/-- The source that hands out some bytes and ends. -/
def ofBytes (bytes : Bytes) : Source := { current := bytes }

/-- Takes at most `room` of the bytes at hand. -/
def takeCurrent (s : Source) (room : Nat) : Bytes × Source :=
  let n := min room (s.chunk.getD room)
  (s.current.take n, { s with current := s.current.drop n })

/-- One read call with room for `room` bytes. No bytes means the end of the stream. -/
def read (s : Source) (room : Nat) : Except IoError Bytes × Source :=
  match s.current, s.upcoming with
  | [], [] => (.ok [], s)
  | [], .failure e :: later => (.error e, { s with upcoming := later })
  | [], .data bytes :: later =>
    let t := { s with current := bytes, upcoming := later }.takeCurrent room
    (.ok t.1, t.2)
  | _ :: _, _ =>
    let t := s.takeCurrent room
    (.ok t.1, t.2)

/-- How much some events hold: their bytes, and one for each event. -/
def upcomingWeight : List ReadEvent → Nat
  | [] => 0
  | .data bytes :: later => bytes.length + 1 + upcomingWeight later
  | .failure _ :: later => 1 + upcomingWeight later

/-- How much the source still holds: bytes and events. -/
def weight (s : Source) : Nat := s.current.length + upcomingWeight s.upcoming

/-- The bytes that the source still holds. -/
def bytes (s : Source) : Bytes :=
  s.current ++ (s.upcoming.map fun
    | .data bytes => bytes
    | .failure _ => []).flatten

theorem length_takeCurrent (s : Source) (room : Nat) : (s.takeCurrent room).1.length ≤ room := by
  simp only [takeCurrent, List.length_take]
  omega

theorem weight_takeCurrent (s : Source) (room : Nat) :
    (s.takeCurrent room).2.weight + (s.takeCurrent room).1.length = s.weight := by
  simp only [takeCurrent, weight, List.length_take, List.length_drop]
  omega

theorem length_read {s t : Source} {room : Nat} {b : Bytes} (h : s.read room = (.ok b, t)) :
    b.length ≤ room := by
  unfold read at h
  split at h
  · cases h; exact Nat.zero_le _
  · cases h
  · cases h; exact length_takeCurrent _ _
  · cases h; exact length_takeCurrent _ _

theorem weight_read {s t : Source} {room : Nat} {r : Except IoError Bytes}
    (h : s.read room = (r, t)) (hr : r ≠ .ok []) : t.weight < s.weight := by
  unfold read at h
  split at h
  · cases h; exact absurd rfl hr
  · next later hc hu => cases h; simp only [weight, hu, hc, upcomingWeight]; omega
  · next later hc hu =>
    simp only [Prod.mk.injEq] at h
    obtain ⟨rfl, rfl⟩ := h
    have := weight_takeCurrent { s with current := ‹Bytes›, upcoming := later } room
    simp only [weight, hu, hc, upcomingWeight, List.length_nil] at this ⊢
    omega
  · simp only [Prod.mk.injEq] at h
    obtain ⟨rfl, rfl⟩ := h
    have := weight_takeCurrent s room
    have hpos : (s.takeCurrent room).1.length ≠ 0 := by
      intro h0
      exact hr (by rw [List.length_eq_zero_iff.1 h0])
    omega

end Source

/-- The outcome of asking for a number of bytes. -/
inductive Fill (want : Nat) where
  | full (bytes : Bytes) (length_eq : bytes.length = want)
  /-- The stream ended after fewer bytes. -/
  | short (got : Nat)
  | failed (error : IoError)

/-- A shorter outcome with bytes in front of it. -/
def Fill.prepend {want : Nat} (front : Bytes) (h : front.length ≤ want) :
    Fill (want - front.length) → Fill want
  | .full bytes length_eq => .full (front ++ bytes) (by rw [List.length_append, length_eq]; omega)
  | .short got => .short (front.length + got)
  | .failed error => .failed error

/-- Reads until `want` bytes are there, the stream ends or it fails (`read_header`; a body is read in
the same way). -/
def fill (s : Source) (want : Nat) : Fill want × Source :=
  if hw : want = 0 then (.full [] hw.symm, s)
  else
    match h : s.read want with
    | (.ok [], t) => (.short 0, t)
    | (.ok (b :: more), t) =>
      let rest := fill t (want - (b :: more).length)
      (rest.1.prepend (b :: more) (Source.length_read h), rest.2)
    | (.error e, t) => if e.kind = .interrupted then fill t want else (.failed e, t)
termination_by s.weight
decreasing_by
  · exact Source.weight_read h (by simp)
  · exact Source.weight_read h (by simp)

/-- Reads one frame (`read_message`). -/
def read (s : Source) : Except FrameError Message × Source :=
  match fill s headerSize with
  | (.short 0, t) => (.error .ended, t)
  | (.short got, t) => (.error (.header (.length got)), t)
  | (.failed e, t) => (.error (.io e), t)
  | (.full bytes _, t) =>
    match Header.decode bytes with
    | .error e => (.error (.header e), t)
    | .ok h =>
      if maxBodySize < h.bodySize then (.error (.oversized h.bodySize), t)
      else match fill t h.bodySize.toNat with
        | (.short got, u) => (.error (.shortBody h.bodySize got), u)
        | (.failed e, u) => (.error (.io e), u)
        | (.full body hlen, u) => (.ok (assemble h body hlen), u)

/-! ## Reading ends -/

theorem Source.weight_read_le {s t : Source} {room : Nat} {r : Except IoError Bytes}
    (h : s.read room = (r, t)) : t.weight ≤ s.weight := by
  by_cases hr : r = .ok []
  · subst hr
    unfold Source.read at h
    split at h
    · cases h; exact Nat.le_refl _
    · cases h
    · next bytes later hc hu =>
      simp only [Prod.mk.injEq] at h
      rw [← h.2]
      have := Source.weight_takeCurrent { s with current := bytes, upcoming := later } room
      simp only [Source.weight, hu, hc, upcomingWeight, List.length_nil] at this ⊢
      omega
    · simp only [Prod.mk.injEq] at h
      rw [← h.2]
      have := Source.weight_takeCurrent s room
      omega
  · exact Nat.le_of_lt (Source.weight_read h hr)

theorem weight_fill (s : Source) (want : Nat) :
    (fill s want).2.weight ≤ s.weight ∧
      (want ≠ 0 → (∀ got, (fill s want).1 ≠ .short got) → (fill s want).2.weight < s.weight) := by
  fun_induction fill s want with
  | case1 s => exact ⟨Nat.le_refl _, fun hne => absurd rfl hne⟩
  | case2 s want hw t hread =>
    exact ⟨Source.weight_read_le hread, fun _ hf => absurd rfl (hf 0)⟩
  | case3 s want hw b more t hread rest ih =>
    have hlt := Source.weight_read hread (by simp)
    have hle : rest.2.weight < s.weight := Nat.lt_of_le_of_lt ih.1 hlt
    exact ⟨Nat.le_of_lt hle, fun _ _ => hle⟩
  | case4 s want hw e t hread hint ih =>
    have hlt := Source.weight_read hread (by simp)
    have := ih.1
    exact ⟨by omega, fun _ _ => by omega⟩
  | case5 s want hw e t hread hint =>
    have hlt := Source.weight_read hread (by simp)
    exact ⟨Nat.le_of_lt hlt, fun _ _ => hlt⟩

theorem weight_read_ok {s t : Source} {m : Message} (h : read s = (.ok m, t)) :
    t.weight < s.weight := by
  unfold read at h
  split at h
  · cases h
  · cases h
  · cases h
  next bytes hlen u hu =>
  have hfirst := (weight_fill s headerSize).2 (by decide) (by simp [hu])
  rw [hu] at hfirst
  split at h
  · cases h
  next hd _ =>
  split at h
  · cases h
  split at h
  · cases h
  · cases h
  next body hbody v hv =>
  cases h
  have := (weight_fill u hd.bodySize.toNat).1
  rw [hv] at this
  exact Nat.lt_of_le_of_lt this hfirst

/-- Reads frames until there is no further one: the frames, why there is no further one, and what is
left of the source then. -/
def readAll (s : Source) : List Message × FrameError × Source :=
  match _h : read s with
  | (.error e, t) => ([], e, t)
  | (.ok m, t) =>
    let more := readAll t
    (m :: more.1, more.2)
termination_by s.weight
decreasing_by exact weight_read_ok _h

end ClusterLink.Frame
