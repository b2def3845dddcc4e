import ClusterLink.Proofs.Frame.Reading
/-!
# What reading a frame takes

Reading a frame is two loops over a source: one asks for the bytes of a header, the other for as many
as the header announces. However the source cuts its bytes, what the loops come to can be read off the
bytes themselves, and so can how many of them are gone afterwards: none behind a size that is refused
but those of the header, and none behind a message but those of its frame.

Results:
* `exists_asks`: asking for a number of bytes ends, in a number of read calls that the source bounds.
* `firstFrame_parse`: what the flat parser comes to, case by case.
* `reading_takes_one_frame`: the same of reading a steady source.
-/
namespace ClusterLink.Frame

/-! ## The loops end -/

/-- Asking for a number of bytes, in so many read calls. What a call comes to decides how it goes on:
bytes are put in front of those that are still to come, and an interrupted call is made again. -/
inductive Asks : (calls : Nat) → Source → (want : Nat) → Fill want → Source → Prop
  | enough (s : Source) : Asks 0 s 0 (.full [] rfl) s
  | given {s t u : Source} {want calls : Nat} {b : UInt8} {more : Bytes}
      {rest : Fill (want - (b :: more).length)} (hwant : want ≠ 0)
      (hread : s.read want = (.ok (b :: more), t))
      (hlater : Asks calls t (want - (b :: more).length) rest u) :
    Asks (calls + 1) s want (rest.prepend (b :: more) (Source.length_read hread)) u
  | ended {s t : Source} {want : Nat} (hwant : want ≠ 0) (hread : s.read want = (.ok [], t)) :
    Asks 1 s want (.short 0) t
  | again {s t u : Source} {want calls : Nat} {result : Fill want} {e : IoError} (hwant : want ≠ 0)
      (hread : s.read want = (.error e, t)) (hinterrupted : e.kind = .interrupted)
      (hlater : Asks calls t want result u) :
    Asks (calls + 1) s want result u
  | failed {s t : Source} {want : Nat} {e : IoError} (hwant : want ≠ 0)
      (hread : s.read want = (.error e, t)) (hfatal : e.kind ≠ .interrupted) :
    Asks 1 s want (.failed e) t

/-- **Asking for bytes ends.** Each call but the last uses up a byte or an event of the source. -/
theorem exists_asks (s : Source) (want : Nat) :
    ∃ calls, calls ≤ s.weight + 1 ∧ Asks calls s want (fill s want).1 (fill s want).2 := by
  fun_induction fill s want with
  | case1 s => exact ⟨0, Nat.zero_le _, .enough s⟩
  | case2 s want hwant t hread => exact ⟨1, Nat.le_add_left .., .ended hwant hread⟩
  | case3 s want hwant b more t hread rest ih =>
    obtain ⟨calls, hcalls, hasks⟩ := ih
    have hlt := Source.weight_read hread (by simp)
    exact ⟨calls + 1, by omega, .given hwant hread hasks⟩
  | case4 s want hwant e t hread hinterrupted ih =>
    obtain ⟨calls, hcalls, hasks⟩ := ih
    have hlt := Source.weight_read hread (by simp)
    exact ⟨calls + 1, by omega, .again hwant hread hinterrupted hasks⟩
  | case5 s want hwant e t hread hfatal =>
    exact ⟨1, Nat.le_add_left .., .failed hwant hread hfatal⟩

/-! ## The fields of a header -/

/-- The id that some bytes start with. -/
def idField (bytes : Bytes) : Bytes := bytes.take 16

/-- The kind that the four bytes behind the id stand for. -/
def kindField (bytes : Bytes) : Kind := .ofCode (decodeUInt32 ((bytes.drop 16).take 4))

/-- The size that the four bytes behind the kind announce, the most significant byte first. -/
def sizeField (bytes : Bytes) : UInt32 := decodeUInt32 ((bytes.drop 20).take 4)

theorem exists_header {bytes : Bytes} (hlen : headerSize ≤ bytes.length) :
    ∃ head, Header.decode (bytes.take headerSize) = .ok head ∧ head.id.bytes = idField bytes ∧
      head.kind = kindField bytes ∧ sizeField bytes = head.bodySize := by
  have hsize : (bytes.take headerSize).length = headerSize := List.length_take_of_le hlen
  rw [Header.decode, dif_pos hsize]
  refine ⟨_, rfl, ?_, ?_, ?_⟩
  · exact List.take_take.trans (by simp [idField, headerSize])
  · simp only [kindField, headerSize, List.drop_take, List.take_take]
    rfl
  · simp only [sizeField, headerSize, List.drop_take]

/-! ## The first frame of some bytes -/

/-- What reading the first frame of some bytes comes to and what it leaves, told from the bytes. -/
structure FirstFrame (bytes : Bytes) (result : Except FrameError Message) (left : Bytes) : Prop where
  ended : bytes = [] → result = .error .ended ∧ left = []
  header : 0 < bytes.length → bytes.length < headerSize →
    result = .error (.header (.length bytes.length)) ∧ left = []
  /-- The size is refused with none of the body taken. -/
  oversized : headerSize ≤ bytes.length → maxBodySize < sizeField bytes →
    result = .error (.oversized (sizeField bytes)) ∧ left = bytes.drop headerSize
  shortBody : headerSize ≤ bytes.length → sizeField bytes ≤ maxBodySize →
    bytes.length < headerSize + (sizeField bytes).toNat →
      result = .error (.shortBody (sizeField bytes) (bytes.length - headerSize)) ∧ left = []
  message : sizeField bytes ≤ maxBodySize → headerSize + (sizeField bytes).toNat ≤ bytes.length →
    ∃ m, result = .ok m ∧ m.id.bytes = idField bytes ∧ m.kind = kindField bytes ∧
      m.body = (bytes.drop headerSize).take (sizeField bytes).toNat ∧
      m.header.bodySize = sizeField bytes ∧ m.header.bodySize.toNat = m.body.length ∧
      left = bytes.drop (headerSize + (sizeField bytes).toNat)

theorem firstFrame_parse (bytes : Bytes) : FirstFrame bytes (parse bytes).1 (parse bytes).2 where
  ended := by
    intro hnil
    subst hnil
    exact ⟨rfl, rfl⟩
  header := by
    intro hpos hlt
    rw [parse_of_short hlt, if_neg (Nat.ne_of_gt hpos)]
    exact ⟨rfl, rfl⟩
  oversized := by
    intro hlen hbig
    obtain ⟨head, hdec, -, -, hsize⟩ := exists_header hlen
    rw [hsize] at hbig ⊢
    rw [parse_of_header hlen hdec, if_pos hbig]
    exact ⟨rfl, rfl⟩
  shortBody := by
    intro hlen hsmall hcut
    obtain ⟨head, hdec, -, -, hsize⟩ := exists_header hlen
    rw [hsize] at hsmall hcut ⊢
    have hlack : ¬ head.bodySize.toNat ≤ (bytes.drop headerSize).length := by
      rw [List.length_drop]
      omega
    rw [parse_of_header hlen hdec, if_neg (UInt32.not_lt.2 hsmall), Fill.ofBytes, dif_neg hlack,
      List.length_drop]
    exact ⟨rfl, rfl⟩
  message := by
    intro hsmall hwhole
    have hlen := Nat.le_of_add_right_le hwhole
    obtain ⟨head, hdec, hid, hkind, hsize⟩ := exists_header hlen
    rw [hsize] at hsmall hwhole ⊢
    have hfit : head.bodySize.toNat ≤ (bytes.drop headerSize).length := by
      rw [List.length_drop]
      omega
    have hbody : ((bytes.drop headerSize).take head.bodySize.toNat).length = head.bodySize.toNat :=
      List.length_take_of_le hfit
    have hheader : (assemble head _ hbody).header.bodySize = head.bodySize := by
      simp only [Message.header, assemble, hbody, UInt32.ofNat_toNat]
    rw [parse_of_header hlen hdec, if_neg (UInt32.not_lt.2 hsmall), Fill.ofBytes, dif_pos hfit]
    exact ⟨assemble head _ hbody, rfl, hid, hkind, rfl, hheader, Message.toNat_bodySize_header _,
      List.drop_drop⟩

/-- **Reading takes one frame.** However a steady source cuts its bytes, reading a frame comes to what
the flat parser makes of the bytes, it takes the bytes that the parser takes, and these are told from
the bytes alone. Both of its loops end. -/
theorem reading_takes_one_frame {s : Source} (h : s.Steady) :
    ((read s).1, (read s).2.bytes) = parse s.bytes ∧
    FirstFrame s.bytes (read s).1 (read s).2.bytes ∧
    (∃ calls, calls ≤ s.weight + 1 ∧
      Asks calls s headerSize (fill s headerSize).1 (fill s headerSize).2) ∧
    ∀ size, ∃ calls, calls ≤ (fill s headerSize).2.weight + 1 ∧
      Asks calls (fill s headerSize).2 size (fill (fill s headerSize).2 size).1
        (fill (fill s headerSize).2 size).2 := by
  obtain ⟨hresult, hleft, -⟩ := read_of_steady h
  refine ⟨Prod.ext hresult hleft, ?_, exists_asks s headerSize, exists_asks _⟩
  rw [hresult, hleft]
  exact firstFrame_parse s.bytes

/-! ## Pieces that end where a loop does -/

private def pause : IoError := ⟨.interrupted, "pause", none⟩

/-- The header of a ping whose body has so many bytes. -/
private def pingHeader (size : Bytes) : Bytes := List.replicate 16 3 ++ [0, 0, 6, 1] ++ size

/-- A header, its body of two bytes and three bytes more, each in a piece of its own. -/
private def wholePieces : Source where
  current := pingHeader [0, 0, 0, 2]
  upcoming := [.failure pause, .data [5, 6], .data [7, 8, 9], .failure pause]

/-- A header that announces one byte more than is allowed, and two bytes more, a byte at a time. -/
private def refusedPieces : Source where
  current := pingHeader [4, 0, 0, 1]
  upcoming := [.data [7, 8]]
  chunk := some 1

theorem pieces_that_end_where_a_loop_does :
    (wholePieces.Steady ∧ refusedPieces.Steady) ∧
    (∃ m, (read wholePieces).1 = .ok m ∧ m.body = [5, 6] ∧ m.header.bodySize = 2) ∧
      (read wholePieces).2.bytes = [7, 8, 9] ∧
      (read refusedPieces).1 = .error (.oversized 67108865) ∧
      (read refusedPieces).2.bytes = [7, 8] := by
  have hwhole : wholePieces.Steady := ⟨by decide, by decide⟩
  have hrefused : refusedPieces.Steady := ⟨by decide, by decide⟩
  obtain ⟨-, hfirst, -⟩ := reading_takes_one_frame hwhole
  obtain ⟨m, hm, -, -, hbody, hsize, -, hleft⟩ := hfirst.message (by decide) (by decide)
  obtain ⟨-, hlarge, -⟩ := reading_takes_one_frame hrefused
  obtain ⟨herror, hrest⟩ := hlarge.oversized (by decide) (by decide)
  exact ⟨⟨hwhole, hrefused⟩, ⟨m, hm, hbody, hsize⟩, hleft, herror, hrest⟩

end ClusterLink.Frame
