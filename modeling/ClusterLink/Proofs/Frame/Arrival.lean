import ClusterLink.Proofs.Frame.RoundTrip
/-!
# Reading from any source

A source may fail or end in the middle of a frame. What it can still deliver is what stands before
its first failure: a frame is read exactly if it stands whole at the front of that.

Results:
* `Source.read_arriving`: what one read call takes of what can arrive.
* `fill_eq_full_iff`: a number of bytes is read exactly if as many can arrive.
* `read_eq_ok_iff`: a message is read exactly if its bytes can arrive first and its size is allowed.
-/
namespace ClusterLink.Frame

/-- The bytes of some events up to the first that ends the stream or fails it. -/
def arrivingFrom : List ReadEvent → Bytes
  | [] => []
  | .data bytes :: later => if bytes = [] then [] else bytes ++ arrivingFrom later
  | .failure e :: later => if e.kind = .interrupted then arrivingFrom later else []

namespace Source

/-- The bytes that a reader can still get, however long it goes on. -/
def arriving (s : Source) : Bytes :=
  if s.chunk = some 0 then [] else s.current ++ arrivingFrom s.upcoming

theorem arriving_takeCurrent (s : Source) (room : Nat) :
    (s.takeCurrent room).1 ++ (s.takeCurrent room).2.arriving = s.arriving := by
  unfold arriving takeCurrent
  by_cases hc : s.chunk = some 0
  · simp [hc]
  · simp only [if_neg hc]
    rw [← List.append_assoc, List.take_append_drop]

/-- Nothing is taken of bytes at hand only by a source that gives none at all. -/
theorem arriving_of_takeCurrent_nil {s : Source} {room : Nat} (hr : room ≠ 0)
    (hc : s.current ≠ []) (h : (s.takeCurrent room).1 = []) : s.arriving = [] := by
  have hpos : 0 < s.current.length := List.length_pos_iff.2 hc
  have hlen := congrArg List.length h
  simp only [takeCurrent, List.length_take, List.length_nil] at hlen
  cases hch : s.chunk with
  | none => simp only [hch, Option.getD_none] at hlen; omega
  | some k =>
    simp only [hch, Option.getD_some] at hlen
    obtain rfl : k = 0 := by omega
    rw [arriving, if_pos hch]

/-- What one read call comes to: nothing arrives any more, it takes the next bytes of those that do,
or it was interrupted. -/
theorem read_arriving {s t : Source} {room : Nat} (hr : room ≠ 0) {r : Except IoError Bytes}
    (h : s.read room = (r, t)) :
    (s.arriving = [] ∧ (r = .ok [] ∨ ∃ e, r = .error e ∧ e.kind ≠ .interrupted)) ∨
      (∃ b more, r = .ok (b :: more) ∧ s.arriving = b :: more ++ t.arriving) ∨
      (∃ e, r = .error e ∧ e.kind = .interrupted ∧ t.arriving = s.arriving) := by
  -- Bytes at hand, there before or come with the next event, are taken.
  have htake {u : Source} (hu : u.arriving = s.arriving) (hne : u.current ≠ [])
      (hut : u.takeCurrent room = (r.toOption.getD [], t)) (hok : r = .ok (r.toOption.getD [])) :
      (s.arriving = [] ∧ r = .ok []) ∨
        ∃ b more, r = .ok (b :: more) ∧ s.arriving = b :: more ++ t.arriving := by
    have hcut := arriving_takeCurrent u room
    cases hb : r.toOption.getD [] with
    | nil =>
      rw [hb] at hok hut
      exact Or.inl ⟨by rw [← hu]; exact arriving_of_takeCurrent_nil hr hne (by rw [hut]), hok⟩
    | cons b more =>
      rw [hb] at hok hut
      rw [hut, hu] at hcut
      exact Or.inr ⟨b, more, hok, hcut.symm⟩
  unfold read at h
  split at h
  · next hc hu =>
    cases h
    exact Or.inl ⟨by simp [arriving, hc, hu, arrivingFrom], Or.inl rfl⟩
  · next e later hc hu =>
    cases h
    by_cases hint : e.kind = .interrupted
    · exact Or.inr (Or.inr ⟨e, rfl, hint, by simp [arriving, hc, hu, arrivingFrom, hint]⟩)
    · exact Or.inl ⟨by simp [arriving, hc, hu, arrivingFrom, hint], Or.inr ⟨e, rfl, hint⟩⟩
  · next b later hc hu =>
    cases h
    by_cases hb : b = []
    · refine Or.inl ⟨by simp [arriving, hc, hu, arrivingFrom, hb], Or.inl ?_⟩
      simp [takeCurrent, hb]
    · have hu' : Source.arriving { s with current := b, upcoming := later } = s.arriving := by
        simp [arriving, hc, hu, arrivingFrom, hb]
      obtain ⟨hs, hr⟩ | h := htake hu' hb rfl rfl
      · exact Or.inl ⟨hs, Or.inl hr⟩
      · exact Or.inr (Or.inl h)
  · next x xs hc =>
    cases h
    obtain ⟨hs, hr⟩ | h := htake rfl (by rw [hc]; exact List.cons_ne_nil x xs) rfl rfl
    · exact Or.inl ⟨hs, Or.inl hr⟩
    · exact Or.inr (Or.inl h)

end Source

/-! ## Filling -/

/-- As many bytes as can arrive are read, and no others. -/
theorem fill_of_arriving (s : Source) (want : Nat) :
    if h : want ≤ s.arriving.length then
      (fill s want).1 = .full (s.arriving.take want) (List.length_take_of_le h) ∧
        (fill s want).2.arriving = s.arriving.drop want
    else ∀ bytes hbytes, (fill s want).1 ≠ .full bytes hbytes := by
  fun_induction fill s want with
  | case1 s => simp
  | case2 s want hw t hread =>
    obtain ⟨hs, -⟩ | ⟨b, more, he, -⟩ | ⟨e, he, -⟩ := Source.read_arriving hw hread
    · rw [dif_neg (by simpa [hs] using hw)]
      simp
    · cases he
    · cases he
  | case3 s want hw b more t hread rest ih =>
    obtain ⟨-, he | ⟨e, he, -⟩⟩ | ⟨b', more', he, hs⟩ | ⟨e, he, -⟩ := Source.read_arriving hw hread
    · cases he
    · cases he
    · cases he
      have hle := Source.length_read hread
      have hlen : s.arriving.length = (b :: more).length + t.arriving.length := by
        rw [hs, List.length_append]
      by_cases hfit : want ≤ s.arriving.length
      · rw [dif_pos (by omega)] at ih
        rw [dif_pos hfit]
        refine ⟨?_, ?_⟩
        · simp only [rest, ih.1, Fill.prepend, Fill.full.injEq]
          rw [hs, List.take_append, List.take_of_length_le hle]
        · rw [show rest.2 = (fill t (want - (b :: more).length)).2 from rfl, ih.2, hs,
            List.drop_append, List.drop_of_length_le hle, List.nil_append]
      · rw [dif_neg (by omega)] at ih
        rw [dif_neg hfit]
        intro bytes hbytes h
        simp only [rest] at h
        cases hr : (fill t (want - (b :: more).length)).1 with
        | full bytes' h' => exact ih bytes' h' hr
        | short got => rw [hr] at h; cases h
        | failed e => rw [hr] at h; cases h
    · cases he
  | case4 s want hw e t hread hint ih =>
    obtain ⟨-, he | ⟨e', he, hno⟩⟩ | ⟨b, more, he, -⟩ | ⟨e', -, -, hs⟩ :=
      Source.read_arriving hw hread
    · cases he
    · cases he
      exact absurd hint hno
    · cases he
    · simp only [hs] at ih
      exact ih
  | case5 s want hw e t hread hint =>
    obtain ⟨hs, -⟩ | ⟨b, more, he, -⟩ | ⟨e', he, hk, -⟩ := Source.read_arriving hw hread
    · rw [dif_neg (by simpa [hs] using hw)]
      simp
    · cases he
    · cases he
      exact absurd hk hint

theorem arriving_of_fill {s t : Source} {want : Nat} {bytes : Bytes} {h : bytes.length = want}
    (hfill : fill s want = (.full bytes h, t)) : s.arriving = bytes ++ t.arriving := by
  have hspec := fill_of_arriving s want
  rw [hfill] at hspec
  by_cases hle : want ≤ s.arriving.length
  · rw [dif_pos hle] at hspec
    obtain ⟨hb, ht⟩ := hspec
    simp only [Fill.full.injEq] at hb
    simp only at ht
    rw [hb, ht, List.take_append_drop]
  · rw [dif_neg hle] at hspec
    exact absurd rfl (hspec bytes h)

theorem fill_append {s : Source} {front rest : Bytes} {want : Nat} (h : s.arriving = front ++ rest)
    (hlen : front.length = want) :
    ∃ t, fill s want = (.full front hlen, t) ∧ t.arriving = rest := by
  subst hlen
  have hspec := fill_of_arriving s front.length
  rw [dif_pos (by rw [h, List.length_append]; exact Nat.le_add_right ..)] at hspec
  obtain ⟨hb, ht⟩ := hspec
  refine ⟨_, Prod.ext ?_ rfl, ?_⟩
  · rw [hb]
    simp only [Fill.full.injEq]
    rw [h, List.take_left]
  · rw [ht, h, List.drop_left]

/-! ## Frames -/

theorem encode_assemble {h : Header} {bytes body : Bytes} (hdec : Header.decode bytes = .ok h)
    (hlen : body.length = h.bodySize.toNat) :
    (assemble h body hlen).encode = bytes ++ body ∧
      (assemble h body hlen).normalized = assemble h body hlen := by
  obtain ⟨rfl, hkind⟩ := Header.decode_eq_ok_iff.1 hdec
  have hheader : (assemble h body hlen).header = h := by
    simp only [Message.header, assemble, hlen, UInt32.ofNat_toNat]
  refine ⟨by rw [Message.encode, hheader]; rfl, ?_⟩
  simp only [Message.normalized, assemble, hkind]

/-- A message is read exactly if a whole frame of an allowed size that comes to it arrives first. -/
theorem read_eq_ok_iff {s : Source} {m : Message} :
    (read s).1 = .ok m ↔
      m.Readable ∧ m.normalized = m ∧ ∃ rest, s.arriving = m.encode ++ rest := by
  constructor
  · intro h
    unfold read at h
    split at h
    · cases h
    · cases h
    · cases h
    next bytes hbytes t hhead =>
    split at h
    · cases h
    next hd hdec =>
    split at h
    · cases h
    next hsize =>
    split at h
    · cases h
    · cases h
    next body hbody u hfill =>
    cases h
    obtain ⟨henc, hnorm⟩ := encode_assemble hdec hbody
    refine ⟨?_, hnorm, u.arriving, ?_⟩
    · have := UInt32.not_lt.1 hsize
      rw [Message.Readable]
      exact hbody ▸ UInt32.le_iff_toNat_le.1 this
    · rw [arriving_of_fill hhead, arriving_of_fill hfill, henc, List.append_assoc]
  · rintro ⟨hread, hnorm, rest, hs⟩
    rw [Message.encode, List.append_assoc] at hs
    obtain ⟨t, hhead, ht⟩ := fill_append hs m.header.length_encode
    have hsize := m.toNat_bodySize_header
    obtain ⟨u, hbody, -⟩ := fill_append ht hsize.symm
    have hallowed : ¬ maxBodySize < m.header.normalized.bodySize := by
      rw [UInt32.not_lt, UInt32.le_iff_toNat_le]
      exact Nat.le_trans (Nat.le_of_eq hsize) hread
    have hbody' : fill t m.header.normalized.bodySize.toNat = (.full m.body hsize.symm, u) := hbody
    simp only [read, hhead, Header.decode_encode, if_neg hallowed, hbody']
    exact congrArg Except.ok hnorm

end ClusterLink.Frame
