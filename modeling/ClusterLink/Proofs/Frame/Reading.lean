import ClusterLink.Frame.Reader
/-!
# Reading from a steady source

A steady source gives bytes or is interrupted, and ends only behind its last byte. How it cuts its
bytes into pieces makes no difference to a reader.

Results:
* `fill_of_steady`: asking for a number of bytes gives the next ones, or all that are left.
* `read_of_steady`: reading a frame is `parse` of the bytes that are left.
-/
namespace ClusterLink.Frame

/-- An event that neither ends a stream nor makes a reader fail. -/
def ReadEvent.IsSteady : ReadEvent → Prop
  | .data bytes => bytes ≠ []
  | .failure e => e.kind = .interrupted

instance : DecidablePred ReadEvent.IsSteady
  | .data bytes => inferInstanceAs (Decidable (bytes ≠ []))
  | .failure e => inferInstanceAs (Decidable (e.kind = .interrupted))

/-- A source that cuts its bytes into pieces of at least one byte and fails only by being
interrupted. -/
structure Source.Steady (s : Source) : Prop where
  chunk : s.chunk ≠ some 0
  upcoming : ∀ e ∈ s.upcoming, e.IsSteady

namespace Source

theorem bytes_cons_data (s : Source) (b : Bytes) (later : List ReadEvent)
    (hc : s.current = []) (hu : s.upcoming = .data b :: later) :
    s.bytes = ({ s with current := b, upcoming := later } : Source).bytes := by
  simp [bytes, hc, hu]

theorem bytes_takeCurrent (s : Source) (room : Nat) :
    (s.takeCurrent room).1 ++ (s.takeCurrent room).2.bytes = s.bytes := by
  simp only [takeCurrent, bytes]
  rw [← List.append_assoc, List.take_append_drop]

/-- With bytes at hand and room for one, a steady source gives at least one. -/
theorem takeCurrent_ne_nil {s : Source} (h : s.Steady) (hc : s.current ≠ []) {room : Nat}
    (hr : room ≠ 0) : (s.takeCurrent room).1 ≠ [] := by
  have hchunk := h.chunk
  have hpos : 0 < s.current.length := List.length_pos_iff.2 hc
  intro hnil
  have hlen := congrArg List.length hnil
  simp only [takeCurrent, List.length_take, List.length_nil] at hlen
  cases hch : s.chunk with
  | none => simp only [hch, Option.getD_none] at hlen; omega
  | some k =>
    simp only [hch, Option.getD_some] at hlen
    have : k ≠ 0 := fun hk => hchunk (by rw [hch, hk])
    omega

/-- What one read call on a steady source comes to. -/
theorem read_of_steady {s t : Source} (h : s.Steady) {room : Nat} (hr : room ≠ 0)
    {r : Except IoError Bytes} (hread : s.read room = (r, t)) :
    t.Steady ∧
      ((r = .ok [] ∧ s.bytes = [] ∧ t.bytes = []) ∨
        (∃ b more, r = .ok (b :: more) ∧ s.bytes = b :: more ++ t.bytes) ∨
        (∃ e, r = .error e ∧ e.kind = .interrupted ∧ t.bytes = s.bytes)) := by
  unfold read at hread
  split at hread
  · next hc hu =>
    cases hread
    have hb : s.bytes = [] := by simp [bytes, hc, hu]
    exact ⟨h, Or.inl ⟨rfl, hb, hb⟩⟩
  · next e later hc hu =>
    cases hread
    have hup := h.upcoming
    rw [hu] at hup
    refine ⟨⟨h.chunk, fun x hx => hup x (List.mem_cons_of_mem _ hx)⟩, Or.inr (Or.inr ?_)⟩
    exact ⟨e, rfl, hup _ (List.mem_cons_self ..), by simp [bytes, hc, hu]⟩
  · next b later hc hu =>
    cases hread
    have hup := h.upcoming
    rw [hu] at hup
    have hs : ({ s with current := b, upcoming := later } : Source).Steady :=
      ⟨h.chunk, fun x hx => hup x (List.mem_cons_of_mem _ hx)⟩
    refine ⟨⟨hs.chunk, hs.upcoming⟩, Or.inr (Or.inl ?_)⟩
    have hne := takeCurrent_ne_nil hs (hup _ (List.mem_cons_self ..)) hr
    obtain ⟨x, xs, hx⟩ := List.exists_cons_of_ne_nil hne
    refine ⟨x, xs, by rw [hx], ?_⟩
    rw [bytes_cons_data s b later hc hu, ← bytes_takeCurrent _ room, hx]
  · next x xs hc =>
    cases hread
    refine ⟨⟨h.chunk, h.upcoming⟩, Or.inr (Or.inl ?_)⟩
    have hne := takeCurrent_ne_nil h (by rw [hc]; exact List.cons_ne_nil x xs) hr
    obtain ⟨y, ys, hy⟩ := List.exists_cons_of_ne_nil hne
    exact ⟨y, ys, by rw [hy], by rw [← bytes_takeCurrent s room, hy]⟩

end Source

/-! ## Filling -/

/-- What asking for some bytes comes to when these are all there are. -/
def Fill.ofBytes (want : Nat) (bytes : Bytes) : Fill want :=
  if h : want ≤ bytes.length then .full (bytes.take want) (by simp [h]) else .short bytes.length

theorem Fill.prepend_ofBytes {want : Nat} (front rest : Bytes) (h : front.length ≤ want) :
    (Fill.ofBytes (want - front.length) rest).prepend front h =
      Fill.ofBytes want (front ++ rest) := by
  unfold Fill.ofBytes
  by_cases hle : want - front.length ≤ rest.length
  · rw [dif_pos hle, dif_pos (by simp only [List.length_append]; omega)]
    simp only [Fill.prepend, Fill.full.injEq]
    rw [List.take_append, List.take_of_length_le h]
  · rw [dif_neg hle, dif_neg (by simp only [List.length_append]; omega)]
    simp [Fill.prepend]

theorem fill_of_steady {s : Source} (h : s.Steady) (want : Nat) :
    (fill s want).1 = Fill.ofBytes want s.bytes ∧ (fill s want).2.bytes = s.bytes.drop want ∧
      (fill s want).2.Steady := by
  fun_induction fill s want with
  | case1 s => simp [Fill.ofBytes, h]
  | case2 s want hw t hread =>
    obtain ⟨ht, ⟨-, hs, hb⟩ | ⟨b, more, he, -⟩ | ⟨e, he, -⟩⟩ := Source.read_of_steady h hw hread
    · refine ⟨?_, by simp [hs, hb], ht⟩
      rw [hs, Fill.ofBytes, dif_neg (by simpa using hw)]
      rfl
    · cases he
    · cases he
  | case3 s want hw b more t hread rest ih =>
    obtain ⟨ht, ⟨he, -⟩ | ⟨b', more', he, hs⟩ | ⟨e, he, -⟩⟩ := Source.read_of_steady h hw hread
    · cases he
    · cases he
      have hle := Source.length_read hread
      obtain ⟨h1, h2, h3⟩ := ih ht
      refine ⟨?_, ?_, h3⟩
      · rw [h1, Fill.prepend_ofBytes, hs]
      · rw [h2, hs, List.drop_append, List.drop_of_length_le hle, List.nil_append]
    · cases he
  | case4 s want hw e t hread hint ih =>
    obtain ⟨ht, ⟨he, -⟩ | ⟨b, more, he, -⟩ | ⟨e', -, -, hb⟩⟩ := Source.read_of_steady h hw hread
    · cases he
    · cases he
    · rw [← hb]
      exact ih ht
  | case5 s want hw e t hread hint =>
    obtain ⟨ht, ⟨he, -⟩ | ⟨b, more, he, -⟩ | ⟨e', he, hk, -⟩⟩ := Source.read_of_steady h hw hread
    · cases he
    · cases he
    · cases he
      exact absurd hk hint

/-! ## Frames -/

/-- Behind a whole header, the flat parser asks for the body as a reader does. -/
theorem parse_of_header {bytes : Bytes} {hd : Header} (hlen : headerSize ≤ bytes.length)
    (hdec : Header.decode (bytes.take headerSize) = .ok hd) :
    parse bytes =
      if maxBodySize < hd.bodySize then (.error (.oversized hd.bodySize), bytes.drop headerSize)
      else match Fill.ofBytes hd.bodySize.toNat (bytes.drop headerSize) with
        | .short got => (.error (.shortBody hd.bodySize got), [])
        | .failed e => (.error (.io e), [])
        | .full body hbody =>
          (.ok (assemble hd body hbody), (bytes.drop headerSize).drop hd.bodySize.toNat) := by
  have hne : bytes ≠ [] := by
    rintro rfl
    simp [headerSize] at hlen
  simp only [parse, if_neg hne, hdec]
  by_cases hbig : maxBodySize < hd.bodySize
  · rw [if_pos hbig, if_pos hbig]
  · rw [if_neg hbig, if_neg hbig]
    by_cases hfit : hd.bodySize.toNat ≤ (bytes.drop headerSize).length
    · rw [dif_pos hfit, Fill.ofBytes, dif_pos hfit]
    · rw [dif_neg hfit, Fill.ofBytes, dif_neg hfit]

theorem parse_of_short {bytes : Bytes} (hlen : bytes.length < headerSize) :
    parse bytes =
      (.error (if bytes.length = 0 then .ended else .header (.length bytes.length)), []) := by
  by_cases hnil : bytes = []
  · subst hnil; rfl
  · have hpos : bytes.length ≠ 0 := fun h => hnil (List.length_eq_zero_iff.1 h)
    have htake : bytes.take headerSize = bytes := List.take_of_length_le (by omega)
    have hdec : Header.decode bytes = .error (.length bytes.length) :=
      Header.decode_eq_error_iff.2 ⟨by omega, rfl⟩
    simp only [parse, if_neg hnil, htake, hdec, if_neg hpos]

/-- However a steady source cuts its bytes, reading a frame is parsing them. -/
theorem read_of_steady {s : Source} (h : s.Steady) :
    (read s).1 = (parse s.bytes).1 ∧ (read s).2.bytes = (parse s.bytes).2 ∧ (read s).2.Steady := by
  obtain ⟨h1, h2, h3⟩ := fill_of_steady h headerSize
  generalize hf : fill s headerSize = f at h1 h2 h3
  obtain ⟨r, t⟩ := f
  simp only at h1 h2 h3
  by_cases hlen : headerSize ≤ s.bytes.length
  · rw [Fill.ofBytes, dif_pos hlen] at h1
    subst h1
    simp only [read, hf]
    cases hdec : Header.decode (s.bytes.take headerSize) with
    | error e =>
      have := (Header.decode_eq_error_iff.1 hdec).1
      exact absurd (by simp [hlen]) this
    | ok hd =>
      rw [parse_of_header hlen hdec]
      by_cases hbig : maxBodySize < hd.bodySize
      · simp only [if_pos hbig]
        exact ⟨trivial, h2, h3⟩
      · obtain ⟨g1, g2, g3⟩ := fill_of_steady h3 hd.bodySize.toNat
        generalize hg : fill t hd.bodySize.toNat = g at g1 g2 g3
        obtain ⟨q, u⟩ := g
        simp only at g1 g2 g3
        rw [h2] at g1 g2
        subst g1
        simp only [if_neg hbig, hg]
        by_cases hfit : hd.bodySize.toNat ≤ (s.bytes.drop headerSize).length
        · simp only [Fill.ofBytes, dif_pos hfit]
          exact ⟨trivial, g2, g3⟩
        · simp only [Fill.ofBytes, dif_neg hfit]
          exact ⟨trivial, by rw [g2]; exact List.drop_of_length_le (by omega), g3⟩
  · rw [Fill.ofBytes, dif_neg hlen] at h1
    subst h1
    have hrest : t.bytes = [] := by
      rw [h2]
      exact List.drop_of_length_le (by omega)
    rw [parse_of_short (by omega)]
    simp only [read, hf]
    cases hn : s.bytes.length with
    | zero => exact ⟨rfl, hrest, h3⟩
    | succ n => exact ⟨rfl, hrest, h3⟩

end ClusterLink.Frame
