import ClusterLink.Frame.Writer
/-!
# Writing to a willing sink

A willing sink takes at least one byte of what is offered or is interrupted, and fails no flush. How
much it takes at a time makes no difference to a writer.

Results:
* `Sink.writeFrame_of_willing`: the whole frame is taken, behind what was taken before.
* `Sink.writeMessages_of_willing`: the same of messages written one after the other.
-/
namespace ClusterLink.Frame

/-- An event that takes some bytes or lets the writer try again. -/
def WriteEvent.IsWilling : WriteEvent → Prop
  | .accept most => most ≠ 0
  | .failure e => e.kind = .interrupted
  | .flushFailure _ => False
  | .flushSuccess => True

instance : DecidablePred WriteEvent.IsWilling
  | .accept most => inferInstanceAs (Decidable (most ≠ 0))
  | .failure e => inferInstanceAs (Decidable (e.kind = .interrupted))
  | .flushFailure _ => inferInstanceAs (Decidable False)
  | .flushSuccess => inferInstanceAs (Decidable True)

namespace Sink

/-- A sink that makes progress with every call that is not interrupted. -/
def Willing (s : Sink) : Prop := ∀ e ∈ s.upcoming, e.IsWilling

/-- Writes messages one after the other: what each write came to, and the sink behind the last. -/
def writeMessages (s : Sink) : List Message → List (Except FrameError Unit) × Sink
  | [] => ([], s)
  | m :: later =>
    let first := s.writeMessage m
    let rest := first.2.writeMessages later
    (first.1 :: rest.1, rest.2)

/-- A write call takes all that is offered or is answered by the next event. -/
theorem write_cases {s t : Sink} {bytes : Bytes} {r : Except IoError Nat}
    (h : s.write bytes = (r, t)) :
    (r = .ok bytes.length ∧ t = s.take bytes bytes.length) ∨
    (∃ most later, s.upcoming = .accept most :: later ∧ r = .ok (min most bytes.length) ∧
      t = ({ s with upcoming := later } : Sink).take bytes (min most bytes.length)) ∨
    (∃ e later, s.upcoming = .failure e :: later ∧ r = .error e ∧
      t = { s with upcoming := later }) := by
  unfold write at h
  split at h
  · cases h
    exact Or.inl ⟨rfl, rfl⟩
  · cases h
    exact Or.inl ⟨rfl, rfl⟩
  · cases h
    exact Or.inl ⟨rfl, rfl⟩
  · next most later hu =>
    cases h
    exact Or.inr (Or.inl ⟨most, later, hu, rfl, rfl⟩)
  · next e later hu =>
    cases h
    exact Or.inr (Or.inr ⟨e, later, hu, rfl, rfl⟩)

theorem flush_cases (s : Sink) :
    (∃ e later, s.upcoming = .flushFailure e :: later ∧
      s.flush = (.error e, { s with flushes := s.flushes + 1, upcoming := later })) ∨
    (∃ later, s.upcoming = .flushSuccess :: later ∧
      s.flush = (.ok (), { s with flushes := s.flushes + 1, upcoming := later })) ∨
    s.flush = (.ok (), { s with flushes := s.flushes + 1 }) := by
  unfold flush
  split
  · next e later hup => exact Or.inl ⟨e, later, hup, rfl⟩
  · next later hup => exact Or.inr (Or.inl ⟨later, hup, rfl⟩)
  · exact Or.inr (Or.inr rfl)

/-- What one write call on a willing sink comes to. -/
theorem write_of_willing {s t : Sink} (h : s.Willing) {bytes : Bytes} (hne : bytes ≠ [])
    {r : Except IoError Nat} (hw : s.write bytes = (r, t)) :
    t.Willing ∧
      ((∃ n, r = .ok (n + 1) ∧ n + 1 ≤ bytes.length ∧ t.written = s.written ++ bytes.take (n + 1)) ∨
        (∃ e, r = .error e ∧ e.kind = .interrupted ∧ t.written = s.written)) := by
  have hpos : 0 < bytes.length := List.length_pos_iff.2 hne
  obtain ⟨rfl, rfl⟩ | ⟨most, later, hu, rfl, rfl⟩ | ⟨e, later, hu, rfl, rfl⟩ := write_cases hw
  · obtain ⟨k, hk⟩ : ∃ k, bytes.length = k + 1 := ⟨bytes.length - 1, by omega⟩
    exact ⟨h, Or.inl ⟨k, by rw [hk], by omega, by rw [← hk]; rfl⟩⟩
  · have hup : ∀ e ∈ WriteEvent.accept most :: later, e.IsWilling := hu ▸ h
    have hmost : most ≠ 0 := hup _ (List.mem_cons_self ..)
    obtain ⟨n, hn⟩ : ∃ n, min most bytes.length = n + 1 := ⟨min most bytes.length - 1, by omega⟩
    refine ⟨fun e he => hup e (List.mem_cons_of_mem _ he), Or.inl ⟨n, by rw [hn], by omega, ?_⟩⟩
    rw [hn]
    rfl
  · have hup : ∀ x ∈ WriteEvent.failure e :: later, x.IsWilling := hu ▸ h
    exact ⟨fun x hx => hup x (List.mem_cons_of_mem _ hx),
      Or.inr ⟨e, rfl, hup _ (List.mem_cons_self ..), rfl⟩⟩

theorem writeAll_of_willing {s : Sink} (h : s.Willing) (bytes : Bytes) :
    (s.writeAll bytes).1 = .ok () ∧ (s.writeAll bytes).2.written = s.written ++ bytes ∧
      (s.writeAll bytes).2.Willing := by
  fun_induction writeAll s bytes with
  | case1 s => exact ⟨rfl, by simp, h⟩
  | case2 s bytes hne t hw =>
    obtain ⟨-, ⟨n, he, -⟩ | ⟨e, he, -⟩⟩ := write_of_willing h hne hw
    · cases he
    · cases he
  | case3 s bytes hne n t hw ih =>
    obtain ⟨ht, ⟨m, he, -, hwr⟩ | ⟨e, he, -⟩⟩ := write_of_willing h hne hw
    · cases he
      obtain ⟨h1, h2, h3⟩ := ih ht
      exact ⟨h1, by rw [h2, hwr, List.append_assoc, List.take_append_drop], h3⟩
    · cases he
  | case4 s bytes hne e t hw hint ih =>
    obtain ⟨ht, ⟨n, he, -⟩ | ⟨e', -, -, hwr⟩⟩ := write_of_willing h hne hw
    · cases he
    · rw [← hwr]
      exact ih ht
  | case5 s bytes hne e t hw hint =>
    obtain ⟨-, ⟨n, he, -⟩ | ⟨e', he, hk, -⟩⟩ := write_of_willing h hne hw
    · cases he
    · cases he
      exact absurd hk hint

theorem flush_of_willing {s : Sink} (h : s.Willing) :
    ∃ t, s.flush = (.ok (), t) ∧ t.written = s.written ∧ t.Willing := by
  obtain ⟨e, later, hup, -⟩ | ⟨later, hup, hflush⟩ | hflush := s.flush_cases
  · have hno : False := h (.flushFailure e) (by rw [hup]; exact List.mem_cons_self ..)
    exact hno.elim
  · exact ⟨_, hflush, rfl, fun e he => h e (by rw [hup]; exact List.mem_cons_of_mem _ he)⟩
  · exact ⟨_, hflush, rfl, h⟩

theorem writeFrame_of_willing {s : Sink} (h : s.Willing) (bytes : Bytes) :
    (s.writeFrame bytes).1 = .ok () ∧ (s.writeFrame bytes).2.written = s.written ++ bytes ∧
      (s.writeFrame bytes).2.Willing := by
  obtain ⟨h1, h2, h3⟩ := writeAll_of_willing h bytes
  generalize hf : s.writeAll bytes = f at h1 h2 h3
  obtain ⟨r, t⟩ := f
  simp only at h1 h2 h3
  subst h1
  obtain ⟨u, hflush, hwritten, hwilling⟩ := flush_of_willing h3
  simp only [writeFrame, hf, hflush]
  exact ⟨trivial, hwritten.trans h2, hwilling⟩

/-- The sink of some messages holds them one behind the other. -/
theorem writeMessages_of_willing {s : Sink} (h : s.Willing) (messages : List Message) :
    (s.writeMessages messages).1 = messages.map (fun _ => .ok ()) ∧
      (s.writeMessages messages).2.written = s.written ++ (messages.map Message.encode).flatten := by
  induction messages generalizing s with
  | nil => exact ⟨rfl, by simp [writeMessages]⟩
  | cons m later ih =>
    obtain ⟨h1, h2, h3⟩ := writeFrame_of_willing h m.encode
    obtain ⟨i1, i2⟩ := ih h3
    simp only [writeMessages, writeMessage, h1, i1, i2, h2, List.map_cons, List.flatten_cons,
      List.append_assoc]
    exact ⟨trivial, trivial⟩

end Sink

end ClusterLink.Frame
