import ClusterLink.Proofs.Frame.Reading
import ClusterLink.Proofs.Frame.Writing
/-!
# Messages over a byte stream

Messages that are written one after the other and read one after the other come through, whatever
the sink takes at a time and however the source cuts what the sink took.

Results:
* `readTimes_readable`: reading a written message gives it back and leaves what is behind it.
* `read_what_was_written`: written messages are read back in order, up to the first one that is too
  large for a reader.
-/
namespace ClusterLink

/-- Whether a reader accepts the size of a message. -/
def Message.Readable (m : Message) : Prop := m.body.length ≤ maxBodySize.toNat

instance (m : Message) : Decidable m.Readable :=
  inferInstanceAs (Decidable (m.body.length ≤ maxBodySize.toNat))

namespace Frame

/-- What some read calls, one after the other, come to. -/
def readTimes : (calls : Nat) → Source → List (Except FrameError Message)
  | 0, _ => []
  | calls + 1, s => (read s).1 :: readTimes calls (read s).2

theorem read_of_readable {s : Source} (h : s.Steady) {m : Message} (hm : m.Readable) {rest : Bytes}
    (hb : s.bytes = m.encode ++ rest) :
    (read s).1 = .ok m.normalized ∧ (read s).2.bytes = rest ∧ (read s).2.Steady := by
  obtain ⟨h1, h2, h3⟩ := read_of_steady h
  have hfit : ¬ maxBodySize.toNat < m.body.length := Nat.not_lt.2 hm
  rw [hb, parse_encode_append, if_neg hfit] at h1 h2
  exact ⟨h1, h2, h3⟩

theorem read_of_not_readable {s : Source} (h : s.Steady) {m : Message} (hm : ¬ m.Readable)
    {rest : Bytes} (hb : s.bytes = m.encode ++ rest) :
    (read s).1 = .error (.oversized m.header.bodySize) := by
  rw [(read_of_steady h).1, hb, parse_encode_append, if_pos (Nat.lt_of_not_le hm)]

/-- Messages that a reader accepts are read one by one, and nothing behind them is touched. -/
theorem readTimes_readable {s : Source} (h : s.Steady) {messages : List Message}
    (hall : ∀ m ∈ messages, m.Readable) {rest : Bytes}
    (hb : s.bytes = (messages.map Message.encode).flatten ++ rest) :
    ∃ t : Source, t.Steady ∧ t.bytes = rest ∧ ∀ more,
      readTimes (messages.length + more) s =
        messages.map (fun m => .ok m.normalized) ++ readTimes more t := by
  induction messages generalizing s with
  | nil => exact ⟨s, h, hb, fun more => by simp⟩
  | cons m later ih =>
    have hsplit : s.bytes = m.encode ++ ((later.map Message.encode).flatten ++ rest) := by
      rw [hb, List.map_cons, List.flatten_cons, List.append_assoc]
    obtain ⟨h1, h2, h3⟩ := read_of_readable h (hall m (List.mem_cons_self ..)) hsplit
    obtain ⟨t, ht, hrest, hmore⟩ := ih h3 (fun x hx => hall x (List.mem_cons_of_mem m hx)) h2
    refine ⟨t, ht, hrest, fun more => ?_⟩
    rw [List.length_cons, Nat.add_right_comm, readTimes, h1, hmore]
    rfl

/-- A source without bytes has ended, and stays so. -/
theorem readTimes_ended {s : Source} (h : s.Steady) (hb : s.bytes = []) (calls : Nat) :
    readTimes calls s = List.replicate calls (.error .ended) := by
  induction calls generalizing s with
  | zero => rfl
  | succ calls ih =>
    obtain ⟨h1, h2, h3⟩ := read_of_steady h
    have hnil : parse [] = (.error .ended, []) := rfl
    rw [hb, hnil] at h1 h2
    rw [readTimes, h1, ih h3 h2, List.replicate_succ]

/-- **Framing.** Messages that are written one after the other stand one behind the other in the
sink. Read calls on a source that holds these bytes give the messages back in order, up to the first
whose body is too large, which is refused with the length it declares. If there is none, every call
behind the last message finds the end. -/
theorem read_what_was_written {sink : Sink} (hsink : sink.Willing) (hfresh : sink.written = [])
    (messages : List Message) :
    (sink.writeMessages messages).1 = messages.map (fun _ => .ok ()) ∧
      (sink.writeMessages messages).2.written = (messages.map Message.encode).flatten ∧
      ∀ s : Source, s.Steady → s.bytes = (sink.writeMessages messages).2.written →
        (∀ front big back, messages = front ++ big :: back → (∀ m ∈ front, m.Readable) →
          ¬ big.Readable → ∃ declared : UInt32, declared.toNat = big.body.length ∧
            readTimes (front.length + 1) s =
              front.map (fun m => .ok m.normalized) ++ [.error (.oversized declared)]) ∧
        ((∀ m ∈ messages, m.Readable) → ∀ more,
          readTimes (messages.length + more) s =
            messages.map (fun m => .ok m.normalized) ++ List.replicate more (.error .ended)) := by
  obtain ⟨hok, hbytes⟩ := Sink.writeMessages_of_willing hsink messages
  rw [hfresh, List.nil_append] at hbytes
  refine ⟨hok, hbytes, fun s hs hb => ⟨?_, ?_⟩⟩
  · intro front big back hsplit hfront hbig
    have hcut : s.bytes = (front.map Message.encode).flatten ++
        (big.encode ++ (back.map Message.encode).flatten) := by
      rw [hb, hbytes, hsplit]
      simp
    obtain ⟨t, ht, hrest, hmore⟩ := readTimes_readable hs hfront hcut
    refine ⟨big.header.bodySize, big.toNat_bodySize_header, ?_⟩
    rw [hmore, readTimes, read_of_not_readable ht hbig hrest]
    rfl
  · intro hall more
    have hcut : s.bytes = (messages.map Message.encode).flatten ++ [] := by
      rw [hb, hbytes, List.append_nil]
    obtain ⟨t, ht, hrest, hmore⟩ := readTimes_readable hs hall hcut
    rw [hmore, readTimes_ended ht hrest]

/-! ## A transfer in pieces -/

private def interruption : IoError := ⟨.interrupted, "interrupted", none⟩

/-- The code of a ping without its name: it is read as a ping. -/
private def nameless : Message := ⟨.ofNat 1, .unknown 0x0601, [1, 2, 3], by decide⟩

private def small : Message := ⟨.ofNat 2, .select, [9], by decide⟩

/-- One byte more than a reader accepts. -/
private def huge : Message where
  id := .ofNat 3
  kind := .insert
  body := List.replicate (maxBodySize.toNat + 1) 0
  fits := by rw [List.length_replicate]; decide

private theorem length_body_huge : huge.body.length = maxBodySize.toNat + 1 :=
  List.length_replicate

private def slowSink : Sink := { upcoming := [.accept 3, .failure interruption, .accept 30] }

/-- Two frames in three pieces: a part of a header, what is left of it with a part of the next
frame, and the rest. -/
private def choppySource : Source where
  upcoming :=
    let all := nameless.encode ++ small.encode
    [.data (all.take 5), .failure interruption, .data ((all.drop 5).take 30), .data (all.drop 35)]
  chunk := some 20

theorem choppySource_steady : choppySource.Steady where
  chunk := by decide
  upcoming := by decide +kernel

theorem read_what_was_written_in_pieces :
    (slowSink.Willing ∧ choppySource.Steady ∧
      choppySource.bytes = (slowSink.writeMessages [nameless, small]).2.written ∧
      readTimes 4 choppySource =
        [.ok { nameless with kind := .ping }, .ok small, .error .ended, .error .ended]) ∧
    ∀ s : Source, s.Steady → s.bytes = nameless.encode ++ huge.encode →
      readTimes 2 s = [.ok { nameless with kind := .ping }, .error (.oversized 67108865)] := by
  have hnameless : nameless.normalized = { nameless with kind := .ping } := by decide
  have hsmall : small.normalized = small := by decide
  have hwilling : slowSink.Willing := by unfold Sink.Willing; decide
  have hbytes : choppySource.bytes = (slowSink.writeMessages [nameless, small]).2.written := by
    rw [(read_what_was_written hwilling rfl [nameless, small]).2.1]
    decide +kernel
  refine ⟨⟨hwilling, choppySource_steady, hbytes, ?_⟩, fun s hs hb => ?_⟩
  · have h := ((read_what_was_written hwilling rfl [nameless, small]).2.2 choppySource
      choppySource_steady hbytes).2 (by decide) 2
    rw [List.map_cons, List.map_cons, hnameless, hsmall] at h
    exact h
  · have hfull : Sink.Willing {} := by unfold Sink.Willing; decide
    have hhuge : ¬ huge.Readable := by
      rw [Message.Readable, length_body_huge]
      exact Nat.not_succ_le_self _
    obtain ⟨-, hw, hread⟩ := read_what_was_written hfull rfl [nameless, huge]
    have hb' : s.bytes = (Sink.writeMessages {} [nameless, huge]).2.written := by
      rw [hw, hb, List.map_cons, List.map_cons, List.map_nil, List.flatten_cons, List.flatten_cons,
        List.flatten_nil, List.append_nil]
    obtain ⟨declared, hd, h⟩ := (hread s hs hb').1 [nameless] huge [] rfl (by decide) hhuge
    have hsize : declared = 67108865 := by
      apply UInt32.toNat_inj.mp
      rw [hd, length_body_huge]
      decide
    rw [List.map_cons, hnameless, hsize] at h
    exact h

end Frame

end ClusterLink
