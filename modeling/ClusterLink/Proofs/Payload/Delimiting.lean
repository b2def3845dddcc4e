import ClusterLink.Proofs.Payload.Codec
/-!
# Where a body ends

The decoder of a value reads as many bytes as the value was written with, and no byte says whether
more will come: fixed widths and counts do. So a decoder that is given fewer bytes asks for more
before it has a value, whichever field the bytes end in, and one that is given more leaves them. A
body that must be used up is then neither cut nor continued unnoticed.

Results:
* `Decoder.Delimits.bind`: values that are read one after the other delimit themselves together.
* `JoinRequest.delimits`, `Failure.delimits`: whole bodies.
* `Payload.bodies_end_where_they_must`: what becomes of a body that is cut or continued.
-/
namespace ClusterLink

namespace Decoder

variable {α β : Type} {d : Decoder α} {f : α → Decoder β} {bytes more : Bytes} {n cell : Nat} {x : α}

/-- Whether a decoder takes a value off just these bytes: it finds the value whatever follows them,
and of fewer bytes it says that some are missing, not more than really are. -/
structure Delimits (d : Decoder α) (bytes : Bytes) (x : α) : Prop where
  whole : ∀ rest, d (bytes ++ rest) = .ok (x, rest)
  cut : ∀ part more, part ++ more = bytes → more ≠ [] →
    ∃ missing, d part = .error (.unexpectedEnd missing) ∧ 0 < missing ∧ missing ≤ more.length

/-- A decoder that takes nothing delimits nothing. -/
theorem delimits_nil (h : ∀ rest, d rest = .ok (x, rest)) : Delimits d [] x where
  whole := h
  cut := by
    intro part more hsplit hmore
    exact absurd (List.append_eq_nil_iff.1 hsplit).2 hmore

theorem delimits_take (h : bytes.length = n) : Delimits (take n) bytes bytes where
  whole := fun rest => take_append rest h
  cut := by
    intro part more hsplit hmore
    have hpos : 0 < more.length := List.length_pos_iff.2 hmore
    have hlen : part.length + more.length = n := by rw [← h, ← hsplit, List.length_append]
    exact ⟨n - part.length, take_eq_error_iff.2 ⟨by omega, rfl⟩, by omega, by omega⟩

theorem Delimits.map (h : Delimits d bytes x) (g : α → β) : Delimits (g <$> d) bytes (g x) where
  whole := fun rest => map_eq_ok.2 ⟨x, h.whole rest, rfl⟩
  cut := by
    intro part more hsplit hmore
    obtain ⟨missing, herror, hbounds⟩ := h.cut part more hsplit hmore
    exact ⟨missing, map_eq_error.2 herror, hbounds⟩

/-- Bytes that end within those of the first value are missed by the first decoder, and bytes that
end behind it by the second. -/
theorem Delimits.bind {later : Bytes} {y : β} (hd : Delimits d bytes x)
    (hf : Delimits (f x) later y) : Delimits (d >>= f) (bytes ++ later) y where
  whole := by
    intro rest
    rw [List.append_assoc]
    exact bind_eq_ok.2 ⟨x, later ++ rest, hd.whole _, hf.whole rest⟩
  cut := by
    intro part more hsplit hmore
    by_cases hlt : part.length < bytes.length
    · have hfirst : part ++ more.take (bytes.length - part.length) = bytes := by
        have htake := congrArg (List.take bytes.length) hsplit
        rwa [List.take_append, List.take_of_length_le (Nat.le_of_lt hlt), List.take_left] at htake
      have hlen := congrArg List.length hfirst
      rw [List.length_append] at hlen
      obtain ⟨missing, herror, hpos, hle⟩ := hd.cut part _ hfirst
        (List.length_pos_iff.1 (by omega))
      rw [List.length_take] at hle
      exact ⟨missing, bind_eq_error.2 (Or.inl herror), hpos, by omega⟩
    · obtain ⟨rest, hpart⟩ : ∃ rest, part = bytes ++ rest :=
        (List.prefix_of_prefix_length_le (List.prefix_append bytes later)
          ⟨more, hsplit⟩ (Nat.le_of_not_lt hlt)).imp fun _ h => h.symm
      subst hpart
      rw [List.append_assoc, List.append_cancel_left_eq] at hsplit
      obtain ⟨missing, herror, hbounds⟩ := hf.cut rest more hsplit hmore
      exact ⟨missing, bind_eq_error.2 (Or.inr ⟨x, rest, hd.whole rest, herror⟩), hbounds⟩

/-- A check or a conversion behind a decoder does not change what it takes. -/
theorem Delimits.bind_nil {y : β} (hd : Delimits d bytes x)
    (hf : ∀ rest, f x rest = .ok (y, rest)) : Delimits (d >>= f) bytes y := by
  have h := hd.bind (delimits_nil hf)
  rwa [List.append_nil] at h

/-! ## Values -/

theorem delimits_uint32 (w : UInt32) : Delimits uint32 (encodeUInt32 w) w := by
  have h := (delimits_take (length_encodeUInt32 w)).map decodeUInt32
  rwa [decodeUInt32_encodeUInt32] at h

theorem delimits_uint64 (w : UInt64) : Delimits uint64 (encodeUInt64 w) w := by
  have h := (delimits_take (length_encodeUInt64 w)).map decodeUInt64
  rwa [decodeUInt64_encodeUInt64] at h

theorem delimits_bool (b : Bool) : Delimits bool (Encoder.bool b) b := by
  refine (delimits_take (show (Encoder.bool b).length = 1 from rfl)).bind_nil fun rest => ?_
  cases b <;> rfl

theorem delimits_count (hcell : 0 < cell) (h : n * cell < memoryLimit) :
    Delimits (count cell) (Encoder.count n) n := by
  have hn := toNat_ofNat_of_fits hcell h
  refine (delimits_uint64 (UInt64.ofNat n)).bind_nil fun rest => ?_
  rw [hn, if_neg (Nat.not_le_of_lt h)]
  rfl

theorem delimits_text {s : String} (h : TextFits s) : Delimits text (Encoder.text s) s := by
  have hcount := delimits_count Nat.one_pos (show s.utf8ByteSize * 1 < memoryLimit by
    rw [Nat.mul_one]; exact h)
  refine hcount.bind ((delimits_take (length_bytesOfText s)).bind_nil fun rest => ?_)
  rw [textOfBytes?_bytesOfText]
  rfl

theorem delimits_texts {items : List String} (h : ∀ s ∈ items, TextFits s) :
    Delimits (texts items.length) (items.flatMap Encoder.text) items := by
  induction items with
  | nil => exact delimits_nil fun _ => rfl
  | cons s later ih =>
    obtain ⟨hs, hlater⟩ := List.forall_mem_cons.1 h
    rw [List.flatMap_cons]
    exact (delimits_text hs).bind ((ih hlater).bind_nil fun _ => rfl)

theorem delimits_textList {items : List String} (h : TextListFits items) :
    Delimits textList (Encoder.textList items) items :=
  (delimits_count (by decide) h.1).bind (delimits_texts h.2)

end Decoder

/-! ## Bodies -/

open Decoder

theorem JoinRequest.delimits {r : JoinRequest} (h : r.Fits) : Delimits decoder r.encode r :=
  (delimits_text h.digest).bind ((delimits_text h.nodeId).bind ((delimits_textList h.tags).bind
    ((delimits_uint64 r.timestamp).bind ((delimits_bool r.isReplica).bind_nil fun _ => rfl))))

theorem FailureCode.delimits (c : FailureCode) : Delimits decoder (encodeUInt32 c.index) c := by
  refine (delimits_uint32 c.index).bind_nil fun rest => ?_
  cases c <;> rfl

theorem Failure.delimits {f : Failure} (h : TextFits f.description) : Delimits decoder f.encode f :=
  f.code.delimits.bind ((delimits_text h).bind_nil fun _ => rfl)

namespace Payload

variable {α : Type} {d : Decoder α} {x : α} {kind : Kind} {body part more : Bytes} {p q : Payload}

theorem decodeExact_of_error {cause : DecodeError} (h : d body = .error cause) :
    decodeExact d kind body = .error (.deserialize cause) := by
  simp only [decodeExact, StateT.run, h]

theorem decodeExact_of_rest (h : d body = .ok (x, more)) (hmore : more ≠ []) :
    decodeExact d kind body = .error (.trailing kind more.length) := by
  cases more with
  | nil => exact absurd rfl hmore
  | cons b rest => simp only [decodeExact, StateT.run, h]

/-- Whether the body of a payload is made of fields. -/
def HasFields : Payload → Prop
  | greeting _ => True
  | failure _ => True
  | _ => False

/-- The bodies that are made of fields are read by one decoder each, which must use them up. -/
theorem exists_delimits (hfields : p.HasFields) (hfits : p.Fits) :
    ∃ (α : Type) (d : Decoder α) (x : α) (f : α → Payload),
      (∀ body, decode p.kind body = f <$> decodeExact d p.kind body) ∧ Delimits d p.encode x := by
  cases p with
  | greeting join => exact ⟨_, _, _, greeting, fun _ => rfl, JoinRequest.delimits hfits⟩
  | failure f => exact ⟨_, _, _, failure, fun _ => rfl, Failure.delimits hfits⟩
  | _ => exact absurd hfields id

theorem decode_cut (hfields : p.HasFields) (hfits : p.Fits) (h : part ++ more = p.encode)
    (hmore : more ≠ []) :
    ∃ missing, decode p.kind part = .error (.deserialize (.unexpectedEnd missing)) ∧
      0 < missing ∧ missing ≤ more.length := by
  obtain ⟨α, d, x, f, hdecode, hd⟩ := exists_delimits hfields hfits
  obtain ⟨missing, herror, hbounds⟩ := hd.cut part more h hmore
  refine ⟨missing, ?_, hbounds⟩
  rw [hdecode, decodeExact_of_error herror]
  rfl

theorem decode_continued (hfields : p.HasFields) (hfits : p.Fits) (hmore : more ≠ []) :
    decode p.kind (p.encode ++ more) = .error (.trailing p.kind more.length) := by
  obtain ⟨α, d, x, f, hdecode, hd⟩ := exists_delimits hfields hfits
  rw [hdecode, decodeExact_of_rest (hd.whole more) hmore]
  rfl

theorem HasFields.isProper (h : p.HasFields) : p.IsProper := by
  cases p with
  | statement kind body => exact absurd h id
  | _ => trivial

/-- **Where a body ends.** A body that is made of fields and is cut anywhere lacks some bytes, at
least one and at most those that were cut off, and a body that goes on is refused with the number of
bytes that are too many. So of all bodies that begin this one or go on from it, only this one is
accepted under its kind, and it says one thing. -/
theorem bodies_end_where_they_must (hfields : p.HasFields) (hfits : p.Fits) :
    (∀ part, part <+: p.encode → part ≠ p.encode →
      ∃ missing, decode p.kind part = .error (.deserialize (.unexpectedEnd missing)) ∧
        0 < missing ∧ missing ≤ p.encode.length - part.length) ∧
    (∀ more, more ≠ [] →
      decode p.kind (p.encode ++ more) = .error (.trailing p.kind more.length)) ∧
    ∀ body q, decode p.kind body = .ok q → body <+: p.encode ∨ p.encode <+: body →
      body = p.encode ∧ q = p := by
  refine ⟨?_, fun more => decode_continued hfields hfits, ?_⟩
  · intro part ⟨more, hsplit⟩ hne
    have hmore : more ≠ [] := by
      intro hnil
      rw [hnil, List.append_nil] at hsplit
      exact hne hsplit
    obtain ⟨missing, herror, hpos, hle⟩ := decode_cut hfields hfits hsplit hmore
    refine ⟨missing, herror, hpos, ?_⟩
    rw [← hsplit, List.length_append]
    omega
  · intro body q hq hside
    have hbody : body = p.encode := by
      rcases hside with ⟨more, hmore⟩ | ⟨more, hmore⟩
      · by_cases hnil : more = []
        · rw [← hmore, hnil, List.append_nil]
        · obtain ⟨missing, herror, -⟩ := decode_cut hfields hfits hmore hnil
          rw [hq] at herror
          cases herror
      · by_cases hnil : more = []
        · rw [← hmore, hnil, List.append_nil]
        · rw [← hmore, decode_continued hfields hfits hnil] at hq
          cases hq
    rw [hbody, decode_encode hfits hfields.isProper] at hq
    exact ⟨hbody, (Except.ok.inj hq).symm⟩

/-! ## A greeting that is cut within a tag -/

/-- A join request with a tag of two bytes. Its encoding has 44 bytes, of which the tag is the 34th
and the 35th. -/
private def taggedRequest : JoinRequest where
  digest := ""
  nodeId := "n"
  tags := ["ß"]
  timestamp := 7
  isReplica := false

theorem a_tag_cannot_be_cut_nor_a_role_continued :
    ((greeting taggedRequest).HasFields ∧ (greeting taggedRequest).Fits) ∧
      (∃ missing, decode .greeting (taggedRequest.encode.take 34) =
        .error (.deserialize (.unexpectedEnd missing)) ∧ 0 < missing ∧ missing ≤ 10) ∧
      decode .greeting (taggedRequest.encode ++ [0, 1]) = .error (.trailing .greeting 2) := by
  have hfields : (greeting taggedRequest).HasFields := trivial
  have hfits : (greeting taggedRequest).Fits := ⟨by decide, by decide, by decide⟩
  obtain ⟨hcut, hlong, -⟩ := bodies_end_where_they_must hfields hfits
  refine ⟨⟨hfields, hfits⟩, ?_, hlong [0, 1] (by decide)⟩
  exact hcut (taggedRequest.encode.take 34) (List.take_prefix _ _) (by decide)

end Payload

end ClusterLink
