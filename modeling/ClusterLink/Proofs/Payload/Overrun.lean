import ClusterLink.Proofs.Payload.Codec
import ClusterLink.Proofs.Server.Admission
/-!
# Counts that no memory can hold

A count is turned into memory before the contents behind it are looked at, and a count for which no
memory can be asked at all aborts the decoding. Nothing bounds the counts in a body, so the few bytes
of a count are enough for that, wherever the decoder gets to it: in a greeting before the digest, the
node id, the list of tags and each tag, and in a failure before its description. No other body aborts
the decoding.

Results:
* `Payload.decode_aborts_iff`: which bodies abort the decoding.
* `Gate.authenticate_panics_iff`: which first frames end the thread of their socket.
* `Payload.only_overruns_abort`: both for all bodies that a frame can carry.
-/
namespace ClusterLink

namespace Decoder

variable {bytes : Bytes} {n cell : Nat}

/-- Whether bytes start with a count of items that no memory can hold if each takes `cell` bytes. -/
def Overruns (cell : Nat) (bytes : Bytes) : Prop :=
  8 ≤ bytes.length ∧ memoryLimit ≤ (decodeUInt64 (bytes.take 8)).toNat * cell

instance (cell : Nat) (bytes : Bytes) : Decidable (Overruns cell bytes) :=
  inferInstanceAs (Decidable (_ ∧ _))

theorem overruns_iff :
    Overruns cell bytes ↔ ∃ w rest, uint64 bytes = .ok (w, rest) ∧ memoryLimit ≤ w.toNat * cell := by
  constructor
  · rintro ⟨hlen, hbig⟩
    refine ⟨_, bytes.drop 8, uint64_eq_ok_iff.2 ?_, hbig⟩
    rw [encodeUInt64_decodeUInt64 (by simp [hlen]), List.take_append_drop]
  · rintro ⟨w, rest, h, hbig⟩
    obtain rfl := uint64_eq_ok_iff.1 h
    have htake : (encodeUInt64 w ++ rest).take 8 = encodeUInt64 w :=
      List.take_left' (length_encodeUInt64 w)
    exact ⟨by simp, by rwa [htake, decodeUInt64_encodeUInt64]⟩

theorem take_ne_abort : take n bytes ≠ .error .capacityOverflow := by
  intro h
  cases (take_eq_error_iff.1 h).2

theorem uint32_ne_abort : uint32 bytes ≠ .error .capacityOverflow :=
  fun h => take_ne_abort (map_eq_error.1 h)

theorem uint64_ne_abort : uint64 bytes ≠ .error .capacityOverflow :=
  fun h => take_ne_abort (map_eq_error.1 h)

theorem bool_ne_abort : bool bytes ≠ .error .capacityOverflow := by
  intro h
  rcases bind_eq_error.1 h with h | ⟨front, mid, -, h⟩
  · exact take_ne_abort h
  · split at h
    · exact pure_ne_error h
    · exact pure_ne_error h
    · cases throw_eq_error.1 h

theorem count_aborts_iff : count cell bytes = .error .capacityOverflow ↔ Overruns cell bytes := by
  rw [count, bind_eq_error, overruns_iff]
  refine ⟨?_, ?_⟩
  · rintro (h | ⟨w, rest, hw, h⟩)
    · exact absurd h uint64_ne_abort
    · refine ⟨w, rest, hw, Nat.le_of_not_lt fun hlt => ?_⟩
      rw [if_neg (Nat.not_le_of_lt hlt)] at h
      exact pure_ne_error h
  · rintro ⟨w, rest, hw, hbig⟩
    refine Or.inr ⟨w, rest, hw, ?_⟩
    rw [if_pos hbig]
    rfl

theorem text_aborts_iff : text bytes = .error .capacityOverflow ↔ Overruns 1 bytes := by
  rw [text, bind_eq_error, count_aborts_iff]
  refine or_iff_left ?_
  rintro ⟨n, mid, -, h⟩
  rcases bind_eq_error.1 h with h | ⟨front, rest, -, h⟩
  · exact take_ne_abort h
  · cases hs : textOfBytes? front with
    | none =>
      rw [hs] at h
      cases throw_eq_error.1 h
    | some s =>
      rw [hs] at h
      exact pure_ne_error h

/-- A row of texts aborts at the count of one of them, the ones before it being read. -/
theorem texts_aborts_iff :
    texts n bytes = .error .capacityOverflow ↔
      ∃ items rest, items.length < n ∧ texts items.length bytes = .ok (items, rest) ∧
        Overruns 1 rest := by
  induction n generalizing bytes with
  | zero =>
    rw [texts]
    refine ⟨fun h => absurd h pure_ne_error, ?_⟩
    rintro ⟨items, rest, hlt, -⟩
    exact absurd hlt (Nat.not_lt_zero _)
  | succ n ih =>
    rw [texts, bind_eq_error, text_aborts_iff]
    constructor
    · rintro (h | ⟨s, mid, hs, h⟩)
      · exact ⟨[], bytes, Nat.succ_pos n, rfl, h⟩
      · rcases bind_eq_error.1 h with h | ⟨later, mid', -, h⟩
        · obtain ⟨items, rest, hlt, hitems, hover⟩ := ih.1 h
          refine ⟨s :: items, rest, Nat.succ_lt_succ hlt, ?_, hover⟩
          exact bind_eq_ok.2 ⟨s, mid, hs, bind_eq_ok.2 ⟨items, rest, hitems, rfl⟩⟩
        · exact absurd h pure_ne_error
    · rintro ⟨items, rest, hlt, hitems, hover⟩
      cases items with
      | nil =>
        obtain ⟨-, rfl⟩ := pure_eq_ok.1 hitems
        exact Or.inl hover
      | cons s items =>
        obtain ⟨s', mid, hs, h⟩ := bind_eq_ok.1 hitems
        obtain ⟨items', mid', hl, h⟩ := bind_eq_ok.1 h
        obtain ⟨heq, rfl⟩ := pure_eq_ok.1 h
        cases heq
        have hrest := ih.2 ⟨items, mid', Nat.lt_of_succ_lt_succ hlt, hl, hover⟩
        exact Or.inr ⟨s, mid, hs, bind_eq_error.2 (Or.inl hrest)⟩

end Decoder

/-- What can stand before a count in a body of some kind, and the memory that each of the counted
items takes. -/
inductive Payload.BeforeCount : (kind : Kind) → (front : Bytes) → (cell : Nat) → Prop
  | digest : BeforeCount .greeting [] 1
  | nodeId (digest : String) : BeforeCount .greeting (Encoder.text digest) 1
  | tags (digest nodeId : String) :
    BeforeCount .greeting (Encoder.text digest ++ Encoder.text nodeId) textCell
  /-- Some of the announced tags are there already. -/
  | tag (digest nodeId : String) (tags : List String) (announced : UInt64)
      (h : tags.length < announced.toNat) :
    BeforeCount .greeting (Encoder.text digest ++ (Encoder.text nodeId ++
      (encodeUInt64 announced ++ tags.flatMap Encoder.text))) 1
  | description (code : FailureCode) : BeforeCount .error (encodeUInt32 code.index) 1

/-- Whether a count in the body asks for more than any memory. -/
def Payload.Overruns (kind : Kind) (body : Bytes) : Prop :=
  ∃ front rest cell, BeforeCount kind front cell ∧ body = front ++ rest ∧ Decoder.Overruns cell rest

/-! ## Bodies -/

/-- A text that stands in bytes of the world fits into memory. -/
theorem Decoder.text_append {s : String} {rest : Bytes}
    (h : (Encoder.text s ++ rest).length < memoryLimit) :
    Decoder.text (Encoder.text s ++ rest) = .ok (s, rest) ∧ rest.length < memoryLimit := by
  simp only [Encoder.text, List.length_append, length_bytesOfText] at h
  exact ⟨Decoder.text_eq_ok_iff.2 ⟨rfl, show s.utf8ByteSize < memoryLimit by omega⟩, by omega⟩

theorem Decoder.texts_append {items : List String} {rest : Bytes}
    (h : (items.flatMap Encoder.text ++ rest).length < memoryLimit) :
    Decoder.texts items.length (items.flatMap Encoder.text ++ rest) = .ok (items, rest) := by
  refine Decoder.texts_eq_ok_iff.2 ⟨rfl, rfl, fun s hs => ?_⟩
  obtain ⟨before, after, rfl⟩ := List.append_of_mem hs
  simp only [List.flatMap_append, List.flatMap_cons, Encoder.text, List.length_append,
    length_bytesOfText] at h
  exact show s.utf8ByteSize < memoryLimit by omega

namespace JoinRequest

variable {body : Bytes}

/-- The list of tags aborts at its own count or at the count of a tag. -/
theorem tags_abort_iff (h : body.length < memoryLimit) :
    Decoder.textList body = .error .capacityOverflow ↔ Decoder.Overruns textCell body ∨
      ∃ (announced : UInt64) (tags : List String) (rest : Bytes), tags.length < announced.toNat ∧
        body = encodeUInt64 announced ++ (tags.flatMap Encoder.text ++ rest) ∧
        Decoder.Overruns 1 rest := by
  have hcell : 0 < textCell := by decide
  rw [Decoder.textList, Decoder.bind_eq_error, Decoder.count_aborts_iff]
  constructor
  · rintro (hover | ⟨n, mid, hn, htexts⟩)
    · exact Or.inl hover
    · obtain ⟨rfl, hfit⟩ := (Decoder.count_eq_ok_iff hcell).1 hn
      obtain ⟨tags, rest, hlt, htags, hover⟩ := Decoder.texts_aborts_iff.1 htexts
      obtain ⟨-, rfl, -⟩ := Decoder.texts_eq_ok_iff.1 htags
      refine Or.inr ⟨UInt64.ofNat n, tags, rest, ?_, rfl, hover⟩
      rwa [Decoder.toNat_ofNat_of_fits hcell hfit]
  · rintro (hover | ⟨announced, tags, rest, hlt, rfl, hover⟩)
    · exact Or.inl hover
    · by_cases hbig : memoryLimit ≤ announced.toNat * textCell
      · exact Or.inl (Decoder.overruns_iff.2 ⟨announced, _, Decoder.uint64_eq_ok_iff.2 rfl, hbig⟩)
      · have hfit := Nat.lt_of_not_le hbig
        have hcount : Encoder.count announced.toNat = encodeUInt64 announced := by
          rw [Encoder.count, UInt64.ofNat_toNat]
        rw [List.length_append] at h
        refine Or.inr ⟨announced.toNat, tags.flatMap Encoder.text ++ rest,
          (Decoder.count_eq_ok_iff hcell).2 ⟨by rw [hcount], hfit⟩, ?_⟩
        exact Decoder.texts_aborts_iff.2 ⟨tags, rest, hlt, Decoder.texts_append (by omega), hover⟩

theorem decoder_aborts_iff (h : body.length < memoryLimit) :
    decoder body = .error .capacityOverflow ↔ Payload.Overruns .greeting body := by
  constructor
  · intro habort
    rcases Decoder.bind_eq_error.1 habort with ht | ⟨digest, b₁, h₁, habort₁⟩
    · exact ⟨[], body, 1, .digest, rfl, Decoder.text_aborts_iff.1 ht⟩
    rcases Decoder.bind_eq_error.1 habort₁ with ht | ⟨nodeId, b₂, h₂, habort₂⟩
    · obtain ⟨rfl, -⟩ := Decoder.text_eq_ok_iff.1 h₁
      exact ⟨_, b₁, 1, .nodeId digest, rfl, Decoder.text_aborts_iff.1 ht⟩
    rcases Decoder.bind_eq_error.1 habort₂ with ht | ⟨tags, b₃, h₃, habort₃⟩
    · obtain ⟨rfl, -⟩ := Decoder.text_eq_ok_iff.1 h₁
      obtain ⟨rfl, -⟩ := Decoder.text_eq_ok_iff.1 h₂
      simp only [List.length_append] at h
      rcases (tags_abort_iff (by omega)).1 ht with hover | ⟨announced, tags, rest, hlt, rfl, hover⟩
      · exact ⟨_, b₂, textCell, .tags digest nodeId, by rw [List.append_assoc], hover⟩
      · exact ⟨_, rest, 1, .tag digest nodeId tags announced hlt, by simp only [List.append_assoc],
          hover⟩
    -- Nothing behind the tags is counted.
    rcases Decoder.bind_eq_error.1 habort₃ with ht | ⟨timestamp, b₄, h₄, habort₄⟩
    · exact absurd ht Decoder.uint64_ne_abort
    rcases Decoder.bind_eq_error.1 habort₄ with ht | ⟨isReplica, b₅, h₅, habort₅⟩
    · exact absurd ht Decoder.bool_ne_abort
    · exact absurd habort₅ Decoder.pure_ne_error
  · rintro ⟨front, rest, cell, hfront, rfl, hover⟩
    generalize hk : Kind.greeting = k at hfront
    cases hfront with
    | digest => exact Decoder.bind_eq_error.2 (Or.inl (Decoder.text_aborts_iff.2 hover))
    | nodeId digest =>
      refine Decoder.bind_eq_error.2 (Or.inr ⟨_, _, (Decoder.text_append h).1, ?_⟩)
      exact Decoder.bind_eq_error.2 (Or.inl (Decoder.text_aborts_iff.2 hover))
    | tags digest nodeId =>
      rw [List.append_assoc] at h ⊢
      obtain ⟨hd, h⟩ := Decoder.text_append h
      obtain ⟨hn, h⟩ := Decoder.text_append h
      refine Decoder.bind_eq_error.2 (Or.inr ⟨_, _, hd, ?_⟩)
      refine Decoder.bind_eq_error.2 (Or.inr ⟨_, _, hn, ?_⟩)
      exact Decoder.bind_eq_error.2 (Or.inl ((tags_abort_iff h).2 (Or.inl hover)))
    | tag digest nodeId tags announced hlt =>
      simp only [List.append_assoc] at h ⊢
      obtain ⟨hd, h⟩ := Decoder.text_append h
      obtain ⟨hn, h⟩ := Decoder.text_append h
      refine Decoder.bind_eq_error.2 (Or.inr ⟨_, _, hd, ?_⟩)
      refine Decoder.bind_eq_error.2 (Or.inr ⟨_, _, hn, Decoder.bind_eq_error.2 (Or.inl ?_)⟩)
      exact (tags_abort_iff h).2 (Or.inr ⟨announced, tags, rest, hlt, rfl, hover⟩)
    | description code => cases hk

end JoinRequest

theorem FailureCode.decoder_ne_abort {body : Bytes} :
    FailureCode.decoder body ≠ .error .capacityOverflow := by
  intro h
  rcases Decoder.bind_eq_error.1 h with h | ⟨w, rest, -, h⟩
  · exact Decoder.uint32_ne_abort h
  · cases hfind : [handler, unsupported, malformed].find? (fun c => c.index = w) with
    | none =>
      rw [hfind] at h
      cases Decoder.throw_eq_error.1 h
    | some c =>
      rw [hfind] at h
      exact Decoder.pure_ne_error h

theorem Failure.decoder_aborts_iff {body : Bytes} :
    decoder body = .error .capacityOverflow ↔ Payload.Overruns .error body := by
  rw [decoder, Decoder.bind_eq_error, or_iff_right FailureCode.decoder_ne_abort]
  constructor
  · rintro ⟨code, mid, hc, h⟩
    obtain rfl := FailureCode.decoder_eq_ok_iff.1 hc
    rcases Decoder.bind_eq_error.1 h with h | ⟨description, rest, -, h⟩
    · exact ⟨_, mid, 1, .description code, rfl, Decoder.text_aborts_iff.1 h⟩
    · exact absurd h Decoder.pure_ne_error
  · rintro ⟨front, rest, cell, hfront, rfl, hover⟩
    generalize hk : Kind.error = k at hfront
    cases hfront with
    | description code =>
      refine ⟨code, rest, FailureCode.decoder_eq_ok_iff.2 rfl, ?_⟩
      exact Decoder.bind_eq_error.2 (Or.inl (Decoder.text_aborts_iff.2 hover))
    | _ => cases hk

namespace Payload

variable {kind : Kind} {body : Bytes}

theorem Overruns.kind_eq (h : Overruns kind body) : kind = .greeting ∨ kind = .error := by
  obtain ⟨front, rest, cell, hfront, -⟩ := h
  cases hfront <;> simp

theorem decodeExact_aborts_iff {α : Type} {d : Decoder α} :
    decodeExact d kind body = .error (.deserialize .capacityOverflow) ↔
      d body = .error .capacityOverflow := by
  unfold decodeExact
  change (match d body with | _ => _) = _ ↔ _
  cases h : d body with
  | error e => simp [StateT.run, h]
  | ok p =>
    obtain ⟨x, rest⟩ := p
    cases rest <;> simp [StateT.run, h]

theorem decodeEmpty_ne_abort {p : Payload} :
    decodeEmpty p body ≠ .error (.deserialize .capacityOverflow) := by
  unfold decodeEmpty
  split <;> simp

/-- Exactly the bodies with a count that no memory can hold abort the decoding. -/
theorem decode_aborts_iff (h : body.length < memoryLimit) :
    decode kind body = .error (.deserialize .capacityOverflow) ↔ Overruns kind body := by
  have hmap {α : Type} (f : α → Payload) (x : Except PayloadError α) (e : PayloadError) :
      f <$> x = .error e ↔ x = .error e := by
    cases x <;> simp [Functor.map, Except.map]
  by_cases hg : kind = .greeting
  · subst hg
    rw [← JoinRequest.decoder_aborts_iff h, ← decodeExact_aborts_iff, ← hmap greeting]
    rfl
  by_cases he : kind = .error
  · subst he
    rw [← Failure.decoder_aborts_iff, ← decodeExact_aborts_iff, ← hmap failure]
    rfl
  -- The other kinds carry no counts.
  refine iff_of_false (fun habort => ?_) fun hover => ?_
  · unfold decode at habort
    split at habort
    · exact hg rfl
    · exact he rfl
    · exact decodeEmpty_ne_abort habort
    · exact decodeEmpty_ne_abort habort
    · exact decodeEmpty_ne_abort habort
    · cases habort
    · cases habort
  · rcases hover.kind_eq with rfl | rfl
    · exact hg rfl
    · exact he rfl

end Payload

/-! ## First frames -/

namespace Gate

variable {g : Gate} {m : Message} {s : Frame.Source}

/-- Whether the validator is asked about the request in a frame, and gives up. -/
def ValidatorPanics (g : Gate) (m : Message) : Prop :=
  ∃ join validator cause, m.payload = .ok (.greeting join) ∧
    join.Accepts g.mac g.secret g.now g.maxSkew ∧ g.validator = some validator ∧
    validator join = .error cause

theorem refusal_eq_panicked {cause : PayloadError} {p : Panic} (h : cause.refusal = .panicked p) :
    cause = .deserialize .capacityOverflow := by
  unfold PayloadError.refusal at h
  split at h
  · rfl
  · cases h

theorem payload_aborts_iff :
    m.payload = .error (.deserialize .capacityOverflow) ↔ Payload.Overruns m.kind m.body :=
  Payload.decode_aborts_iff (Nat.lt_of_lt_of_le m.fits (by decide))

/-- The checks of a first frame are given up exactly at a count that no memory can hold, or where
the validator gives up. -/
theorem authenticate_panics_iff :
    (∃ cause, (g.authenticate s).1 = .error (.panicked cause)) ↔
      ∃ m, (Frame.read s).1 = .ok m ∧ (Payload.Overruns m.kind m.body ∨ g.ValidatorPanics m) := by
  simp only [authenticate_eq_iff]
  constructor
  · rintro ⟨cause, h⟩
    generalize hv : (.error (.panicked cause) : Except Refusal (Message × JoinRequest)) = v at h
    generalize hread : (Frame.read s).1 = first at h
    cases h with
    | payload h =>
      refine ⟨_, rfl, Or.inl (payload_aborts_iff.1 ?_)⟩
      rw [h, refusal_eq_panicked (Except.error.inj hv).symm]
    | panicked h haccepts hvalidator hpanic =>
      exact ⟨_, rfl, Or.inr ⟨_, _, _, h, haccepts, hvalidator, hpanic⟩⟩
    | _ => cases hv
  · rintro ⟨m, hread, hover | ⟨join, validator, cause, h, haccepts, hvalidator, hpanic⟩⟩
    · rw [hread]
      exact ⟨_, .payload (payload_aborts_iff.2 hover)⟩
    · rw [hread]
      exact ⟨cause, .panicked h haccepts hvalidator hpanic⟩

/-- A thread is given up before its node is registered only in the checks of the first frame. -/
theorem receive_eq_panicked_iff {socket : Socket} {r : Registry} {c : ConnectionId} {cause : Panic} :
    (g.receive r c socket).1 = .error (.panicked cause) ↔
      (g.authenticate socket.source).1 = .error (.panicked cause) := by
  unfold receive letIn
  cases g.authenticate socket.source with
  | mk verdict t =>
    cases verdict with
    | error refusal => simp
    | ok admitted =>
      obtain ⟨m, join⟩ := admitted
      simp only
      cases ({ socket with source := t } : Socket).write m.welcome with
      | mk result u => cases result <;> simp

end Gate

namespace Payload

/-- **Counts that no memory can hold.** A body that a frame can carry aborts its decoding exactly if
it holds such a count, and every other body is decoded or refused with a reason. The thread of a new
socket is given up, and does not get to end the conversation itself, exactly if its first frame is a
message with such a body or the validator gives up. -/
theorem only_overruns_abort {kind : Kind} {body : Bytes} (h : body.length ≤ maxBodySize.toNat)
    (g : Gate) (r : Registry) (c : ConnectionId) (socket : Socket) :
    (decode kind body = .error (.deserialize .capacityOverflow) ↔ Overruns kind body) ∧
      ((∃ cause, (g.receive r c socket).1 = .error (.panicked cause)) ↔
        ∃ m, (Frame.read socket.source).1 = .ok m ∧
          (Overruns m.kind m.body ∨ g.ValidatorPanics m)) := by
  refine ⟨decode_aborts_iff (Nat.lt_of_le_of_lt h (by decide)), ?_⟩
  simp only [Gate.receive_eq_panicked_iff]
  exact Gate.authenticate_panics_iff

/-! ## Eight bytes -/

/-- The count of the largest digest that can be announced, and no digest. -/
private def bareCount : Bytes := List.replicate 8 255

private theorem bareCount_overruns : Overruns .greeting bareCount :=
  ⟨[], bareCount, 1, .digest, rfl, by decide⟩

private def bareGreeting : Message := ⟨.ofNat 1, .greeting, bareCount, by decide⟩

theorem a_bare_count_aborts :
    bareCount.length ≤ maxBodySize.toNat ∧
      decode .greeting bareCount = .error (.deserialize .capacityOverflow) ∧
      ∀ g : Gate, ∃ cause,
        (g.receive {} ⟨1⟩ { source := .ofBytes bareGreeting.encode }).1 =
          .error (.panicked cause) := by
  have hsize : bareCount.length ≤ maxBodySize.toNat := by decide
  have hread : (Frame.read (.ofBytes bareGreeting.encode)).1 = .ok bareGreeting :=
    Frame.read_eq_ok_iff.2 ⟨hsize, rfl, [], by decide⟩
  have haborts (g : Gate) :
      decode .greeting bareCount = .error (.deserialize .capacityOverflow) ∧
        ∃ cause, (g.receive {} ⟨1⟩ { source := .ofBytes bareGreeting.encode }).1 =
          .error (.panicked cause) := by
    obtain ⟨hdecode, hreceive⟩ := only_overruns_abort hsize g {} ⟨1⟩
      { source := .ofBytes bareGreeting.encode }
    exact ⟨hdecode.2 bareCount_overruns,
      hreceive.2 ⟨bareGreeting, hread, Or.inl bareCount_overruns⟩⟩
  exact ⟨hsize, (haborts { mac := .hmacSha256, secret := [], now := 0 }).1, fun g => (haborts g).2⟩

/-- Some bodies that a frame can carry are neither decoded nor refused. -/
theorem not_every_body_is_answered :
    ¬ ∀ kind body, body.length ≤ maxBodySize.toNat →
      decode kind body ≠ .error (.deserialize .capacityOverflow) := by
  intro h
  exact h .greeting bareCount (by decide)
    ((decode_aborts_iff (by decide)).2 bareCount_overruns)

end Payload

end ClusterLink
