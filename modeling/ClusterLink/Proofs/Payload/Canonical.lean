import ClusterLink.Proofs.Payload.Codec
/-!
# One body for each payload

What a payload is encoded as is decoded to it again, and nothing else is. So a payload has one body
under its kind and none under another. The form of the bodies that are accepted is given here byte
by byte, without the encoder: every count is that of what follows it, texts are UTF-8, a truth value
is 0 or 1, a code is one of three, and nothing is left over.

Results:
* `Payload.read_back_iff_proper`: which payloads are found again in their encodings.
* `Payload.exists_decode_iff`: the bodies that are accepted are those of the given form.
* `Payload.accepted_bodies_are_canonical`: each of them is the only one of its payload.
-/
namespace ClusterLink

namespace Decoder

variable {bytes : Bytes}

/-- The form of a text: the count of its bytes, and then so many bytes of UTF-8. -/
def IsText (bytes : Bytes) : Prop :=
  ∃ (n : UInt64) (content : Bytes), bytes = encodeUInt64 n ++ content ∧ content.length = n.toNat ∧
    n.toNat < memoryLimit ∧ ByteArray.IsValidUTF8 ⟨content.toArray⟩

/-- The form of a list of texts: the count of its items, and then so many texts. -/
def IsTextList (bytes : Bytes) : Prop :=
  ∃ (n : UInt64) (items : List Bytes), bytes = encodeUInt64 n ++ items.flatten ∧
    items.length = n.toNat ∧ n.toNat * textCell < memoryLimit ∧ ∀ item ∈ items, IsText item

theorem isText_iff : IsText bytes ↔ ∃ s, bytes = Encoder.text s ∧ TextFits s := by
  constructor
  · rintro ⟨n, content, rfl, hlen, hfits, hutf8⟩
    have hcontent : bytesOfText (String.fromUTF8 _ hutf8) = content := by
      simp [bytesOfText, String.fromUTF8]
    have hsize : (String.fromUTF8 _ hutf8).utf8ByteSize = n.toNat := by
      rw [← length_bytesOfText, hcontent, hlen]
    refine ⟨String.fromUTF8 _ hutf8, ?_, ?_⟩
    · rw [Encoder.text, Encoder.count, hcontent, hlen, UInt64.ofNat_toNat]
    · rw [TextFits, hsize]
      exact hfits
  · rintro ⟨s, rfl, hfits⟩
    have hn : (UInt64.ofNat s.utf8ByteSize).toNat = s.utf8ByteSize :=
      toNat_ofNat_of_fits Nat.one_pos (by rw [Nat.mul_one]; exact hfits)
    refine ⟨UInt64.ofNat s.utf8ByteSize, bytesOfText s, rfl, ?_, ?_, ?_⟩
    · rw [hn, length_bytesOfText]
    · rw [hn]
      exact hfits
    · exact s.isValidUTF8

/-- Byte strings of the form of texts are the texts of a list. -/
theorem exists_texts {items : List Bytes} (h : ∀ item ∈ items, IsText item) :
    ∃ texts : List String, items = texts.map Encoder.text ∧ ∀ s ∈ texts, TextFits s := by
  induction items with
  | nil => exact ⟨[], rfl, by simp⟩
  | cons item items ih =>
    obtain ⟨hitem, hitems⟩ := List.forall_mem_cons.1 h
    obtain ⟨s, rfl, hs⟩ := isText_iff.1 hitem
    obtain ⟨texts, rfl, htexts⟩ := ih hitems
    exact ⟨s :: texts, rfl, List.forall_mem_cons.2 ⟨hs, htexts⟩⟩

theorem isTextList_iff :
    IsTextList bytes ↔ ∃ texts, bytes = Encoder.textList texts ∧ TextListFits texts := by
  constructor
  · rintro ⟨n, items, rfl, hlen, hfits, hitems⟩
    obtain ⟨texts, rfl, htexts⟩ := exists_texts hitems
    rw [List.length_map] at hlen
    refine ⟨texts, ?_, ?_, htexts⟩
    · rw [Encoder.textList, Encoder.count, hlen, UInt64.ofNat_toNat, List.flatMap_def]
    · rw [hlen]
      exact hfits
  · rintro ⟨texts, rfl, hfits, htexts⟩
    have hn : (UInt64.ofNat texts.length).toNat = texts.length :=
      toNat_ofNat_of_fits (by decide) hfits
    refine ⟨UInt64.ofNat texts.length, texts.map Encoder.text, ?_, ?_, ?_, ?_⟩
    · rw [Encoder.textList, Encoder.count, List.flatMap_def]
    · rw [hn, List.length_map]
    · rw [hn]
      exact hfits
    · intro item hitem
      obtain ⟨s, hs, rfl⟩ := List.mem_map.1 hitem
      exact isText_iff.2 ⟨s, rfl, htexts s hs⟩

end Decoder

namespace FailureCode

theorem exists_index_iff {index : UInt32} : (∃ c : FailureCode, c.index = index) ↔ index < 3 := by
  constructor
  · rintro ⟨c, rfl⟩
    cases c <;> decide
  · intro h
    have hcases : index = 0 ∨ index = 1 ∨ index = 2 := by
      rw [UInt32.lt_iff_toNat_lt] at h
      simp only [← UInt32.toNat_inj]
      simp at h ⊢
      omega
    rcases hcases with rfl | rfl | rfl
    · exact ⟨handler, rfl⟩
    · exact ⟨unsupported, rfl⟩
    · exact ⟨malformed, rfl⟩

end FailureCode

namespace Payload

variable {kind : Kind} {body : Bytes} {p : Payload}

/-- The form of the bodies of each kind. -/
inductive WellFormed : Kind → Bytes → Prop
  | greeting {digest nodeId tags timestamp : Bytes} {flag : UInt8} (hdigest : Decoder.IsText digest)
      (hnodeId : Decoder.IsText nodeId) (htags : Decoder.IsTextList tags)
      (htimestamp : timestamp.length = 8) (hflag : flag = 0 ∨ flag = 1) :
    WellFormed .greeting (digest ++ (nodeId ++ (tags ++ (timestamp ++ [flag]))))
  | error {index : UInt32} {description : Bytes} (hindex : index < 3)
      (hdescription : Decoder.IsText description) :
    WellFormed .error (encodeUInt32 index ++ description)
  | welcome : WellFormed .welcome []
  | ping : WellFormed .ping []
  | pong : WellFormed .pong []
  | statement {kind : Kind} (hkind : kind.isStatement = true) (body : Bytes) : WellFormed kind body

theorem wellFormed_encode (hfits : p.Fits) (hproper : p.IsProper) : WellFormed p.kind p.encode := by
  cases p with
  | greeting join =>
    refine .greeting (Decoder.isText_iff.2 ⟨_, rfl, hfits.digest⟩)
      (Decoder.isText_iff.2 ⟨_, rfl, hfits.nodeId⟩) (Decoder.isTextList_iff.2 ⟨_, rfl, hfits.tags⟩)
      (length_encodeUInt64 _) ?_
    cases join.isReplica with
    | false => exact Or.inl rfl
    | true => exact Or.inr rfl
  | failure f =>
    exact .error (FailureCode.exists_index_iff.1 ⟨f.code, rfl⟩)
      (Decoder.isText_iff.2 ⟨f.description, rfl, hfits⟩)
  | statement kind body => exact .statement hproper body
  | welcome => exact .welcome
  | ping => exact .ping
  | pong => exact .pong

theorem WellFormed.exists_encode (h : WellFormed kind body) :
    ∃ p : Payload, p.kind = kind ∧ p.encode = body ∧ p.Fits ∧ p.IsProper := by
  cases h with
  | @greeting digest nodeId tags timestamp flag hdigest hnodeId htags htimestamp hflag =>
    obtain ⟨digest, rfl, hdigestFits⟩ := Decoder.isText_iff.1 hdigest
    obtain ⟨nodeId, rfl, hnodeIdFits⟩ := Decoder.isText_iff.1 hnodeId
    obtain ⟨tags, rfl, htagsFit⟩ := Decoder.isTextList_iff.1 htags
    have hflag' : [flag] = Encoder.bool (flag = 1) := by
      rcases hflag with rfl | rfl <;> rfl
    refine ⟨.greeting ⟨digest, nodeId, tags, decodeUInt64 timestamp, flag = 1⟩, rfl, ?_,
      ⟨hdigestFits, hnodeIdFits, htagsFit⟩, trivial⟩
    rw [encode, JoinRequest.encode, encodeUInt64_decodeUInt64 htimestamp, hflag']
  | @error index description hindex hdescription =>
    obtain ⟨code, rfl⟩ := FailureCode.exists_index_iff.2 hindex
    obtain ⟨description, rfl, hfits⟩ := Decoder.isText_iff.1 hdescription
    exact ⟨.failure ⟨code, description⟩, rfl, rfl, hfits, trivial⟩
  | welcome => exact ⟨.welcome, rfl, rfl, trivial, trivial⟩
  | ping => exact ⟨.ping, rfl, rfl, trivial, trivial⟩
  | pong => exact ⟨.pong, rfl, rfl, trivial, trivial⟩
  | statement hkind => exact ⟨.statement kind body, rfl, rfl, trivial, hkind⟩

/-- **The bodies that are accepted are those of the given form.** -/
theorem exists_decode_iff : (∃ p, decode kind body = .ok p) ↔ WellFormed kind body := by
  simp only [decode_eq_ok_iff]
  constructor
  · rintro ⟨p, rfl, rfl, hfits, hproper⟩
    exact wellFormed_encode hfits hproper
  · exact WellFormed.exists_encode

/-- **What is read back.** A payload whose contents some memory can hold is found again in its
encoding exactly if it is no statement, or a statement of a kind that has statements. -/
theorem read_back_iff_proper (h : p.Fits) :
    decode p.kind p.encode = .ok p ↔
      ∀ kind body, p = statement kind body → kind.isStatement = true := by
  have hproper : p.IsProper ↔ ∀ kind body, p = statement kind body → kind.isStatement = true := by
    cases p <;> simp [IsProper]
  rw [decode_eq_ok_iff, ← hproper]
  constructor
  · rintro ⟨-, -, -, hp⟩
    exact hp
  · intro hp
    exact ⟨rfl, rfl, h, hp⟩

/-- A join request with texts of several bytes a character, an empty tag and an empty digest. -/
private def request : JoinRequest where
  digest := ""
  nodeId := "knoten-ß"
  tags := ["", "東", "ssd"]
  timestamp := 18446744073709551615
  isReplica := true

theorem a_greeting_is_read_back_but_no_ping_as_statement :
    ((greeting request).Fits ∧ decode .greeting request.encode = .ok (greeting request)) ∧
      (statement .ping []).Fits ∧ decode .ping [] ≠ .ok (statement .ping []) := by
  have hgreeting : (greeting request).Fits := ⟨by decide, by decide, by decide⟩
  have hping : (statement .ping []).Fits := trivial
  refine ⟨⟨hgreeting, ?_⟩, hping, ?_⟩
  · apply (read_back_iff_proper hgreeting).2
    intro kind body heq
    cases heq
  · intro hdecode
    have hstatement := (read_back_iff_proper hping).1 hdecode .ping [] rfl
    cases hstatement

/-- **Accepted bodies are canonical.** A body that is decoded to a payload under some kind is the
payload's encoding, and the payload's kind is that kind. No other body and no other kind is decoded
to the payload, and the body has the form that bodies of its kind have. -/
theorem accepted_bodies_are_canonical (h : decode kind body = .ok p) :
    p.kind = kind ∧ p.encode = body ∧
      (∀ kind' body', decode kind' body' = .ok p → kind' = kind ∧ body' = body) ∧
      WellFormed kind body := by
  obtain ⟨hkind, hbody, -, -⟩ := encode_of_decode h
  refine ⟨hkind, hbody, ?_, exists_decode_iff.1 ⟨p, h⟩⟩
  intro kind' body' h'
  obtain ⟨hkind', hbody', -, -⟩ := encode_of_decode h'
  exact ⟨hkind'.symm.trans hkind, hbody'.symm.trans hbody⟩

/-- The failure "ß" of an application. -/
private def failureBody : Bytes := [0, 0, 0, 0, 0, 0, 0, 0, 0, 0, 0, 2, 0xC3, 0x9F]

theorem a_failure_has_one_body :
    decode .error failureBody = .ok (failure ⟨.handler, "ß"⟩) ∧
      (failure ⟨.handler, "ß"⟩).encode = failureBody ∧
      (∀ kind body, decode kind body = .ok (failure ⟨.handler, "ß"⟩) →
        kind = .error ∧ body = failureBody) ∧
      WellFormed .error failureBody := by
  have hdecode : decode .error failureBody = .ok (failure ⟨.handler, "ß"⟩) := by rfl
  obtain ⟨-, hencode, hunique, hform⟩ := accepted_bodies_are_canonical hdecode
  exact ⟨hdecode, hencode, hunique, hform⟩

end Payload

end ClusterLink
