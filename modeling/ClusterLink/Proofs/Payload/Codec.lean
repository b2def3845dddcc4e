import ClusterLink.Payload.Basic
/-!
# Reading back what was written

Each decoder takes exactly the encodings of its values off the front of a byte string. It finds the
value again whatever follows, and it accepts no other bytes. Texts and lists are limited by the
memory that their counts ask for.

Results:
* `Decoder.bind_eq_ok`, `Decoder.bind_eq_error`: how a decoder that goes on after another one ends.
* `Decoder.text_eq_ok_iff`, `Decoder.textList_eq_ok_iff`: what reads as a text or as a list of texts.
* `JoinRequest.decoder_eq_ok_iff`, `Failure.decoder_eq_ok_iff`: the same of whole bodies.
* `Payload.decode_eq_ok_iff`: what a body of each kind is decoded to.
-/
namespace ClusterLink

namespace Decoder

variable {α β : Type} {d : Decoder α} {f : α → Decoder β} {bytes rest : Bytes} {n cell : Nat}

theorem bind_eq_ok {y : β} :
    (d >>= f) bytes = .ok (y, rest) ↔ ∃ x mid, d bytes = .ok (x, mid) ∧ f x mid = .ok (y, rest) := by
  change (d bytes).bind (fun p => f p.1 p.2) = _ ↔ _
  cases d bytes with
  | error e => simp [Except.bind]
  | ok p =>
    refine ⟨fun h => ⟨p.1, p.2, rfl, h⟩, ?_⟩
    rintro ⟨x, mid, hp, h⟩
    cases hp
    exact h

theorem bind_eq_error {e : DecodeError} :
    (d >>= f) bytes = .error e ↔
      d bytes = .error e ∨ ∃ x mid, d bytes = .ok (x, mid) ∧ f x mid = .error e := by
  change (d bytes).bind (fun p => f p.1 p.2) = _ ↔ _
  cases d bytes with
  | error e' => simp [Except.bind]
  | ok p =>
    refine ⟨fun h => Or.inr ⟨p.1, p.2, rfl, h⟩, ?_⟩
    rintro (h | ⟨x, mid, hp, h⟩)
    · cases h
    · cases hp
      exact h

theorem map_eq_ok {g : α → β} {y : β} :
    (g <$> d) bytes = .ok (y, rest) ↔ ∃ x, d bytes = .ok (x, rest) ∧ g x = y := by
  change (d bytes).bind (fun p => Except.ok (g p.1, p.2)) = _ ↔ _
  cases d bytes with
  | error e => simp [Except.bind]
  | ok p =>
    constructor
    · intro h
      cases h
      exact ⟨p.1, rfl, rfl⟩
    · rintro ⟨x, hp, rfl⟩
      cases hp
      rfl

theorem map_eq_error {g : α → β} {e : DecodeError} :
    (g <$> d) bytes = .error e ↔ d bytes = .error e := by
  change (d bytes).bind (fun p => Except.ok (g p.1, p.2)) = _ ↔ _
  cases d bytes with
  | error e' => simp [Except.bind]
  | ok p => simp [Except.bind]

@[simp] theorem pure_eq_ok {x y : α} :
    (pure x : Decoder α) bytes = .ok (y, rest) ↔ x = y ∧ bytes = rest := by
  change Except.ok (x, bytes) = _ ↔ _
  simp

@[simp] theorem pure_ne_error {x : α} {e : DecodeError} : (pure x : Decoder α) bytes ≠ .error e := by
  change Except.ok (x, bytes) ≠ _
  simp

@[simp] theorem throw_ne_ok {x : α} {e : DecodeError} :
    (throw e : Decoder α) bytes ≠ .ok (x, rest) := by
  change Except.error e ≠ _
  simp

@[simp] theorem throw_eq_error {e e' : DecodeError} :
    (throw e : Decoder α) bytes = .error e' ↔ e = e' := by
  change Except.error e = _ ↔ _
  simp

theorem take_eq_ok_iff {front : Bytes} :
    take n bytes = .ok (front, rest) ↔ bytes = front ++ rest ∧ front.length = n := by
  constructor
  · exact eq_append_of_take
  · rintro ⟨rfl, h⟩
    exact take_append rest h

theorem take_eq_error_iff {e : DecodeError} :
    take n bytes = .error e ↔ bytes.length < n ∧ e = .unexpectedEnd (n - bytes.length) := by
  unfold take
  simp only [List.length_take]
  split
  · next h => simp; omega
  · next h =>
    have hlt : bytes.length < n := by omega
    simp [hlt, Nat.min_eq_right (Nat.le_of_lt hlt), eq_comm]

/-! ## Words and truth values -/

theorem uint32_eq_ok_iff {w : UInt32} :
    uint32 bytes = .ok (w, rest) ↔ bytes = encodeUInt32 w ++ rest := by
  rw [uint32, map_eq_ok]
  constructor
  · rintro ⟨front, h, rfl⟩
    obtain ⟨rfl, hlen⟩ := take_eq_ok_iff.1 h
    rw [encodeUInt32_decodeUInt32 hlen]
  · rintro rfl
    exact ⟨_, take_eq_ok_iff.2 ⟨rfl, length_encodeUInt32 w⟩, decodeUInt32_encodeUInt32 w⟩

theorem uint64_eq_ok_iff {w : UInt64} :
    uint64 bytes = .ok (w, rest) ↔ bytes = encodeUInt64 w ++ rest := by
  rw [uint64, map_eq_ok]
  constructor
  · rintro ⟨front, h, rfl⟩
    obtain ⟨rfl, hlen⟩ := take_eq_ok_iff.1 h
    rw [encodeUInt64_decodeUInt64 hlen]
  · rintro rfl
    exact ⟨_, take_eq_ok_iff.2 ⟨rfl, length_encodeUInt64 w⟩, decodeUInt64_encodeUInt64 w⟩

theorem bool_eq_ok_iff {b : Bool} :
    bool bytes = .ok (b, rest) ↔ bytes = Encoder.bool b ++ rest := by
  rw [bool, bind_eq_ok]
  constructor
  · rintro ⟨front, mid, h, hb⟩
    obtain ⟨rfl, -⟩ := take_eq_ok_iff.1 h
    split at hb
    · obtain ⟨rfl, rfl⟩ := pure_eq_ok.1 hb
      rfl
    · obtain ⟨rfl, rfl⟩ := pure_eq_ok.1 hb
      rfl
    · exact absurd hb throw_ne_ok
  · rintro rfl
    refine ⟨_, rest, take_eq_ok_iff.2 ⟨rfl, rfl⟩, ?_⟩
    cases b <;> rfl

/-! ## Counts, texts and lists -/

theorem toNat_ofNat_of_fits (hcell : 0 < cell) (h : n * cell < memoryLimit) :
    (UInt64.ofNat n).toNat = n := by
  have hle : n ≤ n * cell := Nat.le_mul_of_pos_right n hcell
  refine UInt64.toNat_ofNat_of_lt' (Nat.lt_of_le_of_lt hle (Nat.lt_of_lt_of_le h ?_))
  decide

theorem count_eq_ok_iff (hcell : 0 < cell) :
    count cell bytes = .ok (n, rest) ↔ bytes = Encoder.count n ++ rest ∧ n * cell < memoryLimit := by
  rw [count, bind_eq_ok]
  constructor
  · rintro ⟨w, mid, h, hn⟩
    obtain rfl := uint64_eq_ok_iff.1 h
    split at hn
    · obtain ⟨x, mid', hx, -⟩ := bind_eq_ok.1 hn
      exact absurd hx throw_ne_ok
    · next hfit =>
      obtain ⟨rfl, rfl⟩ := pure_eq_ok.1 hn
      exact ⟨by rw [Encoder.count, UInt64.ofNat_toNat], Nat.lt_of_not_le hfit⟩
  · rintro ⟨rfl, hfit⟩
    have hn := toNat_ofNat_of_fits hcell hfit
    refine ⟨_, rest, uint64_eq_ok_iff.2 rfl, ?_⟩
    rw [hn, if_neg (Nat.not_le_of_lt hfit)]
    rfl

/-- Whether the memory for a text can be asked for. -/
def TextFits (s : String) : Prop := s.utf8ByteSize < memoryLimit

instance (s : String) : Decidable (TextFits s) := inferInstanceAs (Decidable (_ < _))

theorem text_eq_ok_iff {s : String} :
    text bytes = .ok (s, rest) ↔ bytes = Encoder.text s ++ rest ∧ TextFits s := by
  rw [text, bind_eq_ok]
  constructor
  · rintro ⟨n, mid, h, hbody⟩
    obtain ⟨rfl, hfit⟩ := (count_eq_ok_iff Nat.one_pos).1 h
    obtain ⟨front, mid', hf, htext⟩ := bind_eq_ok.1 hbody
    obtain ⟨rfl, hlen⟩ := take_eq_ok_iff.1 hf
    cases hs : textOfBytes? front with
    | none =>
      rw [hs] at htext
      exact absurd htext throw_ne_ok
    | some s' =>
      rw [hs] at htext
      obtain ⟨rfl, rfl⟩ := pure_eq_ok.1 htext
      have hbytes := bytesOfText_of_textOfBytes? hs
      subst hbytes
      rw [← hlen, Nat.mul_one] at hfit
      refine ⟨?_, hfit⟩
      rw [Encoder.text, hlen, List.append_assoc]
  · rintro ⟨rfl, hfit⟩
    refine ⟨s.utf8ByteSize, bytesOfText s ++ rest, (count_eq_ok_iff Nat.one_pos).2 ⟨?_, ?_⟩, ?_⟩
    · rw [Encoder.text, List.append_assoc, length_bytesOfText]
    · rwa [Nat.mul_one]
    · refine bind_eq_ok.2 ⟨bytesOfText s, rest, take_eq_ok_iff.2 ⟨rfl, length_bytesOfText s⟩, ?_⟩
      rw [textOfBytes?_bytesOfText]
      rfl

theorem texts_eq_ok_iff {items : List String} :
    texts n bytes = .ok (items, rest) ↔
      items.length = n ∧ bytes = items.flatMap Encoder.text ++ rest ∧ ∀ s ∈ items, TextFits s := by
  induction n generalizing items bytes with
  | zero =>
    rw [texts, pure_eq_ok]
    constructor
    · rintro ⟨rfl, rfl⟩
      simp
    · rintro ⟨hlen, rfl, -⟩
      rw [List.length_eq_zero_iff.1 hlen]
      exact ⟨rfl, rfl⟩
  | succ n ih =>
    rw [texts, bind_eq_ok]
    constructor
    · rintro ⟨s, mid, hs, h⟩
      obtain ⟨rfl, hfit⟩ := text_eq_ok_iff.1 hs
      obtain ⟨later, mid', hl, h⟩ := bind_eq_ok.1 h
      obtain ⟨rfl, rfl⟩ := pure_eq_ok.1 h
      obtain ⟨rfl, rfl, hall⟩ := ih.1 hl
      refine ⟨rfl, by rw [List.flatMap_cons, List.append_assoc], ?_⟩
      exact List.forall_mem_cons.2 ⟨hfit, hall⟩
    · rintro ⟨hlen, rfl, hall⟩
      obtain ⟨s, later, rfl⟩ := List.exists_cons_of_length_eq_add_one hlen
      obtain ⟨hfit, hall⟩ := List.forall_mem_cons.1 hall
      rw [List.flatMap_cons, List.append_assoc]
      refine ⟨s, _, text_eq_ok_iff.2 ⟨rfl, hfit⟩, bind_eq_ok.2 ⟨later, rest, ?_, rfl⟩⟩
      exact ih.2 ⟨Nat.succ.inj hlen, rfl, hall⟩

/-- Whether the memory for a list of texts can be asked for. -/
def TextListFits (items : List String) : Prop :=
  items.length * textCell < memoryLimit ∧ ∀ s ∈ items, TextFits s

instance (items : List String) : Decidable (TextListFits items) :=
  inferInstanceAs (Decidable (_ ∧ _))

theorem textList_eq_ok_iff {items : List String} :
    textList bytes = .ok (items, rest) ↔
      bytes = Encoder.textList items ++ rest ∧ TextListFits items := by
  have hcell : 0 < textCell := by decide
  rw [textList, bind_eq_ok]
  constructor
  · rintro ⟨n, mid, h, hl⟩
    obtain ⟨rfl, hfit⟩ := (count_eq_ok_iff hcell).1 h
    obtain ⟨rfl, rfl, hall⟩ := texts_eq_ok_iff.1 hl
    exact ⟨by rw [Encoder.textList, List.append_assoc], hfit, hall⟩
  · rintro ⟨rfl, hfit, hall⟩
    refine ⟨items.length, items.flatMap Encoder.text ++ rest,
      (count_eq_ok_iff hcell).2 ⟨?_, hfit⟩, texts_eq_ok_iff.2 ⟨rfl, rfl, hall⟩⟩
    rw [Encoder.textList, List.append_assoc]

end Decoder

/-! ## Bodies -/

namespace JoinRequest

variable {bytes rest : Bytes} {r : JoinRequest}

/-- Whether the memory for a join request can be asked for. -/
structure Fits (r : JoinRequest) : Prop where
  digest : Decoder.TextFits r.digest
  nodeId : Decoder.TextFits r.nodeId
  tags : Decoder.TextListFits r.tags

theorem decoder_eq_ok_iff : decoder bytes = .ok (r, rest) ↔ bytes = r.encode ++ rest ∧ r.Fits := by
  unfold decoder
  constructor
  · intro h
    obtain ⟨digest, b₁, h₁, h⟩ := Decoder.bind_eq_ok.1 h
    obtain ⟨nodeId, b₂, h₂, h⟩ := Decoder.bind_eq_ok.1 h
    obtain ⟨tags, b₃, h₃, h⟩ := Decoder.bind_eq_ok.1 h
    obtain ⟨timestamp, b₄, h₄, h⟩ := Decoder.bind_eq_ok.1 h
    obtain ⟨isReplica, b₅, h₅, h⟩ := Decoder.bind_eq_ok.1 h
    obtain ⟨rfl, rfl⟩ := Decoder.pure_eq_ok.1 h
    obtain ⟨rfl, f₁⟩ := Decoder.text_eq_ok_iff.1 h₁
    obtain ⟨rfl, f₂⟩ := Decoder.text_eq_ok_iff.1 h₂
    obtain ⟨rfl, f₃⟩ := Decoder.textList_eq_ok_iff.1 h₃
    obtain rfl := Decoder.uint64_eq_ok_iff.1 h₄
    obtain rfl := Decoder.bool_eq_ok_iff.1 h₅
    exact ⟨by simp only [encode, List.append_assoc], f₁, f₂, f₃⟩
  · rintro ⟨rfl, f₁, f₂, f₃⟩
    simp only [encode, List.append_assoc]
    refine Decoder.bind_eq_ok.2 ⟨_, _, Decoder.text_eq_ok_iff.2 ⟨rfl, f₁⟩, ?_⟩
    refine Decoder.bind_eq_ok.2 ⟨_, _, Decoder.text_eq_ok_iff.2 ⟨rfl, f₂⟩, ?_⟩
    refine Decoder.bind_eq_ok.2 ⟨_, _, Decoder.textList_eq_ok_iff.2 ⟨rfl, f₃⟩, ?_⟩
    refine Decoder.bind_eq_ok.2 ⟨_, _, Decoder.uint64_eq_ok_iff.2 rfl, ?_⟩
    exact Decoder.bind_eq_ok.2 ⟨_, _, Decoder.bool_eq_ok_iff.2 rfl, rfl⟩

theorem length_le_flatMap_text (items : List String) :
    8 * items.length ≤ (items.flatMap Encoder.text).length := by
  induction items with
  | nil => exact Nat.zero_le _
  | cons s later ih =>
    simp only [List.length_cons, List.flatMap_cons, List.length_append, Encoder.text, Encoder.count,
      length_encodeUInt64]
    omega

/-- A request that a frame can carry fits into memory. -/
theorem fits_of_encode (h : r.encode.length < bodyLimit) : r.Fits := by
  have hcount := length_le_flatMap_text r.tags
  simp only [encode, Encoder.textList, Encoder.text, Encoder.count, List.length_append,
    length_encodeUInt64, length_bytesOfText, bodyLimit] at h
  refine ⟨?_, ?_, ?_, fun tag htag => ?_⟩
  · rw [Decoder.TextFits, memoryLimit]
    omega
  · rw [Decoder.TextFits, memoryLimit]
    omega
  · rw [textCell, memoryLimit]
    omega
  · obtain ⟨before, after, heq⟩ := List.append_of_mem htag
    rw [heq, List.flatMap_append, List.flatMap_cons] at h
    simp only [Encoder.text, List.length_append, length_bytesOfText] at h
    rw [Decoder.TextFits, memoryLimit]
    omega

end JoinRequest

namespace FailureCode

theorem decoder_eq_ok_iff {bytes rest : Bytes} {c : FailureCode} :
    decoder bytes = .ok (c, rest) ↔ bytes = encodeUInt32 c.index ++ rest := by
  rw [decoder, Decoder.bind_eq_ok]
  constructor
  · rintro ⟨w, mid, h, hc⟩
    obtain rfl := Decoder.uint32_eq_ok_iff.1 h
    cases hfind : [handler, unsupported, malformed].find? (fun c => c.index = w) with
    | none =>
      rw [hfind] at hc
      exact absurd hc Decoder.throw_ne_ok
    | some c' =>
      rw [hfind] at hc
      obtain ⟨rfl, rfl⟩ := Decoder.pure_eq_ok.1 hc
      rw [show c'.index = w by simpa using List.find?_some hfind]
  · rintro rfl
    refine ⟨_, rest, Decoder.uint32_eq_ok_iff.2 rfl, ?_⟩
    cases c <;> rfl

end FailureCode

namespace Failure

theorem decoder_eq_ok_iff {bytes rest : Bytes} {f : Failure} :
    decoder bytes = .ok (f, rest) ↔ bytes = f.encode ++ rest ∧ Decoder.TextFits f.description := by
  rw [decoder, Decoder.bind_eq_ok]
  constructor
  · rintro ⟨code, mid, hc, h⟩
    obtain ⟨description, mid', hd, h⟩ := Decoder.bind_eq_ok.1 h
    obtain ⟨rfl, rfl⟩ := Decoder.pure_eq_ok.1 h
    obtain rfl := FailureCode.decoder_eq_ok_iff.1 hc
    obtain ⟨rfl, hfit⟩ := Decoder.text_eq_ok_iff.1 hd
    exact ⟨by simp only [encode, List.append_assoc], hfit⟩
  · rintro ⟨rfl, hfit⟩
    simp only [encode, List.append_assoc]
    refine ⟨_, _, FailureCode.decoder_eq_ok_iff.2 rfl, ?_⟩
    exact Decoder.bind_eq_ok.2 ⟨_, _, Decoder.text_eq_ok_iff.2 ⟨rfl, hfit⟩, rfl⟩

/-- A failure that a frame can carry fits into memory. -/
theorem fits_of_encode {f : Failure} (h : f.encode.length < bodyLimit) :
    Decoder.TextFits f.description := by
  simp only [encode, Encoder.text, List.length_append, length_bytesOfText, bodyLimit] at h
  rw [Decoder.TextFits, memoryLimit]
  omega

end Failure

namespace Payload

variable {kind : Kind} {body : Bytes} {p : Payload}

theorem decodeExact_eq_ok_iff {α : Type} {d : Decoder α} {x : α} :
    decodeExact d kind body = .ok x ↔ d body = .ok (x, []) := by
  unfold decodeExact
  change (match d body with | _ => _) = _ ↔ _
  cases h : d body with
  | error e => simp [StateT.run, h]
  | ok p =>
    obtain ⟨y, rest⟩ := p
    cases rest <;> simp [StateT.run, h]

/-- Whether the memory for the contents can be asked for. -/
def Fits : Payload → Prop
  | greeting join => join.Fits
  | failure f => Decoder.TextFits f.description
  | _ => True

/-- Whether a statement is of a kind that has statements. -/
def IsProper : Payload → Prop
  | statement kind _ => kind.isStatement = true
  | _ => True

theorem map_decodeExact_eq_ok_iff {α : Type} {d : Decoder α} {f : α → Payload} :
    f <$> decodeExact d kind body = .ok p ↔ ∃ x, d body = .ok (x, []) ∧ f x = p := by
  constructor
  · intro h
    cases hd : decodeExact d kind body with
    | error e => rw [hd] at h; cases h
    | ok x =>
      rw [hd] at h
      exact ⟨x, decodeExact_eq_ok_iff.1 hd, Except.ok.inj h⟩
  · rintro ⟨x, hx, rfl⟩
    rw [decodeExact_eq_ok_iff.2 hx]
    rfl

theorem decodeEmpty_eq_ok_iff {q : Payload} : decodeEmpty q body = .ok p ↔ body = [] ∧ q = p := by
  unfold decodeEmpty
  split
  · next h => simp [h]
  · next h => simp [h]

theorem decode_of_isStatement (h : kind.isStatement = true) :
    decode kind body = .ok (statement kind body) := by
  cases kind <;> first | rfl | cases h

/-- What fits and is proper is found again in its encoding. -/
theorem decode_encode (hfits : p.Fits) (hproper : p.IsProper) : decode p.kind p.encode = .ok p := by
  cases p with
  | greeting join =>
    apply map_decodeExact_eq_ok_iff.2
    refine ⟨join, JoinRequest.decoder_eq_ok_iff.2 ⟨?_, hfits⟩, rfl⟩
    rw [List.append_nil]
    rfl
  | failure f =>
    apply map_decodeExact_eq_ok_iff.2
    refine ⟨f, Failure.decoder_eq_ok_iff.2 ⟨?_, hfits⟩, rfl⟩
    rw [List.append_nil]
    rfl
  | statement kind body => exact decode_of_isStatement hproper
  | _ => rfl

/-- What a body is decoded to is proper, fits, and has the body as its encoding. -/
theorem encode_of_decode (h : decode kind body = .ok p) :
    p.kind = kind ∧ p.encode = body ∧ p.Fits ∧ p.IsProper := by
  cases hs : kind.isStatement with
  | true =>
    rw [decode_of_isStatement hs] at h
    cases h
    exact ⟨rfl, rfl, trivial, hs⟩
  | false =>
    cases kind with
    | greeting =>
      obtain ⟨join, hd, rfl⟩ := map_decodeExact_eq_ok_iff.1 h
      obtain ⟨rfl, hfits⟩ := JoinRequest.decoder_eq_ok_iff.1 hd
      exact ⟨rfl, (List.append_nil _).symm, hfits, trivial⟩
    | error =>
      obtain ⟨f, hd, rfl⟩ := map_decodeExact_eq_ok_iff.1 h
      obtain ⟨rfl, hfits⟩ := Failure.decoder_eq_ok_iff.1 hd
      exact ⟨rfl, (List.append_nil _).symm, hfits, trivial⟩
    | welcome | ping | pong =>
      obtain ⟨rfl, rfl⟩ := decodeEmpty_eq_ok_iff.1 h
      exact ⟨rfl, rfl, trivial, trivial⟩
    | unknown code => cases h
    | _ => cases hs

/-- **A body is decoded to exactly the payloads of its kind that have it as their encoding.** -/
theorem decode_eq_ok_iff :
    decode kind body = .ok p ↔ p.kind = kind ∧ p.encode = body ∧ p.Fits ∧ p.IsProper := by
  constructor
  · exact encode_of_decode
  · rintro ⟨rfl, rfl, hfits, hproper⟩
    exact decode_encode hfits hproper

theorem decode_greeting (h : decode .greeting body = .ok p) : ∃ join, p = greeting join := by
  obtain ⟨hkind, -, -, hproper⟩ := encode_of_decode h
  cases p with
  | greeting join => exact ⟨join, rfl⟩
  | statement kind body => subst hkind; cases hproper
  | _ => cases hkind

/-- A body that a frame can carry says that a node wants to join exactly if it is the encoding of a
join request in a greeting. -/
theorem decode_eq_greeting_iff (hbody : body.length < bodyLimit) {join : JoinRequest} :
    decode kind body = .ok (greeting join) ↔ kind = .greeting ∧ body = join.encode := by
  rw [decode_eq_ok_iff]
  constructor
  · rintro ⟨rfl, rfl, -⟩
    exact ⟨rfl, rfl⟩
  · rintro ⟨rfl, rfl⟩
    exact ⟨rfl, rfl, JoinRequest.fits_of_encode hbody, trivial⟩

/-- The body of an error that a frame can carry reports a failure exactly if it is the encoding of
it. -/
theorem decode_error_iff (hbody : body.length < bodyLimit) {f : Failure} :
    decode .error body = .ok (failure f) ↔ body = f.encode := by
  rw [decode_eq_ok_iff]
  constructor
  · rintro ⟨-, rfl, -⟩
    rfl
  · rintro rfl
    exact ⟨rfl, rfl, Failure.fits_of_encode hbody, trivial⟩

end Payload

end ClusterLink
