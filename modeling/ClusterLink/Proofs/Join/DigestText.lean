import ClusterLink.Proofs.Join.SigningInput
/-!
# Which digests pass

A digest is compared as the bytes that it stands for, so the case of its letters does not matter and
nothing else about the text is left open. A text of an odd size, or with a character that is no
hexadecimal digit, stands for no bytes. The form of a request is looked at apart from this, and what
was signed always has a digest of the right form.

Results:
* `Hex.decode?_eq_none_iff`: which texts stand for no bytes.
* `Hex.decode?_eq_some_iff`: a text stands for the bytes that are written as it in lower case.
* `JoinRequest.verify_eq_ok_iff_text`, `JoinRequest.verify_eq_malformed_iff`: what the comparison
  comes to, in terms of the text.
* `JoinRequest.verify_sign_iff`, `JoinRequest.validate_sign_iff`: what becomes of a signed request.
* `JoinRequest.digests_pass_exactly`: all of it.
-/
namespace ClusterLink

namespace Hex

/-- Whether a character is a hexadecimal digit of either case. -/
def IsDigit (c : Char) : Prop :=
  ('0' ≤ c ∧ c ≤ '9') ∨ ('a' ≤ c ∧ c ≤ 'f') ∨ ('A' ≤ c ∧ c ≤ 'F')

/-- Whether a text is not the hexadecimal form of some bytes. -/
def Malformed (s : String) : Prop := s.utf8ByteSize % 2 = 1 ∨ ∃ c ∈ s.toList, ¬ IsDigit c

variable {c : Char} {cs : List Char} {n : Nat} {s : String} {bytes : Bytes}

/-! ## Digits -/

theorem isDigit_iff : IsDigit c ↔ (48 ≤ c.toNat ∧ c.toNat ≤ 57) ∨
    (97 ≤ c.toNat ∧ c.toNat ≤ 102) ∨ (65 ≤ c.toNat ∧ c.toNat ≤ 70) := Iff.rfl

theorem value?_isSome_iff : (value? c).isSome = true ↔ IsDigit c := by
  rw [isDigit_iff, value?]
  split
  · simp [*]
  split
  · simp [*]
  split
  · simp [*]
  · simp [*]

theorem isDigit_of_value? (h : value? c = some n) : IsDigit c := by
  rw [← value?_isSome_iff, h, Option.isSome_some]

/-- A letter has the same value in both cases. -/
theorem value?_toLower (c : Char) : value? c.toLower = value? c := by
  unfold Char.toLower
  split
  · next h =>
    have hlow : 65 ≤ c.toNat := UInt32.le_iff_toNat_le.1 h.1
    have hhigh : c.toNat ≤ 90 := UInt32.le_iff_toNat_le.1 h.2
    have hmoved : ∀ hvalid, Char.toNat ⟨c.val + ('a'.val - 'A'.val), hvalid⟩ = c.toNat + 32 := by
      intro hvalid
      change (c.val + 32).toNat = c.toNat + 32
      rw [UInt32.toNat_add]
      exact Nat.mod_eq_of_lt (Nat.lt_of_le_of_lt (Nat.add_le_add_right hhigh 32) (by decide))
    simp only [value?, hmoved]
    grind
  · rfl

theorem IsDigit.utf8Size (h : IsDigit c) : c.utf8Size = 1 := by
  have hle : c.toNat ≤ 127 := by
    rw [isDigit_iff] at h
    omega
  exact Char.utf8Size_eq_one_iff.2 (UInt32.le_iff_toNat_le.2 hle)

theorem utf8ByteSize_of_digits (h : ∀ c ∈ s.toList, IsDigit c) :
    s.utf8ByteSize = s.toList.length := by
  have hall : ∀ cs : List Char, (∀ c ∈ cs, IsDigit c) →
      (String.ofList cs).utf8ByteSize = cs.length := by
    intro cs
    induction cs with
    | nil => exact fun _ => rfl
    | cons c rest ih =>
      intro h
      obtain ⟨hc, hrest⟩ := List.forall_mem_cons.1 h
      rw [String.ofList_cons, String.utf8ByteSize_append, String.utf8ByteSize_singleton,
        hc.utf8Size, ih hrest, List.length_cons, Nat.add_comm]
  simpa using hall s.toList h

/-! ## Texts -/

/-- Digits come in pairs. -/
theorem ofDigits?_eq_none_iff :
    ofDigits? cs = none ↔ cs.length % 2 = 1 ∨ ∃ c ∈ cs, ¬ IsDigit c := by
  fun_induction ofDigits? cs with
  | case1 => simp
  | case2 => simp
  | case3 high low rest h l hl hh ih =>
    have hlength : (rest.length + 1 + 1) % 2 = rest.length % 2 := by omega
    rw [Option.map_eq_none_iff, ih]
    simp [isDigit_of_value? hh, isDigit_of_value? hl, hlength]
  | case4 high low rest hno =>
    refine ⟨fun _ => Or.inr ?_, fun _ => rfl⟩
    cases hh : value? high with
    | none => exact ⟨high, by simp, by rw [← value?_isSome_iff, hh]; exact Bool.false_ne_true⟩
    | some h =>
      cases hl : value? low with
      | none => exact ⟨low, by simp, by rw [← value?_isSome_iff, hl]; exact Bool.false_ne_true⟩
      | some l => exact absurd hl (hno h l hh)

/-- **Which texts stand for no bytes.** -/
theorem decode?_eq_none_iff : decode? s = none ↔ Malformed s := by
  rw [decode?, ofDigits?_eq_none_iff, Malformed]
  by_cases h : ∃ c ∈ s.toList, ¬ IsDigit c
  · simp [h]
  · rw [utf8ByteSize_of_digits (by simpa using h)]

theorem ofDigits?_map_toLower (cs : List Char) : ofDigits? (cs.map Char.toLower) = ofDigits? cs := by
  fun_induction ofDigits? cs with
  | case1 => rfl
  | case2 => rfl
  | case3 high low rest h l hl hh ih => simp [ofDigits?, value?_toLower, hh, hl, ih]
  | case4 high low rest hno => simp only [List.map_cons, ofDigits?, value?_toLower]

/-- **A text stands for the bytes that are written as it in lower case.** -/
theorem decode?_eq_some_iff : decode? s = some bytes ↔ s.toLower = encode bytes := by
  have hlower : s.toLower.toList = s.toList.map Char.toLower := String.toList_map
  rw [← String.toList_inj, hlower, encode, String.toList_ofList, decode?]
  refine ⟨fun h => (digits_of_ofDigits? h).symm, fun h => ?_⟩
  rw [← ofDigits?_map_toLower, h, ofDigits?_digits]

end Hex

namespace JoinRequest

variable {mac : Mac} {secret secret' : Bytes} {r : JoinRequest}

/-! ## The comparison -/

/-- The digest that a secret gives to the fields of a request. -/
def rightDigest (mac : Mac) (secret : Bytes) (r : JoinRequest) : String :=
  joinDigest mac secret r.timestamp r.nodeId r.isReplica r.tags

/-- A digest passes if it is the right one in lower case. -/
theorem verify_eq_ok_iff_text :
    r.verify mac secret = .ok () ↔ r.digest.toLower = r.rightDigest mac secret := by
  rw [verify_eq_ok_iff_code, Hex.decode?_eq_some_iff]
  rfl

theorem verify_eq_malformed_iff :
    r.verify mac secret = .error .malformedDigest ↔ Hex.Malformed r.digest := by
  rw [← Hex.decode?_eq_none_iff, verify]
  split
  · next h => simp [h]
  · next claimed h =>
    rw [h]
    split <;> simp

theorem verify_eq_badDigest_iff : r.verify mac secret = .error .badDigest ↔
    ¬ Hex.Malformed r.digest ∧ r.digest.toLower ≠ r.rightDigest mac secret := by
  rw [← verify_eq_malformed_iff, ne_eq, ← verify_eq_ok_iff_text, verify]
  split
  · simp
  · split <;> simp

/-! ## Signed requests -/

/-- **A signed request passes under another secret if both give its fields the same code.** -/
theorem verify_sign_iff (nodeId : String) (tags : List String) (isReplica : Bool)
    (timestamp : UInt64) :
    (sign mac secret nodeId tags isReplica timestamp).verify mac secret' = .ok () ↔
      joinCode mac secret timestamp nodeId isReplica tags =
        joinCode mac secret' timestamp nodeId isReplica tags := by
  rw [verify_eq_ok_iff_code, sign, joinDigest, Hex.decode?_encode, Option.some.injEq]
  rfl

/-- **A signed request has the right form if its fields do.** -/
theorem validate_sign_iff (nodeId : String) (tags : List String) (isReplica : Bool)
    (timestamp : UInt64) :
    (sign mac secret nodeId tags isReplica timestamp).validate = .ok () ↔
      nodeId ≠ "" ∧ nodeId.utf8ByteSize ≤ 255 ∧ '|' ∉ nodeId.toList ∧
        (∀ tag ∈ tags, '|' ∉ tag.toList ∧ ',' ∉ tag.toList) ∧ timestamp ≠ 0 := by
  rw [validate_eq_ok_iff]
  constructor
  · rintro ⟨hne, hsize, hfree, htags, htime, -⟩
    exact ⟨hne, hsize, hfree, htags, htime⟩
  · rintro ⟨hne, hsize, hfree, htags, htime⟩
    exact ⟨hne, hsize, hfree, htags, htime, utf8ByteSize_joinDigest ..⟩

/-- **Which digests pass.** Whatever the code is, a digest passes exactly if its text in lower case
is the one that the secret gives; it is malformed exactly if its size is odd or one of its characters
is no hexadecimal digit, and in every other case it does not match. So a signed request passes under
another secret exactly if both give the same code of its signing input, and it has the right form
exactly if its fields do. -/
theorem digests_pass_exactly (mac : Mac) (secret : Bytes) :
    (∀ r : JoinRequest,
      (r.verify mac secret = .ok () ↔
        r.digest.toLower = joinDigest mac secret r.timestamp r.nodeId r.isReplica r.tags) ∧
      (r.verify mac secret = .error .malformedDigest ↔
        r.digest.utf8ByteSize % 2 = 1 ∨ ∃ c ∈ r.digest.toList, ¬ Hex.IsDigit c) ∧
      (r.verify mac secret ≠ .ok () → r.verify mac secret ≠ .error .malformedDigest →
        r.verify mac secret = .error .badDigest)) ∧
    ∀ nodeId tags isReplica timestamp,
      (∀ secret', (sign mac secret nodeId tags isReplica timestamp).verify mac secret' = .ok () ↔
        mac.tag secret (bytesOfText (signingInput timestamp nodeId isReplica tags)) =
          mac.tag secret' (bytesOfText (signingInput timestamp nodeId isReplica tags))) ∧
      ((sign mac secret nodeId tags isReplica timestamp).validate = .ok () ↔
        nodeId ≠ "" ∧ nodeId.utf8ByteSize ≤ 255 ∧ '|' ∉ nodeId.toList ∧
          (∀ tag ∈ tags, '|' ∉ tag.toList ∧ ',' ∉ tag.toList) ∧ timestamp ≠ 0) := by
  refine ⟨fun r => ⟨verify_eq_ok_iff_text, verify_eq_malformed_iff, fun hok hmalformed => ?_⟩,
    fun nodeId tags isReplica timestamp =>
      ⟨fun _ => verify_sign_iff nodeId tags isReplica timestamp, validate_sign_iff ..⟩⟩
  rw [ne_eq, verify_eq_ok_iff_text] at hok
  rw [ne_eq, verify_eq_malformed_iff] at hmalformed
  exact verify_eq_badDigest_iff.2 ⟨hmalformed, hok⟩

end JoinRequest

end ClusterLink
