import ClusterLink.Join.Signature
/-!
# What a signature binds

The signing input puts bars between the fields and commas between the tags. A well-formed request
has neither in the parts, so the input names every field again, but for one thing: joining no tags at
all gives the same text as joining one tag without characters. A digest is good for both.

Results:
* `signingInput_eq_iff`: which fields have the signing input of a request without bars in its parts.
* `joinTags_eq_iff`: which lists of tags look the same in a signing input.
* `JoinRequest.verify_sign`: the digest of a signed request is accepted.
* `JoinRequest.signature_binds`: which well-formed requests share a digest.
-/
namespace ClusterLink

namespace Hex

theorem utf8Size_digit {n : Nat} (h : n < 16) : (digit n).utf8Size = 1 := by
  have hall : ∀ k ∈ List.range 16, (digit k).utf8Size = 1 := by decide
  exact hall n (List.mem_range.2 h)

/-- Two bytes of text for every byte. -/
theorem utf8ByteSize_encode (bytes : Bytes) : (encode bytes).utf8ByteSize = 2 * bytes.length := by
  unfold encode
  induction bytes with
  | nil => rfl
  | cons b rest ih =>
    have hb := b.toNat_lt
    have hhigh : (digit (b.toNat / 16)).utf8Size = 1 := utf8Size_digit (by omega)
    have hlow : (digit (b.toNat % 16)).utf8Size = 1 := utf8Size_digit (by omega)
    simp only [digits, String.ofList_cons, String.utf8ByteSize_append, String.utf8ByteSize_singleton,
      ih, hhigh, hlow, List.length_cons]
    omega

theorem decode?_encode (bytes : Bytes) : decode? (encode bytes) = some bytes := by
  simp [decode?, encode]

end Hex

/-! ## Fields -/

/-- How the role stands in a signing input. -/
def roleText (isReplica : Bool) : String := if isReplica then "true" else "false"

/-- How tags stand in a signing input. -/
def joinTags (tags : List String) : String := String.intercalate "," tags

theorem toList_signingInput (timestamp : UInt64) (nodeId : String) (isReplica : Bool)
    (tags : List String) :
    (signingInput timestamp nodeId isReplica tags).toList =
      Nat.toDigits 10 timestamp.toNat ++ fieldSeparator :: (nodeId.toList ++
        fieldSeparator :: ((roleText isReplica).toList ++
          fieldSeparator :: (joinTags tags).toList)) := by
  simp [signingInput, roleText, joinTags, fieldSeparator]

theorem separator_notMem_toDigits (n : Nat) : fieldSeparator ∉ Nat.toDigits 10 n := by
  intro h
  have := Nat.isDigit_of_mem_toDigits (by decide) (by decide) h
  exact absurd this (by decide)

theorem separator_notMem_roleText (isReplica : Bool) :
    fieldSeparator ∉ (roleText isReplica).toList := by
  cases isReplica <;> decide

theorem toDigits_inj {m n : Nat} : Nat.toDigits 10 m = Nat.toDigits 10 n ↔ m = n := by
  refine ⟨fun h => ?_, fun h => h ▸ rfl⟩
  have := congrArg (fun cs => Nat.ofDigitChars 10 cs 0) h
  simpa using this

theorem roleText_inj {a b : Bool} : (roleText a).toList = (roleText b).toList ↔ a = b := by
  cases a <;> cases b <;> decide

/-- Two texts that start with parts without separators agree exactly if these parts and what follows
them do. -/
theorem append_separator_inj {x y u v : List Char} (hx : fieldSeparator ∉ x)
    (hy : fieldSeparator ∉ y) :
    x ++ fieldSeparator :: u = y ++ fieldSeparator :: v ↔ x = y ∧ u = v := by
  refine ⟨fun h => ?_, by rintro ⟨rfl, rfl⟩; rfl⟩
  induction x generalizing y with
  | nil =>
    cases y with
    | nil => exact ⟨rfl, (List.cons.inj h).2⟩
    | cons d y => exact absurd (List.mem_cons.2 (Or.inl (List.cons.inj h).1)) hy
  | cons c x ih =>
    cases y with
    | nil => exact absurd (List.mem_cons.2 (Or.inl (List.cons.inj h).1.symm)) hx
    | cons d y =>
      obtain ⟨rfl, hrest⟩ := List.cons.inj h
      obtain ⟨rfl, rfl⟩ := ih (fun hc => hx (List.mem_cons_of_mem _ hc))
        (fun hc => hy (List.mem_cons_of_mem _ hc)) hrest
      exact ⟨rfl, rfl⟩

/-- The bars of a request without bars in its parts delimit the fields, whoever else signed the same
text. -/
theorem signingInput_eq_iff {timestamp timestamp' : UInt64} {nodeId nodeId' : String}
    {isReplica isReplica' : Bool} {tags tags' : List String}
    (hid : fieldSeparator ∉ nodeId.toList) (htags : fieldSeparator ∉ (joinTags tags).toList) :
    signingInput timestamp nodeId isReplica tags =
        signingInput timestamp' nodeId' isReplica' tags' ↔
      timestamp = timestamp' ∧ nodeId = nodeId' ∧ isReplica = isReplica' ∧
        joinTags tags = joinTags tags' := by
  refine ⟨fun h => ?_, ?_⟩
  · have hlist := congrArg String.toList h
    rw [toList_signingInput, toList_signingInput,
      append_separator_inj (separator_notMem_toDigits _) (separator_notMem_toDigits _)] at hlist
    obtain ⟨htime, hrest⟩ := hlist
    -- The parts of the one leave no bar over for the parts of the other.
    have hid' : fieldSeparator ∉ nodeId'.toList := by
      have hcount := congrArg (List.count fieldSeparator) hrest
      simp only [List.count_append, List.count_cons_self, List.count_eq_zero.2 hid,
        List.count_eq_zero.2 htags, List.count_eq_zero.2 (separator_notMem_roleText _)] at hcount
      exact List.count_eq_zero.1 (by omega)
    rw [append_separator_inj hid hid', append_separator_inj (separator_notMem_roleText _)
      (separator_notMem_roleText _), roleText_inj, String.toList_inj, String.toList_inj] at hrest
    exact ⟨UInt64.toNat_inj.1 (toDigits_inj.1 htime), hrest.1, hrest.2.1, hrest.2.2⟩
  · rintro ⟨rfl, rfl, rfl, htags⟩
    unfold joinTags at htags
    unfold signingInput
    rw [htags]

/-! ## Tags -/

theorem separator_notMem_joinTags {tags : List String}
    (h : ∀ tag ∈ tags, fieldSeparator ∉ tag.toList) : fieldSeparator ∉ (joinTags tags).toList := by
  induction tags with
  | nil => decide
  | cons tag later ih =>
    obtain ⟨htag, hlater⟩ := List.forall_mem_cons.1 h
    cases later with
    | nil => simpa [joinTags] using htag
    | cons next later =>
      have hrest := ih hlater
      have hcomma : fieldSeparator ∉ ",".toList := by decide
      unfold joinTags at hrest ⊢
      rw [String.intercalate_cons_cons]
      simp only [String.toList_append, List.mem_append]
      rintro ((hm | hm) | hm)
      · exact htag hm
      · exact hcomma hm
      · exact hrest hm

/-- Whether two lists of tags are the same up to one tag without characters standing alone. -/
def SameTags (a b : List String) : Prop := a = b ∨ (a = [] ∧ b = [""]) ∨ (a = [""] ∧ b = [])

instance (a b : List String) : Decidable (SameTags a b) := inferInstanceAs (Decidable (_ ∨ _))

theorem splitOn_joinTags {tags : List String} (h : ∀ tag ∈ tags, tagSeparator ∉ tag.toList)
    (hne : tags ≠ []) : (joinTags tags).toList.splitOn tagSeparator = tags.map String.toList := by
  rw [joinTags, String.toList_intercalate, show ",".toList = [tagSeparator] from rfl]
  refine List.splitOn_intercalate _ ?_ (by simpa using hne)
  simpa using h

/-- Tags without commas can be told apart again, unless there is none or only an empty one. -/
theorem joinTags_eq_iff {a b : List String} (ha : ∀ tag ∈ a, tagSeparator ∉ tag.toList)
    (hb : ∀ tag ∈ b, tagSeparator ∉ tag.toList) : joinTags a = joinTags b ↔ SameTags a b := by
  constructor
  · intro h
    have hsplit := congrArg (fun s : String => s.toList.splitOn tagSeparator) h
    have hmap {xs ys : List String} (h : xs.map String.toList = ys.map String.toList) : xs = ys :=
      List.map_inj_right (fun _ _ => String.toList_inj.1) |>.1 h
    have hnil : (joinTags []).toList.splitOn tagSeparator = [""].map String.toList := by decide
    by_cases hae : a = []
    · by_cases hbe : b = []
      · exact Or.inl (hae.trans hbe.symm)
      · simp only [hae, hnil, splitOn_joinTags hb hbe] at hsplit
        exact Or.inr (Or.inl ⟨hae, (hmap hsplit).symm⟩)
    · by_cases hbe : b = []
      · simp only [hbe, hnil, splitOn_joinTags ha hae] at hsplit
        exact Or.inr (Or.inr ⟨hmap hsplit, hbe⟩)
      · simp only [splitOn_joinTags ha hae, splitOn_joinTags hb hbe] at hsplit
        exact Or.inl (hmap hsplit)
  · rintro (rfl | ⟨rfl, rfl⟩ | ⟨rfl, rfl⟩)
    · rfl
    · rfl
    · rfl

/-! ## Requests -/

namespace JoinRequest

variable {mac : Mac} {secret : Bytes} {a b r : JoinRequest}

/-- The text that the digest of a request has to be made of. -/
def signedText (r : JoinRequest) : String :=
  signingInput r.timestamp r.nodeId r.isReplica r.tags

/-- Whether two requests say the same in all fields but the digest, up to one tag without characters
standing alone. -/
structure SaysSame (a b : JoinRequest) : Prop where
  timestamp : a.timestamp = b.timestamp
  nodeId : a.nodeId = b.nodeId
  isReplica : a.isReplica = b.isReplica
  tags : SameTags a.tags b.tags

theorem signedText_eq_iff (ha : a.WellFormed) (hb : b.WellFormed) :
    a.signedText = b.signedText ↔ a.SaysSame b := by
  rw [signedText, signedText, signingInput_eq_iff ha.nodeId_free
      (separator_notMem_joinTags fun tag h => (ha.tags_free tag h).1),
    joinTags_eq_iff (fun tag h => (ha.tags_free tag h).2) (fun tag h => (hb.tags_free tag h).2)]
  exact ⟨fun ⟨h₁, h₂, h₃, h₄⟩ => ⟨h₁, h₂, h₃, h₄⟩, fun ⟨h₁, h₂, h₃, h₄⟩ => ⟨h₁, h₂, h₃, h₄⟩⟩

/-! ## Signing -/

/-- The code that the digest of a request has to stand for. -/
def code (mac : Mac) (secret : Bytes) (r : JoinRequest) : Bytes :=
  joinCode mac secret r.timestamp r.nodeId r.isReplica r.tags

theorem verify_eq_ok_iff_code : r.verify mac secret = .ok () ↔
    Hex.decode? r.digest = some (r.code mac secret) := verify_eq_ok_iff mac secret r

theorem utf8ByteSize_joinDigest (timestamp : UInt64) (nodeId : String) (isReplica : Bool)
    (tags : List String) :
    (joinDigest mac secret timestamp nodeId isReplica tags).utf8ByteSize = digestTextBytes := by
  rw [joinDigest, Hex.utf8ByteSize_encode, joinCode, mac.length_tag]
  rfl

theorem verify_sign (nodeId : String) (tags : List String) (isReplica : Bool) (timestamp : UInt64) :
    (sign mac secret nodeId tags isReplica timestamp).verify mac secret = .ok () :=
  verify_eq_ok_iff_code.2 (Hex.decode?_encode _)

theorem code_eq_iff
    (hmac : a.code mac secret = b.code mac secret → a.signedText = b.signedText) :
    a.code mac secret = b.code mac secret ↔ a.signedText = b.signedText :=
  ⟨hmac, fun h => congrArg (fun text => mac.tag secret (bytesOfText text)) h⟩

/-- **What a signature binds.** Two well-formed requests have one signing input exactly if they have
the same timestamp, node id and role and the same tags, where an empty tag alone counts as no tags.
Unless their codes collide, they have one digest exactly then, and the digest of the one is accepted
for the other exactly then. -/
theorem signature_binds (ha : a.validate = .ok ()) (hb : b.validate = .ok ()) (mac : Mac)
    (secret : Bytes)
    (hmac : a.code mac secret = b.code mac secret → a.signedText = b.signedText) :
    (a.signedText = b.signedText ↔ a.SaysSame b) ∧
      (Hex.encode (a.code mac secret) = Hex.encode (b.code mac secret) ↔ a.SaysSame b) ∧
      (a.verify mac secret = .ok () → b.digest = a.digest →
        (b.verify mac secret = .ok () ↔ a.SaysSame b)) := by
  have htext := signedText_eq_iff (a.validate_eq_ok_iff.1 ha) (b.validate_eq_ok_iff.1 hb)
  have hcode := code_eq_iff hmac
  refine ⟨htext, ?_, fun hverify hdigest => ?_⟩
  · rw [← htext, ← hcode]
    refine ⟨fun h => ?_, fun h => h ▸ rfl⟩
    have := congrArg Hex.decode? h
    simpa only [Hex.decode?_encode, Option.some.injEq] using this
  · rw [verify_eq_ok_iff_code] at hverify
    rw [verify_eq_ok_iff_code, hdigest, hverify, Option.some.injEq, hcode, htext]

/-! ## A node without tags -/

private def clusterSecret : Bytes := bytesOfText "cluster-secret"

/-- A request of a master that was signed without tags. -/
private def untagged : JoinRequest :=
  sign .hmacSha256 clusterSecret "node-1" [] false 1700000000000

/-- The request with other fields under the digest that it was signed with. -/
private def altered (tags : List String) (isReplica : Bool) : JoinRequest :=
  { untagged with tags, isReplica }

private theorem validate_altered (tags : List String) (isReplica : Bool)
    (h : ∀ tag ∈ tags, fieldSeparator ∉ tag.toList ∧ tagSeparator ∉ tag.toList) :
    (altered tags isReplica).validate = .ok () := by
  refine (validate_eq_ok_iff _).2 ⟨?_, ?_, ?_, h, ?_, utf8ByteSize_joinDigest ..⟩
  · exact show "node-1" ≠ "" by decide
  · exact show "node-1".utf8ByteSize ≤ maxNodeIdBytes by decide
  · exact show fieldSeparator ∉ "node-1".toList by decide
  · exact show (1700000000000 : UInt64) ≠ 0 by decide

theorem a_signature_binds_the_role :
    untagged.validate = .ok () ∧ (altered [] true).validate = .ok () ∧
      untagged.code .hmacSha256 clusterSecret ≠ (altered [] true).code .hmacSha256 clusterSecret ∧
      untagged.verify .hmacSha256 clusterSecret = .ok () ∧
      (altered [] true).verify .hmacSha256 clusterSecret ≠ .ok () := by
  have hmaster : untagged.validate = .ok () := validate_altered [] false (by decide)
  have hreplica : (altered [] true).validate = .ok () := validate_altered [] true (by decide)
  have hcodes : untagged.code .hmacSha256 clusterSecret ≠
      (altered [] true).code .hmacSha256 clusterSecret := by decide +kernel
  have hverify : untagged.verify .hmacSha256 clusterSecret = .ok () := verify_sign ..
  refine ⟨hmaster, hreplica, hcodes, hverify, fun hother => ?_⟩
  have hbinds := signature_binds hmaster hreplica .hmacSha256 clusterSecret (absurd · hcodes)
  exact absurd ((hbinds.2.2 hverify rfl).1 hother).isReplica (by decide)

/-- A request that was signed without tags passes the checks with an empty tag added. -/
theorem an_empty_tag_can_be_added :
    untagged.validate = .ok () ∧ (altered [""] false).validate = .ok () ∧
      untagged.signedText = (altered [""] false).signedText ∧
      untagged.digest = (altered [""] false).digest ∧
      (altered [""] false).verify .hmacSha256 clusterSecret = .ok () ∧
      untagged.tags ≠ (altered [""] false).tags := by
  have hverify : untagged.verify .hmacSha256 clusterSecret = .ok () := verify_sign ..
  exact ⟨validate_altered [] false (by decide), validate_altered [""] false (by decide), rfl, rfl,
    hverify, by decide⟩

end JoinRequest

end ClusterLink
