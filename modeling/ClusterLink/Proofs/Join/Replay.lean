import ClusterLink.Proofs.Join.DigestText
/-!
# Digests of a signer that checks nothing

A signer takes any fields, bars and commas in them included, and a digest says nothing about where
one field ended and the next began. A server takes only requests whose parts have no bars and whose
tags have no commas. So it cannot be brought to see other boundaries than the signer's: the bars of
the request are all the bars of the signed text, and only the commas in the signer's tags are read as
ends of tags.

Results:
* `signedText_eq_iff_repeats`: which fields have the signing input of a request of the right form.
* `joinTags_eq_iff_pieces`: which tags such a request has then.
* `verify_issued_iff`: when a request passes with a digest that was issued for other fields.
* `JoinRequest.issued_digests_name_one_node`: all of it.
-/
namespace ClusterLink

/-! ## Tags cut at their commas -/

/-- The tags that some tags look like in a signing input: each of them is cut at its commas. -/
def tagPieces (tags : List String) : List String :=
  tags.flatMap fun tag => (tag.toList.splitOn tagSeparator).map String.ofList

theorem tagSeparator_notMem_splitOn {text piece : List Char}
    (h : piece ∈ text.splitOn tagSeparator) : tagSeparator ∉ piece := by
  induction text generalizing piece with
  | nil =>
    rw [List.splitOn_nil, List.mem_singleton] at h
    subst h
    exact List.not_mem_nil
  | cons c rest ih =>
    rw [List.splitOn_cons_eq_if_modifyHead] at h
    obtain ⟨first, later, hsplit⟩ := List.exists_cons_of_ne_nil (List.splitOn_ne_nil tagSeparator rest)
    rw [hsplit] at h ih
    by_cases hc : c = tagSeparator
    · simp only [hc, beq_self_eq_true, if_true, List.mem_cons] at h
      rcases h with rfl | h
      · exact List.not_mem_nil
      · exact ih (List.mem_cons.2 h)
    · simp only [beq_iff_eq, hc, if_false, List.modifyHead_cons, List.mem_cons] at h
      rcases h with rfl | h
      · have hfirst := ih (List.mem_cons_self ..)
        simp only [List.mem_cons, not_or]
        exact ⟨fun heq => hc heq.symm, hfirst⟩
      · exact ih (List.mem_cons_of_mem _ h)

theorem tagSeparator_notMem_tagPieces {tags : List String} :
    ∀ piece ∈ tagPieces tags, tagSeparator ∉ piece.toList := by
  intro piece hpiece
  obtain ⟨tag, -, hmem⟩ := List.mem_flatMap.1 hpiece
  obtain ⟨text, htext, rfl⟩ := List.mem_map.1 hmem
  rw [String.toList_ofList]
  exact tagSeparator_notMem_splitOn htext

/-- A tag is its pieces with the commas put back. -/
theorem joinTags_pieces_of_tag (tag : String) :
    joinTags ((tag.toList.splitOn tagSeparator).map String.ofList) = tag := by
  have hpieces : ((tag.toList.splitOn tagSeparator).map String.ofList).map String.toList =
      tag.toList.splitOn tagSeparator := by
    rw [List.map_map]
    exact List.map_id'' (fun _ => String.toList_ofList) _
  rw [← String.toList_inj, joinTags, String.toList_intercalate, hpieces]
  exact List.intercalate_splitOn tagSeparator

/-- Cutting tags at their commas does not change how they stand in a signing input. -/
theorem joinTags_tagPieces (tags : List String) : joinTags (tagPieces tags) = joinTags tags := by
  induction tags with
  | nil => rfl
  | cons tag later ih =>
    have hsplit : tagPieces (tag :: later) =
        (tag.toList.splitOn tagSeparator).map String.ofList ++ tagPieces later := List.flatMap_cons
    have hne (text : String) : (text.toList.splitOn tagSeparator).map String.ofList ≠ [] := by
      simp [List.splitOn_ne_nil]
    cases later with
    | nil =>
      rw [hsplit, show tagPieces [] = [] from rfl, List.append_nil, joinTags_pieces_of_tag, joinTags,
        String.intercalate_singleton]
    | cons next later =>
      have hlater : tagPieces (next :: later) ≠ [] := by
        intro hnil
        exact hne next (List.flatMap_eq_nil_iff.1 hnil next (List.mem_cons_self ..))
      have htag := joinTags_pieces_of_tag tag
      unfold joinTags at htag ih ⊢
      rw [hsplit, String.intercalate_append_of_ne_nil (hne tag) hlater, ih, htag,
        String.intercalate_cons_cons]

/-- Tags without commas look like other tags exactly if they are the pieces of these. -/
theorem joinTags_eq_iff_pieces {tags others : List String}
    (h : ∀ tag ∈ others, tagSeparator ∉ tag.toList) :
    joinTags tags = joinTags others ↔ SameTags (tagPieces tags) others := by
  rw [← joinTags_tagPieces tags]
  exact joinTags_eq_iff tagSeparator_notMem_tagPieces h

namespace JoinRequest

variable {r : JoinRequest} {timestamp : UInt64} {nodeId : String} {isReplica : Bool}
  {tags : List String}

/-! ## Digests that were issued for other fields -/

/-- Whether a request says what a signer was given, with the tags as one text. -/
structure Repeats (r : JoinRequest) (timestamp : UInt64) (nodeId : String) (isReplica : Bool)
    (tags : List String) : Prop where
  timestamp : timestamp = r.timestamp
  nodeId : nodeId = r.nodeId
  isReplica : isReplica = r.isReplica
  tags : joinTags tags = joinTags r.tags

/-- Whether two different texts have one authentication code. -/
def Collide (mac : Mac) (secret : Bytes) (a b : String) : Prop :=
  a ≠ b ∧ mac.tag secret (bytesOfText a) = mac.tag secret (bytesOfText b)

/-- **No field runs into another.** Whatever a signer was given, it signed the text of a request of
the right form only if it was given the same time, node id and role, and tags that look the same. -/
theorem signedText_eq_iff_repeats (hr : r.WellFormed) :
    signingInput timestamp nodeId isReplica tags = r.signedText ↔
      r.Repeats timestamp nodeId isReplica tags := by
  have hbars := separator_notMem_joinTags fun tag h => (hr.tags_free tag h).1
  rw [eq_comm, signedText, signingInput_eq_iff hr.nodeId_free hbars]
  constructor
  · intro hsame
    obtain ⟨htime, hid, hrole, htags⟩ := hsame
    exact ⟨htime.symm, hid.symm, hrole.symm, htags.symm⟩
  · intro hrepeats
    exact ⟨hrepeats.timestamp.symm, hrepeats.nodeId.symm, hrepeats.isReplica.symm,
      hrepeats.tags.symm⟩

/-- A digest that was issued for some fields passes for a request if both have the same code. -/
theorem verify_issued_iff {mac : Mac} {secret : Bytes}
    (hissued : r.digest.toLower = (sign mac secret nodeId tags isReplica timestamp).digest) :
    r.verify mac secret = .ok () ↔
      signingInput timestamp nodeId isReplica tags = r.signedText ∨
        Collide mac secret (signingInput timestamp nodeId isReplica tags) r.signedText := by
  have hclaimed : Hex.decode? r.digest =
      some (joinCode mac secret timestamp nodeId isReplica tags) := Hex.decode?_eq_some_iff.2 hissued
  have hcodes : r.verify mac secret = .ok () ↔
      mac.tag secret (bytesOfText (signingInput timestamp nodeId isReplica tags)) =
        mac.tag secret (bytesOfText r.signedText) := by
    rw [verify_eq_ok_iff_code, hclaimed, Option.some.injEq]
    rfl
  rw [hcodes]
  by_cases htext : signingInput timestamp nodeId isReplica tags = r.signedText
  · simp [htext]
  · simp [htext, Collide]

/-- **An issued digest names one node.** A signer that checks nothing and a server that checks the
form of a request agree on where the fields of a signed text begin and end. So a text that was signed
for any fields is the text of a request of the right form exactly if time, node id and role are the
same and the tags are the same when joined by commas, and the tags of the request are then the
signer's, cut at their commas (where an empty tag alone counts as no tags). A request with a digest
that was issued for any fields, in either case of letters, passes exactly then, unless the codes of
two different texts collide. -/
theorem issued_digests_name_one_node (h : r.validate = .ok ()) (timestamp : UInt64)
    (nodeId : String) (isReplica : Bool) (tags : List String) :
    (signingInput timestamp nodeId isReplica tags =
        signingInput r.timestamp r.nodeId r.isReplica r.tags ↔
      r.Repeats timestamp nodeId isReplica tags) ∧
    (joinTags tags = joinTags r.tags ↔ SameTags (tagPieces tags) r.tags) ∧
    ∀ (mac : Mac) (secret : Bytes),
      r.digest.toLower = (sign mac secret nodeId tags isReplica timestamp).digest →
        (r.verify mac secret = .ok () ↔
          r.Repeats timestamp nodeId isReplica tags ∨
            Collide mac secret (signingInput timestamp nodeId isReplica tags) r.signedText) := by
  have hr := r.validate_eq_ok_iff.1 h
  refine ⟨signedText_eq_iff_repeats hr, joinTags_eq_iff_pieces fun tag htag =>
    (hr.tags_free tag htag).2, ?_⟩
  intro mac secret hissued
  rw [verify_issued_iff hissued, signedText_eq_iff_repeats hr]

/-! ## A tag with a comma and a node id with bars -/

private def issuerSecret : Bytes := bytesOfText "issuer-secret"

/-- The digest that a signer gives to a node without asking about separators. -/
private def issued (nodeId : String) (tags : List String) : String :=
  (sign .hmacSha256 issuerSecret nodeId tags false 1700000000000).digest

/-- The request of a node with two tags, under some digest. -/
private def presented (digest : String) : JoinRequest where
  digest := digest
  nodeId := "node-2"
  tags := ["ssd", "nvme"]
  timestamp := 1700000000000
  isReplica := false

private theorem validate_presented (nodeId : String) (tags : List String) :
    (presented (issued nodeId tags)).validate = .ok () := by
  refine (validate_eq_ok_iff _).2 ⟨?_, ?_, ?_, ?_, ?_, utf8ByteSize_joinDigest ..⟩
  · exact show "node-2" ≠ "" by decide
  · exact show "node-2".utf8ByteSize ≤ maxNodeIdBytes by decide
  · exact show fieldSeparator ∉ "node-2".toList by decide
  · exact show ∀ tag ∈ ["ssd", "nvme"], fieldSeparator ∉ tag.toList ∧ tagSeparator ∉ tag.toList by
      decide
  · exact show (1700000000000 : UInt64) ≠ 0 by decide

private theorem toLower_issued (nodeId : String) (tags : List String) :
    (presented (issued nodeId tags)).digest.toLower = issued nodeId tags :=
  Hex.decode?_eq_some_iff.1 (Hex.decode?_encode _)

theorem a_comma_ends_a_tag_and_a_bar_ends_no_node_id :
    ((presented (issued "node-2" ["ssd,nvme"])).validate = .ok () ∧
      (presented (issued "node-2" ["ssd,nvme"])).verify .hmacSha256 issuerSecret = .ok ()) ∧
    (presented (issued "node-2|false|ssd" ["nvme"])).validate = .ok () ∧
      (presented (issued "node-2|false|ssd" ["nvme"])).verify .hmacSha256 issuerSecret ≠ .ok () := by
  have hcomma := validate_presented "node-2" ["ssd,nvme"]
  have hbar := validate_presented "node-2|false|ssd" ["nvme"]
  obtain ⟨-, -, hcommaPasses⟩ :=
    issued_digests_name_one_node hcomma 1700000000000 "node-2" false ["ssd,nvme"]
  obtain ⟨-, -, hbarPasses⟩ :=
    issued_digests_name_one_node hbar 1700000000000 "node-2|false|ssd" false ["nvme"]
  have hcodes : joinCode .hmacSha256 issuerSecret 1700000000000 "node-2|false|ssd" false ["nvme"] ≠
      joinCode .hmacSha256 issuerSecret 1700000000000 "node-2" false ["ssd", "nvme"] := by
    decide +kernel
  refine ⟨⟨hcomma, ?_⟩, hbar, ?_⟩
  · exact (hcommaPasses .hmacSha256 issuerSecret (toLower_issued ..)).2
      (Or.inl ⟨rfl, rfl, rfl, by decide⟩)
  · intro hpasses
    rcases (hbarPasses .hmacSha256 issuerSecret (toLower_issued ..)).1 hpasses with hsame | hcollide
    · exact absurd hsame.nodeId (by decide)
    · exact hcodes hcollide.2

end JoinRequest

end ClusterLink
