import ClusterLink.Proofs.Frame.Arrival
import ClusterLink.Proofs.Frame.Writing
import ClusterLink.Proofs.Join.SigningInput
import ClusterLink.Proofs.Payload.Codec
import ClusterLink.Server.Handshake
/-!
# Who is let in

A new socket is judged by its first frame: by whether there is one, by what it says, and by form,
digest and age of the join request in it; the validator, where there is one, has the last word. The
first check that fails is the answer, and until all have passed nothing is written and nobody is
registered.

Results:
* `Gate.authenticate_eq_iff`: the verdict is the one that `Gate.Judges` describes.
* `Gate.authenticate_eq_ok_iff`: which sockets are let in.
* `Gate.authenticate_congr`: the validator is not asked about requests that failed before.
* `Gate.receive_of_refused`, `Gate.receive_of_admitted`: what is written and who is registered.
* `Gate.admits_exactly`: all of it, for whatever comes from a socket.
-/
namespace ClusterLink

/-- What can be made of a first frame, or of the reason why there is none. The checks before the one
that decides have passed. -/
inductive Gate.Judges (g : Gate) :
    (first : Except FrameError Message) → (verdict : Except Refusal (Message × JoinRequest)) → Prop
  | frame (cause : FrameError) : Judges g (.error cause) (.error (.failed (.frame cause)))
  | payload {m : Message} {cause : PayloadError} (h : m.payload = .error cause) :
    Judges g (.ok m) (.error cause.refusal)
  | kind {m : Message} {p : Payload} (h : m.payload = .ok p) (hkind : m.kind ≠ .greeting) :
    Judges g (.ok m) (.error (.failed (.join (.unexpectedMessage m.kind.text))))
  | form {m : Message} {join : JoinRequest} {cause : JoinError}
      (h : m.payload = .ok (.greeting join)) (hform : join.validate = .error cause) :
    Judges g (.ok m) (.error (.failed (.join cause)))
  | digest {m : Message} {join : JoinRequest} {cause : JoinError}
      (h : m.payload = .ok (.greeting join)) (hform : join.WellFormed)
      (hdigest : join.verify g.mac g.secret = .error cause) :
    Judges g (.ok m) (.error (.failed (.join cause)))
  | age {m : Message} {join : JoinRequest} {most : Duration}
      (h : m.payload = .ok (.greeting join)) (hform : join.WellFormed)
      (hdigest : join.verify g.mac g.secret = .ok ()) (hskew : g.maxSkew = some most)
      (hstale : most < JoinRequest.skew g.now join.timestamp) :
    Judges g (.ok m)
      (.error (.failed (.join (.stale (JoinRequest.skew g.now join.timestamp)))))
  | rejected {m : Message} {join : JoinRequest} {validator : JoinValidator}
      (h : m.payload = .ok (.greeting join))
      (haccepts : join.Accepts g.mac g.secret g.now g.maxSkew)
      (hvalidator : g.validator = some validator) (hno : validator join = .ok false) :
    Judges g (.ok m) (.error (.failed (.join .rejected)))
  | panicked {m : Message} {join : JoinRequest} {validator : JoinValidator} {cause : Panic}
      (h : m.payload = .ok (.greeting join))
      (haccepts : join.Accepts g.mac g.secret g.now g.maxSkew)
      (hvalidator : g.validator = some validator) (hpanic : validator join = .error cause) :
    Judges g (.ok m) (.error (.panicked cause))
  | admitted {m : Message} {join : JoinRequest} (h : m.payload = .ok (.greeting join))
      (haccepts : join.Accepts g.mac g.secret g.now g.maxSkew)
      (hyes : ∀ validator, g.validator = some validator → validator join = .ok true) :
    Judges g (.ok m) (.ok (m, join))

namespace JoinRequest

variable {mac : Mac} {secret : Bytes} {now : UInt64} {maxSkew : Option Duration} {r : JoinRequest}

theorem check_of_validate {cause : JoinError} (h : r.validate = .error cause) :
    r.check mac secret now maxSkew = .error cause := by
  simp [check, h, bind, Except.bind]

theorem check_of_verify {cause : JoinError} (hform : r.WellFormed)
    (h : r.verify mac secret = .error cause) : r.check mac secret now maxSkew = .error cause := by
  simp [check, (validate_eq_ok_iff r).2 hform, h, bind, Except.bind]

theorem check_of_stale {most : Duration} (hform : r.WellFormed)
    (hdigest : r.verify mac secret = .ok ()) (hstale : most < skew now r.timestamp) :
    r.check mac secret now (some most) = .error (.stale (skew now r.timestamp)) := by
  simp [check, (validate_eq_ok_iff r).2 hform, hdigest, checkFreshness, hstale, bind, Except.bind]

end JoinRequest

namespace Gate

variable {g : Gate} {m : Message} {join : JoinRequest} {s : Frame.Source}

theorem payload_eq_greeting_iff :
    m.payload = .ok (.greeting join) ↔ m.kind = .greeting ∧ m.body = join.encode :=
  Payload.decode_eq_greeting_iff m.fits

theorem fst_authenticate : (g.authenticate s).1 = match (Frame.read s).1 with
    | .error cause => .error (.failed (.frame cause))
    | .ok greeting => (g.check greeting).map fun join => (greeting, join) := by
  unfold authenticate
  cases Frame.read s with
  | mk first t => cases first <;> rfl

theorem check_of_examine {refusal : Refusal} (h : g.examine m = .error refusal) :
    g.check m = .error refusal := by
  simp [check, h, bind, Except.bind]

theorem check_of_approve (h : g.examine m = .ok join) :
    g.check m = (g.approve join).map fun _ => join := by
  simp only [check, h, bind, Except.bind]
  cases g.approve join <;> rfl

theorem examine_of_check_error {cause : JoinError} (h : m.payload = .ok (.greeting join))
    (hcheck : join.check g.mac g.secret g.now g.maxSkew = .error cause) :
    g.examine m = .error (.failed (.join cause)) := by
  simp only [examine, h, hcheck]

theorem examine_of_accepts (h : m.payload = .ok (.greeting join))
    (haccepts : join.Accepts g.mac g.secret g.now g.maxSkew) : g.examine m = .ok join := by
  simp only [examine, h, (join.check_eq_ok_iff ..).2 haccepts]

theorem Judges.authenticate_eq {verdict : Except Refusal (Message × JoinRequest)}
    (h : g.Judges (Frame.read s).1 verdict) : (g.authenticate s).1 = verdict := by
  rw [fst_authenticate]
  generalize (Frame.read s).1 = first at h
  cases h with
  | frame cause => rfl
  | @payload m cause h =>
    have hexamine : g.examine m = .error cause.refusal := by simp only [examine, h]
    simp [check_of_examine hexamine, Except.map]
  | @kind m p h hkind =>
    have hexamine : g.examine m = .error (.failed (.join (.unexpectedMessage m.kind.text))) := by
      unfold examine
      rw [h]
      cases p with
      | greeting join => exact absurd (payload_eq_greeting_iff.1 h).1 hkind
      | _ => rfl
    simp [check_of_examine hexamine, Except.map]
  | form h hform =>
    have hexamine := examine_of_check_error (g := g) h (JoinRequest.check_of_validate hform)
    simp [check_of_examine hexamine, Except.map]
  | digest h hform hdigest =>
    have hexamine := examine_of_check_error h (JoinRequest.check_of_verify hform hdigest)
    simp [check_of_examine hexamine, Except.map]
  | age h hform hdigest hskew hstale =>
    have hcheck := JoinRequest.check_of_stale hform hdigest hstale
    have hexamine := examine_of_check_error h (hskew ▸ hcheck)
    simp [check_of_examine hexamine, Except.map]
  | rejected h haccepts hvalidator hno =>
    simp [check_of_approve (examine_of_accepts h haccepts), approve, hvalidator, hno, Except.map]
  | panicked h haccepts hvalidator hpanic =>
    simp [check_of_approve (examine_of_accepts h haccepts), approve, hvalidator, hpanic, Except.map]
  | @admitted m join h haccepts hyes =>
    have happrove : g.approve join = .ok () := by
      unfold approve
      cases hv : g.validator with
      | none => rfl
      | some validator => simp [hyes validator hv]
    simp [check_of_approve (examine_of_accepts h haccepts), happrove, Except.map]

/-- Whatever a request in a greeting is like, one of the checks decides, or all pass. -/
theorem judges_greeting (h : m.payload = .ok (.greeting join)) :
    ∃ verdict, g.Judges (.ok m) verdict := by
  cases hform : join.validate with
  | error cause => exact ⟨_, .form h hform⟩
  | ok _ =>
  have hwell := (join.validate_eq_ok_iff).1 hform
  cases hdigest : join.verify g.mac g.secret with
  | error cause => exact ⟨_, .digest h hwell hdigest⟩
  | ok _ =>
  by_cases hage : ∀ most, g.maxSkew = some most → JoinRequest.skew g.now join.timestamp ≤ most
  · have haccepts : join.Accepts g.mac g.secret g.now g.maxSkew :=
      ⟨hwell, (join.verify_eq_ok_iff ..).1 hdigest, hage⟩
    cases hv : g.validator with
    | none => exact ⟨_, .admitted h haccepts (by simp [hv])⟩
    | some validator =>
      cases hjoin : validator join with
      | error cause => exact ⟨_, .panicked h haccepts hv hjoin⟩
      | ok allowed =>
        cases allowed with
        | false => exact ⟨_, .rejected h haccepts hv hjoin⟩
        | true =>
          refine ⟨_, .admitted h haccepts fun validator' hv' => ?_⟩
          rw [hv] at hv'
          cases hv'
          exact hjoin
  · obtain ⟨most, hage⟩ := Classical.not_forall.1 hage
    obtain ⟨hskew, hstale⟩ := Classical.not_imp.1 hage
    exact ⟨_, .age h hwell hdigest hskew (Nat.lt_of_not_le hstale)⟩

theorem judges_total (g : Gate) (first : Except FrameError Message) :
    ∃ verdict, g.Judges first verdict := by
  cases first with
  | error cause => exact ⟨_, .frame cause⟩
  | ok m =>
    cases h : m.payload with
    | error cause => exact ⟨_, .payload h⟩
    | ok p =>
      by_cases hkind : m.kind = .greeting
      · have hdecode : Payload.decode .greeting m.body = .ok p := hkind ▸ h
        obtain ⟨join, rfl⟩ := Payload.decode_greeting hdecode
        exact judges_greeting h
      · exact ⟨_, .kind h hkind⟩

/-- The verdict on a socket is that of its first failing check. -/
theorem authenticate_eq_iff {verdict : Except Refusal (Message × JoinRequest)} :
    (g.authenticate s).1 = verdict ↔ g.Judges (Frame.read s).1 verdict := by
  refine ⟨fun h => ?_, Judges.authenticate_eq⟩
  obtain ⟨verdict', hjudges⟩ := g.judges_total (Frame.read s).1
  rwa [← h, hjudges.authenticate_eq]

/-- Exactly the sockets are let in whose first bytes are the frame of a greeting with an acceptable
request that the validator approves. -/
theorem authenticate_eq_ok_iff :
    (g.authenticate s).1 = .ok (m, join) ↔
      (∃ rest, s.arriving = m.encode ++ rest) ∧ m.Readable ∧ m.kind = .greeting ∧
        m.body = join.encode ∧ join.Accepts g.mac g.secret g.now g.maxSkew ∧
        ∀ validator, g.validator = some validator → validator join = .ok true := by
  rw [authenticate_eq_iff]
  constructor
  · intro h
    generalize hread : (Frame.read s).1 = first at h
    cases h with
    | admitted h haccepts hyes =>
      obtain ⟨hsize, -, harrives⟩ := Frame.read_eq_ok_iff.1 hread
      obtain ⟨hkind, hbody⟩ := payload_eq_greeting_iff.1 h
      exact ⟨harrives, hsize, hkind, hbody, haccepts, hyes⟩
  · rintro ⟨harrives, hsize, hkind, hbody, haccepts, hyes⟩
    have hnorm : m.normalized = m := by
      obtain ⟨id, kind, body, fits⟩ := m
      cases hkind
      rfl
    rw [Frame.read_eq_ok_iff.2 ⟨hsize, hnorm, harrives⟩]
    exact .admitted (payload_eq_greeting_iff.2 ⟨hkind, hbody⟩) haccepts hyes

theorem accepts_of_examine (h : g.examine m = .ok join) :
    m.payload = .ok (.greeting join) ∧ join.Accepts g.mac g.secret g.now g.maxSkew := by
  unfold examine at h
  split at h
  · cases h
  · next join' hpayload =>
    split at h
    · cases h
    · next hcheck =>
      cases h
      exact ⟨hpayload, (join.check_eq_ok_iff ..).1 hcheck⟩
  · cases h

/-- A validator is not asked about a request that failed an earlier check: the verdict, and whether
there is one at all, does not depend on what it would have said. -/
theorem authenticate_congr {v w : JoinValidator}
    (h : ∀ m join, (Frame.read s).1 = .ok m → m.payload = .ok (.greeting join) →
      join.Accepts g.mac g.secret g.now g.maxSkew → v join = w join) :
    ({ g with validator := some v }).authenticate s =
      ({ g with validator := some w }).authenticate s := by
  unfold authenticate
  cases hread : Frame.read s with
  | mk first t =>
    cases first with
    | error cause => rfl
    | ok m =>
      have hcheck : ({ g with validator := some v }).check m =
          ({ g with validator := some w }).check m := by
        have hsame : ({ g with validator := some v }).examine m =
          ({ g with validator := some w }).examine m := rfl
        cases hexamine : ({ g with validator := some w }).examine m with
        | error refusal =>
          rw [check_of_examine hexamine, check_of_examine (hsame.trans hexamine)]
        | ok join =>
          obtain ⟨hpayload, haccepts⟩ := accepts_of_examine hexamine
          rw [check_of_approve hexamine, check_of_approve (hsame.trans hexamine)]
          simp only [approve, h m join (by rw [hread]) hpayload haccepts]
      simp only [hcheck]

/-! ## What is written, and who is registered -/

variable {socket : Socket} {r : Registry} {c : ConnectionId}

/-- Nothing is written to a socket that is refused, and nobody is registered. -/
theorem receive_of_refused {refusal : Refusal}
    (h : (g.authenticate socket.source).1 = .error refusal) :
    g.receive r c socket =
      (.error refusal, r, { socket with source := (g.authenticate socket.source).2 }) := by
  unfold receive letIn
  cases ha : g.authenticate socket.source with
  | mk verdict t =>
    rw [ha] at h
    cases h
    rfl

/-- A node that is let in is welcomed before anything else is written, and registered. -/
theorem receive_of_admitted (h : (g.authenticate socket.source).1 = .ok (m, join))
    (hsink : socket.sink.Willing) :
    (g.receive r c socket).1 = .ok join ∧ (g.receive r c socket).2.1 = r.join join c ∧
      (g.receive r c socket).2.2.sink.written = socket.sink.written ++ m.welcome.encode := by
  obtain ⟨hok, hwritten, -⟩ := Frame.Sink.writeFrame_of_willing hsink m.welcome.encode
  unfold receive letIn
  cases ha : g.authenticate socket.source with
  | mk verdict t =>
    rw [ha] at h
    cases h
    simp only [Socket.write, Frame.Sink.writeMessage]
    cases hw : socket.sink.writeFrame m.welcome.encode with
    | mk result sink =>
      rw [hw] at hok hwritten
      cases hok
      exact ⟨rfl, rfl, hwritten⟩

/-- **Letting nodes in.** Whatever comes from a socket, the verdict is that of the first failing
check, and those sockets are let in whose first bytes are the frame of a greeting with an acceptable
request that the validator approves. The validator has no say on requests that failed before. A
socket that is refused keeps what was written to it, and the registry stays as it is; the first frame
on one that is let in is the welcome under the id of its greeting. -/
theorem admits_exactly (g : Gate) (socket : Socket) :
    (∀ verdict, (g.authenticate socket.source).1 = verdict ↔
        g.Judges (Frame.read socket.source).1 verdict) ∧
      (∀ m join, (g.authenticate socket.source).1 = .ok (m, join) ↔
        (∃ rest, socket.source.arriving = m.encode ++ rest) ∧ m.Readable ∧ m.kind = .greeting ∧
          m.body = join.encode ∧ join.Accepts g.mac g.secret g.now g.maxSkew ∧
          ∀ validator, g.validator = some validator → validator join = .ok true) ∧
      (∀ v w : JoinValidator,
        (∀ m join, (Frame.read socket.source).1 = .ok m → m.payload = .ok (.greeting join) →
          join.Accepts g.mac g.secret g.now g.maxSkew → v join = w join) →
        ({ g with validator := some v }).authenticate socket.source =
          ({ g with validator := some w }).authenticate socket.source) ∧
      (∀ refusal r c, (g.authenticate socket.source).1 = .error refusal →
        g.receive r c socket =
          (.error refusal, r, { socket with source := (g.authenticate socket.source).2 })) ∧
      (∀ m join r c, (g.authenticate socket.source).1 = .ok (m, join) → socket.sink.Willing →
        (g.receive r c socket).1 = .ok join ∧ (g.receive r c socket).2.1 = r.join join c ∧
          (g.receive r c socket).2.2.sink.written =
            socket.sink.written ++ (Message.bare m.id .welcome).encode) :=
  ⟨fun _ => authenticate_eq_iff, fun _ _ => authenticate_eq_ok_iff,
    fun _ _ => authenticate_congr, fun _ _ _ => receive_of_refused,
    fun _ _ _ _ => receive_of_admitted⟩

/-! ## A node that joins twice -/

private def clusterSecret : Bytes := bytesOfText "cluster-secret"

private def signedRequest : JoinRequest :=
  .sign .hmacSha256 clusterSecret "node-1" ["east"] false 1700000000000

/-- A gate ten seconds after the request was signed, for nodes with tags. -/
private def gate (maxSkew : Duration) : Gate where
  mac := .hmacSha256
  secret := clusterSecret
  maxSkew := some maxSkew
  now := 1700000010000
  validator := some fun join => .ok !join.tags.isEmpty

private theorem signedRequest_accepted {maxSkew : Duration}
    (h : JoinRequest.skew 1700000010000 1700000000000 ≤ maxSkew) :
    signedRequest.Accepts .hmacSha256 clusterSecret 1700000010000 (some maxSkew) where
  form := ⟨show "node-1" ≠ "" by decide, show "node-1".utf8ByteSize ≤ maxNodeIdBytes by decide,
    show fieldSeparator ∉ "node-1".toList by decide,
    show ∀ tag ∈ ["east"], fieldSeparator ∉ tag.toList ∧ tagSeparator ∉ tag.toList by decide,
    show (1700000000000 : UInt64) ≠ 0 by decide, JoinRequest.utf8ByteSize_joinDigest ..⟩
  digest := (JoinRequest.verify_eq_ok_iff ..).1 (JoinRequest.verify_sign ..)
  age most hmost := Option.some.inj hmost ▸ h

private def interruption : IoError := ⟨.interrupted, "interrupted", none⟩

private def greeting : Message := ⟨.ofNat 7, .greeting, signedRequest.encode, by decide +kernel⟩

/-- The greeting in two pieces with an interruption between them, and bytes behind it. -/
private def choppySocket : Socket where
  source := {
    upcoming := [.data (greeting.encode.take 30), .failure interruption,
      .data (greeting.encode.drop 30 ++ [1, 2, 3])]
    chunk := some 20 }

theorem a_node_joins_in_time_only :
    ((∃ rest, choppySocket.source.arriving = greeting.encode ++ rest) ∧ greeting.Readable ∧
        signedRequest.Accepts .hmacSha256 clusterSecret 1700000010000 (some (.ofSeconds 30)) ∧
        choppySocket.sink.Willing) ∧
      (((gate (.ofSeconds 30)).receive {} ⟨1⟩ choppySocket).1 = .ok signedRequest ∧
        ((gate (.ofSeconds 30)).receive {} ⟨1⟩ choppySocket).2.1.contains "node-1" = true ∧
        ((gate (.ofSeconds 30)).receive {} ⟨1⟩ choppySocket).2.2.sink.written =
          (Message.bare (.ofNat 7) .welcome).encode) ∧
      ((gate (.ofSeconds 5)).receive {} ⟨1⟩ choppySocket).1 =
        .error (.failed (.join (.stale (.ofSeconds 10)))) ∧
      ((gate (.ofSeconds 5)).receive {} ⟨1⟩ choppySocket).2.1 = {} ∧
      ((gate (.ofSeconds 5)).receive {} ⟨1⟩ choppySocket).2.2.sink.written = [] ∧
      ∀ v w : JoinValidator,
        { gate (.ofSeconds 5) with validator := some v }.authenticate choppySocket.source =
          { gate (.ofSeconds 5) with validator := some w }.authenticate choppySocket.source := by
  have harrives : ∃ rest, choppySocket.source.arriving = greeting.encode ++ rest :=
    ⟨[1, 2, 3], by decide +kernel⟩
  have hreadable : greeting.Readable := by decide +kernel
  have haccepts := signedRequest_accepted
    (show JoinRequest.skew 1700000010000 1700000000000 ≤ .ofSeconds 30 by decide)
  have hwilling : choppySocket.sink.Willing := by unfold Frame.Sink.Willing; decide
  refine ⟨⟨harrives, hreadable, haccepts, hwilling⟩, ?_, ?_⟩
  · obtain ⟨-, hiff, -, -, hadmitted⟩ := admits_exactly (gate (.ofSeconds 30)) choppySocket
    have hok := (hiff greeting signedRequest).2
      ⟨harrives, hreadable, rfl, rfl, haccepts, by rintro validator ⟨⟩; rfl⟩
    obtain ⟨hresult, hregistry, hwritten⟩ := hadmitted _ _ {} ⟨1⟩ hok hwilling
    exact ⟨hresult, by rw [hregistry]; decide, hwritten⟩
  · obtain ⟨hverdict, -, hvalidators, hrefused, -⟩ :=
      admits_exactly (gate (.ofSeconds 5)) choppySocket
    have hread : (Frame.read choppySocket.source).1 = .ok greeting :=
      Frame.read_eq_ok_iff.2 ⟨hreadable, rfl, harrives⟩
    have hstale : (.ofSeconds 5 : Duration) < JoinRequest.skew 1700000010000 1700000000000 := by
      decide
    have hpayload : greeting.payload = .ok (.greeting signedRequest) :=
      payload_eq_greeting_iff.2 ⟨rfl, rfl⟩
    have hjudges := Judges.age (g := gate (.ofSeconds 5)) hpayload haccepts.form
      (JoinRequest.verify_sign ..) rfl hstale
    rw [hread] at hverdict hvalidators
    rw [hrefused _ {} ⟨1⟩ ((hverdict _).2 hjudges)]
    refine ⟨rfl, rfl, rfl, fun v w => hvalidators v w fun m join hm hjoin haccepts' => ?_⟩
    -- The request that is stale here does not get as far as the validator.
    cases hm
    cases hpayload.symm.trans hjoin
    exact absurd (haccepts'.age _ rfl) (Nat.not_le_of_lt hstale)

end Gate

end ClusterLink
