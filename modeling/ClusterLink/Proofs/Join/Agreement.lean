import ClusterLink.Handshake
import ClusterLink.Proofs.Join.Opening
import ClusterLink.Proofs.Registry.Effects
import ClusterLink.Proofs.Server.Admission
/-!
# What client and server make of one handshake

A client signs whatever it was configured with and asks nobody. What it signed is checked at the
other end, by a program that knows the secret, the time and the policy of the server only. Over
streams that lose nothing, the two agree on whether the node is let in. What comes after the welcome
either side does for itself: the client has a connection if it can open one, the server registers one
if it can open one and its observer comes back. A client can thus hold a connection that the server
gave up behind its welcome, and the server can register one that the client could not open; where
both open and the observer comes back, the client has a connection exactly if the server has one.

Results:
* `Gate.authenticate_eq_ok_iff_of_read`: which of the greetings that arrived are let in.
* `fst_dial`: a dial is decided by the first frame that comes back.
* `Handshake.acceptable_iff`: the server's checks on the request that the client signs.
* `Handshake.both_sides_agree`: what the two sides have in the end.
* `Handshake.a_welcome_is_no_registration`: two servers that give up what they have welcomed.
-/
namespace ClusterLink

/-- Streams that deliver the bytes that are written to them, cut in any way. -/
def Frame.Faithful (deliver : Bytes → Frame.Source) : Prop :=
  ∀ bytes, (deliver bytes).Steady ∧ (deliver bytes).bytes = bytes

/-! ## The server's side -/

namespace Gate

variable {g : Gate} {m : Message} {join : JoinRequest} {s : Frame.Source}

/-- Whether a request passes all checks, the validator's included. -/
def Lets (g : Gate) (join : JoinRequest) : Prop :=
  join.Accepts g.mac g.secret g.now g.maxSkew ∧
    ∀ validator, g.validator = some validator → validator join = .ok true

/-- A greeting that arrived is let in exactly if its request passes all checks. -/
theorem authenticate_eq_ok_iff_of_read (hread : (Frame.read s).1 = .ok m)
    (hpayload : m.payload = .ok (.greeting join)) :
    (g.authenticate s).1 = .ok (m, join) ↔ g.Lets join := by
  rw [authenticate_eq_iff, hread]
  constructor
  · intro h
    cases h with
    | admitted h haccepts hyes => exact ⟨haccepts, hyes⟩
  · rintro ⟨haccepts, hyes⟩
    exact .admitted hpayload haccepts hyes

/-- Nobody is let in for another request than the one that arrived. -/
theorem eq_of_authenticate (hread : (Frame.read s).1 = .ok m)
    (hpayload : m.payload = .ok (.greeting join)) {verdict : Message × JoinRequest}
    (h : (g.authenticate s).1 = .ok verdict) : verdict = (m, join) := by
  rw [authenticate_eq_iff, hread] at h
  cases h with
  | admitted hpayload' =>
    cases hpayload.symm.trans hpayload'
    rfl

theorem authenticate_refuses (hread : (Frame.read s).1 = .ok m)
    (hpayload : m.payload = .ok (.greeting join)) (hno : ¬ g.Lets join) :
    ∃ refusal, (g.authenticate s).1 = .error refusal := by
  cases h : (g.authenticate s).1 with
  | error refusal => exact ⟨refusal, rfl⟩
  | ok verdict =>
    cases eq_of_authenticate hread hpayload h
    exact absurd ((authenticate_eq_ok_iff_of_read hread hpayload).1 h) hno

end Gate

/-! ## The client's side -/

section Dial

variable {greeting : Message} {s : Socket}

/-- A dial whose greeting goes out is decided by the first frame that comes back. -/
theorem fst_dial (h : s.sink.Willing) : (dial greeting s).1 = match (Frame.read s.source).1 with
    | .ok reply =>
      if greeting.isWelcomeFor reply then .ok () else .error (.unexpectedReply reply.kind)
    | .error cause => .error (if cause.isDisconnect then .rejected else .frame cause) := by
  have hwritten := (Frame.Sink.writeFrame_of_willing h greeting.encode).1
  unfold dial awaitWelcome Socket.write Socket.read Frame.Sink.writeMessage
  cases hw : s.sink.writeFrame greeting.encode with
  | mk result sink =>
    rw [hw] at hwritten
    cases hwritten
    dsimp only
    cases Frame.read s.source with
    | mk first source =>
      cases first with
      | error cause => rfl
      | ok reply => dsimp only; split <;> rfl

/-- A client that is welcomed has its connection. -/
theorem dial_of_welcome (hsink : s.sink.Willing) (hsource : s.source.Steady)
    (hbytes : s.source.bytes = greeting.welcome.encode) : (dial greeting s).1 = .ok () := by
  have hreadable : greeting.welcome.Readable := Nat.zero_le _
  have hread := (Frame.read_of_readable hsource hreadable
    (by rw [hbytes, List.append_nil])).1
  have hwelcome : greeting.isWelcomeFor greeting.welcome.normalized = true := by
    have hkind : Kind.ofCode Kind.welcome.code = .welcome := rfl
    simp [Message.isWelcomeFor, Message.welcome, Message.bare, Message.normalized, hkind]
  rw [fst_dial hsink, hread]
  simp only [hwelcome, if_true]

/-- A client that hears nothing is rejected. -/
theorem dial_of_silence (hsink : s.sink.Willing) (hsource : s.source.Steady)
    (hbytes : s.source.bytes = []) : (dial greeting s).1 = .error .rejected := by
  have hread := (Frame.read_of_steady hsource).1
  rw [hbytes] at hread
  rw [fst_dial hsink, hread]
  rfl

end Dial

/-! ## Both sides -/

namespace Handshake

variable {h : Handshake}

/-- The request that the client signs. -/
def join (h : Handshake) : JoinRequest := h.config.joinRequest h.gate.mac h.signedAt

/-- The code of what the client signs, under a secret. -/
def code (h : Handshake) (secret : Bytes) : Bytes :=
  joinCode h.gate.mac secret h.signedAt h.config.nodeId h.config.replica h.config.tags

/-- Both sides take what is written to them, as much at a time as they like, and the bytes of either
arrive at the other, cut in any way. -/
structure FaultFree (h : Handshake) : Prop where
  client_willing : h.clientSink.Willing
  client_fresh : h.clientSink.written = []
  server_willing : h.serverSink.Willing
  server_fresh : h.serverSink.written = []
  to_server : Frame.Faithful h.toServer
  to_client : Frame.Faithful h.toClient

/-- What the settings of the client and of the server must be like for the node to be let in. -/
structure Admissible (h : Handshake) : Prop where
  nodeId_ne : h.config.nodeId ≠ ""
  nodeId_size : h.config.nodeId.utf8ByteSize ≤ maxNodeIdBytes
  nodeId_free : fieldSeparator ∉ h.config.nodeId.toList
  tags_free : ∀ tag ∈ h.config.tags, fieldSeparator ∉ tag.toList ∧ tagSeparator ∉ tag.toList
  signedAt_ne : h.signedAt ≠ 0
  same_code : h.code h.config.secret = h.code h.gate.secret
  /-- In nanoseconds, neither time is further behind the other than the server allows. -/
  fresh : ∀ most, h.gate.maxSkew = some most →
    h.gate.now.toNat * 1000000 ≤ h.signedAt.toNat * 1000000 + most.nanos ∧
      h.signedAt.toNat * 1000000 ≤ h.gate.now.toNat * 1000000 + most.nanos
  approved : ∀ validator, h.gate.validator = some validator → validator h.join = .ok true

/-- The client can lay out the queue of its connection and start both of its threads. -/
structure ClientOpens (h : Handshake) : Prop where
  queue_fits : max h.config.queueCapacity 1 * 32 < 9223372036854775808
  writer_starts : h.clientWriter = .ok ()
  reader_starts : h.clientReader = .ok ()

/-- The server can lay out the queue of its connection and start its writer. -/
structure ServerOpens (h : Handshake) : Prop where
  queue_fits : max h.options.queueCapacity 1 * 32 < 9223372036854775808
  writer_starts : h.serverWriter = .ok ()

/-- The server's observer of new connections, if there is one, comes back. -/
def HookReturns (h : Handshake) : Prop :=
  ∀ observe, h.hook = some observe → observe h.connection h.join = .returned

theorem clientOpens_iff : h.ClientOpens ↔
    h.config.connectionOptions.Opens h.clientWriter ∧ h.clientReader = .ok () := by
  have hcapacity : max h.config.connectionOptions.queueCapacity 1 = max h.config.queueCapacity 1 :=
    Nat.max_eq_left (Nat.le_max_right ..)
  constructor
  · rintro ⟨hqueue, hwriter, hreader⟩
    exact ⟨⟨hcapacity ▸ hqueue, hwriter⟩, hreader⟩
  · rintro ⟨⟨hqueue, hwriter⟩, hreader⟩
    exact ⟨hcapacity ▸ hqueue, hwriter, hreader⟩

theorem serverOpens_iff : h.ServerOpens ↔ h.options.Opens h.serverWriter :=
  ⟨fun ho => ⟨ho.queue_fits, ho.writer_starts⟩, fun ho => ⟨ho.queue_fits, ho.writer_starts⟩⟩

theorem skew_le_iff {now timestamp : UInt64} {most : Duration} :
    JoinRequest.skew now timestamp ≤ most ↔
      now.toNat * 1000000 ≤ timestamp.toNat * 1000000 + most.nanos ∧
        timestamp.toNat * 1000000 ≤ now.toNat * 1000000 + most.nanos := by
  show (max now.toNat timestamp.toNat - min now.toNat timestamp.toNat) * 1000000 ≤ most.nanos ↔ _
  omega

/-- The digest that the client signs is the one that the server computes exactly if their secrets
give what is signed the same code. -/
theorem digest_iff : Hex.decode? h.join.digest = some (joinCode h.gate.mac h.gate.secret
      h.join.timestamp h.join.nodeId h.join.isReplica h.join.tags) ↔
    h.code h.config.secret = h.code h.gate.secret := by
  have hdecode : Hex.decode? h.join.digest = some (h.code h.config.secret) := Hex.decode?_encode _
  rw [hdecode, Option.some.injEq]
  rfl

/-- The server's checks on the request that the client signs come to conditions on the settings of
the two; the client's own settings give every request a digest of the right size. -/
theorem acceptable_iff : h.gate.Lets h.join ↔ h.Admissible := by
  constructor
  · rintro ⟨⟨form, digest, age⟩, hyes⟩
    exact ⟨form.nodeId_ne, form.nodeId_size, form.nodeId_free, form.tags_free, form.timestamp_ne,
      digest_iff.1 digest, fun most hmost => skew_le_iff.1 (age most hmost), hyes⟩
  · intro ha
    exact ⟨⟨⟨ha.nodeId_ne, ha.nodeId_size, ha.nodeId_free, ha.tags_free, ha.signedAt_ne,
      JoinRequest.utf8ByteSize_joinDigest ..⟩, digest_iff.2 ha.same_code,
      fun most hmost => skew_le_iff.2 (ha.fresh most hmost)⟩, ha.approved⟩

/-- A frame can hold every request that a reader accepts. -/
theorem greeting_of_size (hsize : h.join.encode.length ≤ maxBodySize.toNat) :
    ∃ greeting, h.config.greeting h.gate.mac h.signedAt h.id = .ok greeting ∧ greeting.Readable ∧
      greeting.normalized = greeting ∧ greeting.payload = .ok (.greeting h.join) := by
  have hfits : h.join.encode.length < bodyLimit :=
    Nat.lt_of_le_of_lt hsize (by decide)
  refine ⟨⟨h.id, .greeting, h.join.encode, hfits⟩, ?_, hsize, rfl,
    Gate.payload_eq_greeting_iff.2 ⟨rfl, rfl⟩⟩
  exact dif_pos hfits

section Run

variable {greeting : Message}

/-- The socket that the server accepts: the client has written its greeting to the other end. -/
def accepted (h : Handshake) (greeting : Message) : Socket where
  source := h.toServer (h.clientSink.writeMessage greeting).2.written
  sink := h.serverSink

/-- The socket of the client once the server has written some bytes. -/
def answered (h : Handshake) (bytes : Bytes) : Socket where
  source := h.toClient bytes
  sink := h.clientSink

/-- What the server makes of a socket on which the client has written its greeting. -/
def received (h : Handshake) (greeting : Message) : Admission × Registry × Socket :=
  h.gate.enroll h.options h.serverWriter h.hook h.registry h.connection (h.accepted greeting)

theorem runWith_eq (h : Handshake) (greeting : Message) :
    h.runWith greeting =
      { client := dialConnection greeting h.config.connectionOptions h.clientWriter h.clientReader
          (h.answered (h.received greeting).2.2.sink.written)
        server := (h.received greeting).1
        registry := (h.received greeting).2.1 } := rfl

/-- What the server reads first is the client's greeting. -/
theorem server_reads (hstreams : h.FaultFree) (hreadable : greeting.Readable)
    (hnormal : greeting.normalized = greeting) :
    (Frame.read (h.accepted greeting).source).1 = .ok greeting := by
  obtain ⟨-, hsent, -⟩ :=
    Frame.Sink.writeFrame_of_willing hstreams.client_willing greeting.encode
  rw [hstreams.client_fresh, List.nil_append] at hsent
  obtain ⟨hsteady, hbytes⟩ := hstreams.to_server (h.clientSink.writeMessage greeting).2.written
  have harrives : (h.accepted greeting).source.bytes = greeting.encode ++ [] := by
    rw [List.append_nil]
    exact hbytes.trans hsent
  have hread := (Frame.read_of_readable hsteady hreadable harrives).1
  rw [hnormal] at hread
  exact hread

/-- Where the request passes all checks, it is let in and the client is welcomed. -/
theorem welcomed_of_lets (hstreams : h.FaultFree) (hreadable : greeting.Readable)
    (hnormal : greeting.normalized = greeting)
    (hpayload : greeting.payload = .ok (.greeting h.join)) (hlets : h.gate.Lets h.join) :
    (h.gate.letIn (h.accepted greeting)).1 = .ok h.join ∧
      (dial greeting (h.answered (h.gate.letIn (h.accepted greeting)).2.sink.written)).1 =
        .ok () := by
  have hread := server_reads hstreams hreadable hnormal
  have hauth := (Gate.authenticate_eq_ok_iff_of_read hread hpayload).2 hlets
  obtain ⟨hserver, -, hwritten⟩ := Gate.receive_of_admitted (r := h.registry)
    (c := h.connection) hauth hstreams.server_willing
  obtain ⟨hverdict, hsocket⟩ := h.gate.receive_eq h.registry h.connection (h.accepted greeting)
  have hfresh : (h.accepted greeting).sink.written = [] := hstreams.server_fresh
  rw [hsocket, hfresh, List.nil_append] at hwritten
  obtain ⟨hsteady, hbytes⟩ := hstreams.to_client greeting.welcome.encode
  refine ⟨hverdict ▸ hserver, ?_⟩
  rw [hwritten]
  exact dial_of_welcome hstreams.client_willing hsteady hbytes

/-- Where it does not, the server hangs up without a word, and nothing else changes. -/
theorem runWith_of_not_lets (hstreams : h.FaultFree) (hreadable : greeting.Readable)
    (hnormal : greeting.normalized = greeting)
    (hpayload : greeting.payload = .ok (.greeting h.join)) (hlets : ¬ h.gate.Lets h.join) :
    ∃ refusal, h.runWith greeting =
      ⟨.error (.failed .rejected), .refused refusal, h.registry⟩ := by
  have hread := server_reads hstreams hreadable hnormal
  obtain ⟨refusal, hauth⟩ := Gate.authenticate_refuses hread hpayload hlets
  have hreceive := Gate.receive_of_refused (r := h.registry) (c := h.connection) hauth
  obtain ⟨hverdict, hsocket⟩ := h.gate.receive_eq h.registry h.connection (h.accepted greeting)
  rw [hreceive] at hverdict hsocket
  have hreceived : h.received greeting =
      (.refused refusal, h.registry, (h.gate.letIn (h.accepted greeting)).2) := by
    rw [received, Gate.enroll_eq, ← hverdict]
  obtain ⟨hsteady, hbytes⟩ := hstreams.to_client []
  have hclient : (dial greeting (h.answered [])).1 = .error .rejected :=
    dial_of_silence hstreams.client_willing hsteady hbytes
  have hfresh : (h.accepted greeting).sink.written = [] := hstreams.server_fresh
  refine ⟨refusal, ?_⟩
  rw [runWith_eq, hreceived, ← hsocket]
  dsimp only
  rw [hfresh, dialConnection_eq, hclient]

/-- What the client has behind its welcome is its own affair. -/
theorem client_of_lets (hstreams : h.FaultFree) (hreadable : greeting.Readable)
    (hnormal : greeting.normalized = greeting)
    (hpayload : greeting.payload = .ok (.greeting h.join)) (hlets : h.gate.Lets h.join) :
    (h.ClientOpens → (h.runWith greeting).client =
        .ok ((Connection.new h.config.connectionOptions).startReading true)) ∧
      (¬ h.ClientOpens → ∃ failure, (h.runWith greeting).client = .error failure) := by
  obtain ⟨hin, hdial⟩ := welcomed_of_lets hstreams hreadable hnormal hpayload hlets
  have hsocket : (h.received greeting).2.2 = (h.gate.letIn (h.accepted greeting)).2 :=
    Gate.snd_enroll
  rw [runWith_eq, clientOpens_iff]
  dsimp only
  rw [hsocket]
  exact ⟨fun ⟨hopens, hreader⟩ => dialConnection_of_opens hdial hopens hreader,
    dialConnection_of_not_opens hdial⟩

/-- What the server registers behind its welcome is its own affair. -/
theorem server_of_lets (hstreams : h.FaultFree) (hreadable : greeting.Readable)
    (hnormal : greeting.normalized = greeting)
    (hpayload : greeting.payload = .ok (.greeting h.join)) (hlets : h.gate.Lets h.join) :
    (h.ServerOpens → h.HookReturns → (h.runWith greeting).server = .registered h.join ∧
        (h.runWith greeting).registry = h.registry.join h.join h.connection) ∧
      (¬ (h.ServerOpens ∧ h.HookReturns) →
        (∀ join, (h.runWith greeting).server ≠ .registered join) ∧
          (h.runWith greeting).registry = h.registry) := by
  obtain ⟨hin, -⟩ := welcomed_of_lets hstreams hreadable hnormal hpayload hlets
  rw [serverOpens_iff, runWith_eq]
  dsimp only
  refine ⟨fun hopens hreturns => ?_, fun hno => ?_⟩
  · have henroll : h.received greeting = _ := Gate.enroll_of_opens hin hopens hreturns
    rw [henroll]
    exact ⟨rfl, rfl⟩
  · obtain ⟨outcome, hnone, henroll⟩ := Gate.enroll_of_not_opens (r := h.registry) hin hno
    have henroll : h.received greeting = _ := henroll
    rw [henroll]
    exact ⟨hnone, rfl⟩

end Run

/-- What the registration of a node that was let in does to every look-up. -/
theorem find?_join (r : Registry) (c : ConnectionId) :
    (r.join h.join c).find? h.config.nodeId =
        some (((r.find? h.config.nodeId).getD
          ⟨h.config.nodeId, .ofReplica h.config.replica, h.config.tags, [], []⟩).attach c) ∧
      ∀ id, id ≠ h.config.nodeId → (r.join h.join c).find? id = r.find? id :=
  let call := Registry.Call.register h.config.nodeId (.ofReplica h.config.replica) h.config.tags c
  ⟨r.find?_apply_self call, fun _ hne => r.find?_apply_of_ne (show _ ≠ call.id from hne)⟩

/-- What the two sides have of a handshake in the end. -/
structure Agreed (h : Handshake) (result : HandshakeResult) : Prop where
  /-- The client has a connection exactly if its request is let in and it can open one. -/
  client_iff : (∃ connection, result.client = .ok connection) ↔ h.Admissible ∧ h.ClientOpens
  /-- The server registers one exactly if the request is let in, it can open one, and its observer
  comes back. -/
  server_iff : (∃ join, result.server = .registered join) ↔
    h.Admissible ∧ h.ServerOpens ∧ h.HookReturns
  /-- Where both can open theirs and the observer comes back, one has it exactly if the other has. -/
  both : h.ClientOpens → h.ServerOpens → h.HookReturns →
    ((∃ connection, result.client = .ok connection) ↔ ∃ join, result.server = .registered join)
  /-- The client's connection has the client's settings and is read from. -/
  client_reads : ∀ connection, result.client = .ok connection →
    connection.options = h.config.connectionOptions ∧ connection.isClosed = false ∧
      connection.reader = .reading
  /-- The server's connection is attached to the node of the client's id, which has the client's role
  and tags if it was not there before; no other node is touched. -/
  joined : ∀ join, result.server = .registered join → join = h.join ∧
    result.registry = h.registry.join h.join h.connection ∧
    result.registry.find? h.config.nodeId =
      some (((h.registry.find? h.config.nodeId).getD
        { id := h.config.nodeId
          role := .ofReplica h.config.replica
          tags := h.config.tags }).attach h.connection) ∧
    ∀ id, id ≠ h.config.nodeId → result.registry.find? id = h.registry.find? id
  /-- Whatever keeps the server from registering the connection, its registry is as it was. -/
  untouched : (∀ join, result.server ≠ .registered join) → result.registry = h.registry
  /-- A request that is not let in is rejected without a word. -/
  rejected : ¬ h.Admissible →
    result.client = .error (.failed .rejected) ∧ ∃ cause, result.server = .refused cause

theorem agreed_of_lets {greeting : Message} (hstreams : h.FaultFree) (hreadable : greeting.Readable)
    (hnormal : greeting.normalized = greeting)
    (hpayload : greeting.payload = .ok (.greeting h.join)) (hlets : h.gate.Lets h.join) :
    h.Agreed (h.runWith greeting) := by
  have hadmissible := acceptable_iff.1 hlets
  obtain ⟨hdials, hfails⟩ := client_of_lets hstreams hreadable hnormal hpayload hlets
  obtain ⟨hjoins, hdrops⟩ := server_of_lets hstreams hreadable hnormal hpayload hlets
  have hclient : (∃ connection, (h.runWith greeting).client = .ok connection) ↔
      h.Admissible ∧ h.ClientOpens := by
    refine ⟨fun ⟨connection, hc⟩ => ⟨hadmissible, Classical.byContradiction fun hno => ?_⟩,
      fun ⟨_, hopens⟩ => ⟨_, hdials hopens⟩⟩
    obtain ⟨failure, hfailure⟩ := hfails hno
    cases hc.symm.trans hfailure
  have hserver : (∃ join, (h.runWith greeting).server = .registered join) ↔
      h.Admissible ∧ h.ServerOpens ∧ h.HookReturns :=
    ⟨fun ⟨join, hj⟩ => ⟨hadmissible, Classical.byContradiction fun hno => (hdrops hno).1 join hj⟩,
      fun ⟨_, hopens, hreturns⟩ => ⟨_, (hjoins hopens hreturns).1⟩⟩
  refine {
    client_iff := hclient
    server_iff := hserver
    both := fun hc hs hh => hclient.trans
      ⟨fun ⟨ha, _⟩ => hserver.2 ⟨ha, hs, hh⟩, fun hj => ⟨(hserver.1 hj).1, hc⟩⟩
    client_reads := fun connection hc => ?_
    joined := fun join hj => ?_
    untouched := fun hnone => ?_
    rejected := fun hno => absurd hadmissible hno }
  · cases hc.symm.trans (hdials (hclient.1 ⟨_, hc⟩).2)
    exact ⟨rfl, rfl, rfl⟩
  · obtain ⟨-, hopens, hreturns⟩ := hserver.1 ⟨_, hj⟩
    obtain ⟨hregistered, hregistry⟩ := hjoins hopens hreturns
    cases hj.symm.trans hregistered
    rw [hregistry]
    exact ⟨rfl, rfl, find?_join h.registry h.connection⟩
  · exact (hdrops fun ⟨hopens, hreturns⟩ => hnone _ (hjoins hopens hreturns).1).2

/-- Nothing goes wrong on the way and the request is let in. The client has a connection, and its
server has registered none. -/
structure WelcomedOnly (h : Handshake) : Prop where
  streams : h.FaultFree
  size : h.join.encode.length ≤ maxBodySize.toNat
  admissible : h.Admissible
  apart : ∃ result, h.run = .ok result ∧ (∃ connection, result.client = .ok connection) ∧
    ¬∃ join, result.server = .registered join

/-- A server that gives up what it has welcomed leaves the client with a connection all the same. -/
theorem welcomed_only (hstreams : h.FaultFree) (hsize : h.join.encode.length ≤ maxBodySize.toNat)
    (hadmissible : h.Admissible) (hclient : h.ClientOpens)
    (hno : ¬ (h.ServerOpens ∧ h.HookReturns)) : h.WelcomedOnly := by
  obtain ⟨greeting, hgreeting, hreadable, hnormal, hpayload⟩ := greeting_of_size hsize
  have hrun : h.run = .ok (h.runWith greeting) := by rw [run, hgreeting]; rfl
  have hlets := acceptable_iff.2 hadmissible
  obtain ⟨hdials, -⟩ := client_of_lets hstreams hreadable hnormal hpayload hlets
  obtain ⟨-, hdrops⟩ := server_of_lets hstreams hreadable hnormal hpayload hlets
  exact ⟨hstreams, hsize, hadmissible, _, hrun, ⟨_, hdials hclient⟩,
    fun ⟨join, hjoin⟩ => (hdrops hno).1 join hjoin⟩

theorem agreed_of_refused (hno : ¬ h.Admissible) (cause : Refusal) :
    h.Agreed ⟨.error (.failed .rejected), .refused cause, h.registry⟩ where
  client_iff := iff_of_false (fun ⟨_, hc⟩ => nomatch hc) fun ha => hno ha.1
  server_iff := iff_of_false (fun ⟨_, hj⟩ => nomatch hj) fun ha => hno ha.1
  both _ _ _ := iff_of_false (fun ⟨_, hc⟩ => nomatch hc) fun ⟨_, hj⟩ => nomatch hj
  client_reads _ hc := nomatch hc
  joined _ hj := nomatch hj
  untouched _ := rfl
  rejected _ := ⟨rfl, cause, rfl⟩

/-- **Agreement of client and server.** Over streams that lose nothing, a client whose greeting is
not too large for a reader and its server agree on whether the node is let in: id, tags, time,
secrets and validator decide. Whether each of them then has a connection is up to what it does behind
the welcome. -/
theorem both_sides_agree (h : Handshake) (hstreams : h.FaultFree)
    (hsize : h.join.encode.length ≤ maxBodySize.toNat) :
    ∃ result, h.run = .ok result ∧ h.Agreed result := by
  obtain ⟨greeting, hgreeting, hreadable, hnormal, hpayload⟩ := greeting_of_size hsize
  have hrun : h.run = .ok (h.runWith greeting) := by rw [run, hgreeting]; rfl
  refine ⟨h.runWith greeting, hrun, ?_⟩
  by_cases hlets : h.gate.Lets h.join
  · exact agreed_of_lets hstreams hreadable hnormal hpayload hlets
  · obtain ⟨refusal, heq⟩ := runWith_of_not_lets hstreams hreadable hnormal hpayload hlets
    rw [heq]
    exact agreed_of_refused (mt acceptable_iff.2 hlets) refusal

/-! ## Who joins, and who is only welcomed -/

private def interruption : IoError := ⟨.interrupted, "interrupted", none⟩

/-- At most seven bytes at a time, and an interruption behind the last. -/
private def inPieces (bytes : Bytes) : Frame.Source where
  current := bytes
  upcoming := [.failure interruption]
  chunk := some 7

private theorem faithful_inPieces : Frame.Faithful inPieces := fun bytes =>
  ⟨⟨show some 7 ≠ some 0 by decide,
    show ∀ e ∈ [Frame.ReadEvent.failure interruption], e.IsSteady by decide⟩,
    List.append_nil bytes⟩

private def slowSink : Frame.Sink := { upcoming := [.accept 10, .failure interruption] }

private theorem slowSink_willing : slowSink.Willing := by
  unfold Frame.Sink.Willing
  decide

/-- A handshake with a server that allows thirty seconds between the clocks. The client is a
replica. -/
private def handshakeOf (nodeId : String) (signedAt : UInt64) (queueCapacity : Nat)
    (hook : Option ConnectionHook) : Handshake where
  config := { server := "localhost:7654", secret := [1, 2, 3], nodeId, tags := ["east"]
              replica := true }
  gate := { mac := .hmacSha256, secret := [1, 2, 3], maxSkew := some (.ofSeconds 30)
            now := 1700000030000, validator := some fun join => .ok !join.tags.isEmpty }
  options := { queueCapacity }
  hook
  signedAt
  id := .ofNat 7
  registry := {}
  connection := ⟨1⟩
  clientSink := slowSink
  serverSink := slowSink
  toServer := inPieces
  toClient := inPieces

section Scenes

variable {nodeId : String} {signedAt : UInt64} {queueCapacity : Nat} {hook : Option ConnectionHook}

private theorem faultFree_handshakeOf :
    (handshakeOf nodeId signedAt queueCapacity hook).FaultFree where
  client_willing := slowSink_willing
  client_fresh := rfl
  server_willing := slowSink_willing
  server_fresh := rfl
  to_server := faithful_inPieces
  to_client := faithful_inPieces

private theorem admissible_handshakeOf (hlow : 1700000000000 ≤ signedAt.toNat)
    (hhigh : signedAt.toNat ≤ 1700000060000) :
    (handshakeOf "node-1" signedAt queueCapacity hook).Admissible where
  nodeId_ne := show "node-1" ≠ "" by decide
  nodeId_size := show "node-1".utf8ByteSize ≤ maxNodeIdBytes by decide
  nodeId_free := show fieldSeparator ∉ "node-1".toList by decide
  tags_free := show ∀ tag ∈ ["east"], fieldSeparator ∉ tag.toList ∧ tagSeparator ∉ tag.toList by
    decide
  signedAt_ne := by
    rintro rfl
    exact absurd hlow (by decide)
  same_code := rfl
  fresh most hmost := by
    cases hmost
    have hnow : (1700000030000 : UInt64).toNat = 1700000030000 := rfl
    have hmost : (Duration.ofSeconds 30).nanos = 30000000000 := rfl
    show (1700000030000 : UInt64).toNat * 1000000 ≤
        signedAt.toNat * 1000000 + (Duration.ofSeconds 30).nanos ∧
      signedAt.toNat * 1000000 ≤
        (1700000030000 : UInt64).toNat * 1000000 + (Duration.ofSeconds 30).nanos
    omega
  approved := by
    rintro validator ⟨⟩
    rfl

end Scenes

/-- Ids and times of signing: thirty seconds before the server's time, and a millisecond more than
that on either side of it. -/
private def scenes : List (String × UInt64) :=
  [("node-1", 1700000000000), ("node|1", 1700000000000), ("node-1", 1699999999999),
    ("node-1", 1700000060001)]

private theorem size_handshakeOf (queueCapacity : Nat) (hook : Option ConnectionHook)
    {nodeId : String} {signedAt : UInt64} (h : (nodeId, signedAt) ∈ scenes) :
    (handshakeOf nodeId signedAt queueCapacity hook).join.encode.length ≤ maxBodySize.toNat := by
  have hsize : ∀ scene ∈ scenes,
      (handshakeOf scene.1 scene.2 256 none).join.encode.length ≤ maxBodySize.toNat := by
    decide +kernel
  exact hsize (nodeId, signedAt) h

theorem only_a_proper_id_joins :
    (∀ nodeId signedAt, (handshakeOf nodeId signedAt 256 none).FaultFree) ∧
      (∀ nodeId signedAt, (nodeId, signedAt) ∈ scenes →
        (handshakeOf nodeId signedAt 256 none).join.encode.length ≤ maxBodySize.toNat) ∧
      (∃ result, (handshakeOf "node-1" 1700000000000 256 none).run = .ok result ∧
        (∃ connection, result.client = .ok connection) ∧
        result.registry.find? "node-1" =
          some { id := "node-1", role := .slave, tags := ["east"], connections := [⟨1⟩] }) ∧
      ∀ nodeId signedAt, (nodeId, signedAt) ∈ scenes.tail →
        ∃ result, (handshakeOf nodeId signedAt 256 none).run = .ok result ∧
          result.client = .error (.failed .rejected) ∧ result.registry = {} := by
  refine ⟨fun _ _ => faultFree_handshakeOf, fun _ _ => size_handshakeOf 256 none, ?_,
    fun nodeId signedAt hscene => ?_⟩
  · obtain ⟨result, hrun, hagreed⟩ :=
      both_sides_agree (handshakeOf "node-1" 1700000000000 256 none) faultFree_handshakeOf
        (size_handshakeOf 256 none (by decide))
    have hadmissible : (handshakeOf "node-1" 1700000000000 256 none).Admissible :=
      admissible_handshakeOf (by decide) (by decide)
    obtain ⟨join, hjoin⟩ := hagreed.server_iff.2 ⟨hadmissible, ⟨by decide, rfl⟩, nofun⟩
    exact ⟨result, hrun, hagreed.client_iff.2 ⟨hadmissible, ⟨by decide, rfl, rfl⟩⟩,
      (hagreed.joined join hjoin).2.2.1⟩
  · have hrefused : ¬ (handshakeOf nodeId signedAt 256 none).Admissible := by
      simp only [scenes, List.tail_cons, List.mem_cons, List.not_mem_nil, or_false,
        Prod.mk.injEq] at hscene
      obtain ⟨rfl, rfl⟩ | ⟨rfl, rfl⟩ | ⟨rfl, rfl⟩ := hscene
      · exact fun h => absurd h.nodeId_free (by decide)
      · exact fun h => absurd (h.fresh _ rfl) (by decide)
      · exact fun h => absurd (h.fresh _ rfl) (by decide)
    obtain ⟨result, hrun, hagreed⟩ :=
      both_sides_agree (handshakeOf nodeId signedAt 256 none) faultFree_handshakeOf
        (size_handshakeOf 256 none (List.mem_of_mem_tail hscene))
    exact ⟨result, hrun, (hagreed.rejected hrefused).1,
      hagreed.untouched fun join hjoin => hrefused (hagreed.server_iff.1 ⟨join, hjoin⟩).1⟩

/-- The client is let in whatever the server makes of its welcome. -/
private theorem handshakeOf_welcomed_only {queueCapacity : Nat} {hook : Option ConnectionHook}
    (hno : ¬ ((handshakeOf "node-1" 1700000000000 queueCapacity hook).ServerOpens ∧
      (handshakeOf "node-1" 1700000000000 queueCapacity hook).HookReturns)) :
    (handshakeOf "node-1" 1700000000000 queueCapacity hook).WelcomedOnly :=
  have hopens : max defaultQueueCapacity 1 * 32 < 9223372036854775808 := by decide
  welcomed_only faultFree_handshakeOf (size_handshakeOf queueCapacity hook (by decide))
    (admissible_handshakeOf (by decide) (by decide)) ⟨hopens, rfl, rfl⟩ hno

/-- An observer that is given up, and a queue that no memory can hold: either way the client has a
connection that its server has not registered. -/
theorem a_welcome_is_no_registration :
    (handshakeOf "node-1" 1700000000000 256
      (some fun _ _ => .panicked (.text "observer"))).WelcomedOnly ∧
    (handshakeOf "node-1" 1700000000000 18446744073709551615 none).WelcomedOnly := by
  constructor
  · exact handshakeOf_welcomed_only fun hno => nomatch hno.2 _ rfl
  · exact handshakeOf_welcomed_only fun hno => absurd hno.1.queue_fits (by decide)

end Handshake

end ClusterLink
