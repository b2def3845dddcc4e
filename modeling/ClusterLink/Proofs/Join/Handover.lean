import ClusterLink.Handover
import ClusterLink.Proofs.Connection.Exactness
import ClusterLink.Proofs.Connection.Replies
import ClusterLink.Proofs.Join.Agreement
/-!
# The stream is handed over at the byte

A peer may send frames right behind its greeting, or a server right behind its welcome, and they may
arrive in one piece with it. Whoever reads the handshake takes the one frame off the stream and no
byte of the next, so that the read loop finds what stands behind it.

Results:
* `Gate.connect_of_authenticate`, `establish_of_read`: the source that a connection is given.
* `takesUp_read`: its read loop dispatches the frames of what stands behind the first one.
* `handshake_hands_over_at_the_byte`: this for both sides, with what the client answers.
-/
namespace ClusterLink

variable {options : ConnectionOptions} {socket : Socket}

/-! ## What is left of the stream -/

/-- What a node that was let in is served from. -/
theorem Gate.connect_of_authenticate (options : ConnectionOptions) {g : Gate} {m : Message}
    {join : JoinRequest} (h : (g.authenticate socket.source).1 = .ok (m, join)) :
    (∀ accepted l, g.connect options socket = .ok (accepted, l) → accepted = join ∧
      l = ⟨.new options, (Frame.read socket.source).2⟩) ∧
    (socket.sink.Willing → ∃ l, g.connect options socket = .ok (join, l)) := by
  have hsource : (g.authenticate socket.source).2 = (Frame.read socket.source).2 := by
    unfold authenticate
    cases Frame.read socket.source with
    | mk first t => cases first <;> rfl
  unfold connect letIn
  cases ha : g.authenticate socket.source with
  | mk verdict t =>
    rw [ha] at h hsource
    cases h
    dsimp only at hsource
    subst hsource
    simp only [Socket.write, Frame.Sink.writeMessage]
    cases hw : socket.sink.writeFrame m.welcome.encode with
    | mk result sink =>
      cases result with
      | ok _ => exact ⟨fun accepted l hl => by cases hl; exact ⟨rfl, rfl⟩, fun _ => ⟨_, rfl⟩⟩
      | error cause =>
        refine ⟨fun accepted l hl => (by cases hl), fun hsink => ?_⟩
        have hok := (Frame.Sink.writeFrame_of_willing hsink m.welcome.encode).1
        rw [hw] at hok
        cases hok

theorem Gate.whole_of_authenticate {g : Gate} {s : Frame.Source} {m : Message} {join : JoinRequest}
    (h : (g.authenticate s).1 = .ok (m, join)) : Frame.Whole m := by
  obtain ⟨-, hsize, hkind, -⟩ := authenticate_eq_ok_iff.1 h
  refine ⟨hsize, ?_⟩
  rw [Message.normalized, hkind]
  obtain ⟨id, kind, body, fits⟩ := m
  cases hkind
  rfl

/-- What a client that is welcomed reads on from. -/
theorem establish_of_read (options : ConnectionOptions) {greeting welcome : Message}
    (hread : (Frame.read socket.source).1 = .ok welcome)
    (hwelcome : greeting.isWelcomeFor welcome = true) :
    (∀ l, establish greeting options socket = .ok l →
      l = ⟨.new options, (Frame.read socket.source).2⟩) ∧
    (socket.sink.Willing → ∃ l, establish greeting options socket = .ok l) := by
  unfold establish dial Socket.write Frame.Sink.writeMessage
  cases hw : socket.sink.writeFrame greeting.encode with
  | mk result sink =>
    cases result with
    | ok _ =>
      have hawait : awaitWelcome greeting { socket with sink } =
          (.ok (), { source := (Frame.read socket.source).2, sink }) := by
        unfold awaitWelcome Socket.read
        cases hr : Frame.read socket.source with
        | mk first t =>
          rw [hr] at hread
          cases hread
          simp only [hwelcome, if_true]
      dsimp only
      rw [hawait]
      exact ⟨fun l hl => by cases hl; rfl, fun _ => ⟨_, rfl⟩⟩
    | error cause =>
      refine ⟨fun l hl => (by cases hl), fun hsink => ?_⟩
      have hok := (Frame.Sink.writeFrame_of_willing hsink greeting.encode).1
      rw [hw] at hok
      cases hok

/-! ## What the read loop makes of it -/

/-- The read loop of a new connection dispatches the frames of some bytes, and then stops for what is
wrong with the rest of them. -/
structure TakesUp (options : ConnectionOptions) (failure : Option IoError) (rest : Bytes)
    (l : ReadLoop) : Prop where
  connection : l.connection = .new options
  arriving : l.source.arriving = rest
  exists_framing : ∃ frames tail cause, Frame.Framing failure rest frames tail cause
  readsExactly : ∀ frames tail cause, Frame.Framing failure rest frames tail cause →
    l.ReadsExactly frames cause

/-- Behind the first frame of a stream the read loop finds the rest of it. -/
theorem takesUp_read (options : ConnectionOptions) {s : Frame.Source} (hs : s.Flows) {m : Message}
    (hm : Frame.Whole m) {rest : Bytes} (h : s.arriving = m.encode ++ rest) :
    TakesUp options s.failure? rest ⟨.new options, (Frame.read s).2⟩ := by
  obtain ⟨t, hread, harriving, ht, hsame⟩ := Frame.read_of_whole hs hm h
  rw [hread]
  refine ⟨rfl, harriving, Frame.exists_framing _ _, fun frames tail cause hframing => ?_⟩
  rw [← hsame, ← harriving] at hframing
  exact ReadLoop.readsExactly .start rfl ht hframing

/-! ## What the client answers -/

/-- What a client writes back on a frame that nobody waits for. -/
def repliesTo (callback : Option Callback) (m : Message) : List Message :=
  if m.kind = .ping then [m.pong]
  else match callback with
    | some f => (f m).replies
    | none => []

theorem replies_inbound (callback : Option Callback) (m : Message) :
    (inbound callback m).replies = repliesTo callback m := by
  unfold inbound repliesTo
  split
  · rfl
  · cases callback <;> rfl

theorem inbound_isQuiet {callback : Option Callback}
    (h : ∀ f, callback = some f → f.IsQuiet) : (inbound callback).IsQuiet := by
  intro m
  unfold inbound
  split
  · exact ⟨rfl, rfl⟩
  · cases callback with
    | some f => exact h f rfl m
    | none => exact ⟨rfl, rfl⟩

/-- What becomes of all frames of a stream if nobody makes a request. -/
structure AnswersAll (callback : Option Callback) (frames : List Message) (start : ReadLoop) :
    Prop where
  /-- Every frame goes to the client's own callback. -/
  handed : (start.connection.serve (some (inbound callback)) start.source).1.history.unasked.map
    Arrival.message = frames
  /-- Pings are answered, and what the user's callback answers to the others is written back. -/
  queued : (start.connection.serve (some (inbound callback)) start.source).1.history.queued =
    (frames.flatMap (repliesTo callback)).map Message.encode
  /-- So it is in every interleaving, whatever is written besides. -/
  passed : ∀ events l result, start.run events = some l →
    (∀ m, .connection (.send m) ∉ events) → l.connection.Undisturbed →
    l.connection.reader = .ended result → l.connection.history.unasked.map Arrival.message = frames

theorem unasked_new (options : ConnectionOptions) : (Connection.new options).books.Unasked :=
  ⟨rfl, rfl, rfl, fun _ _ h => (by cases h), rfl⟩

/-- All frames that a reader at its end has taken are passed on if nobody made a request. -/
theorem unasked_of_dispatched {frames : List Message} {c d : Connection}
    (h : Connection.Dispatched frames c d) (hu : d.books.Unasked) :
    d.history.unasked.map Arrival.message = frames := by
  have hpassed := hu.passed
  rw [h.done, Option.map_none, Option.toList_none, List.append_nil] at hpassed
  exact hpassed.trans h.arrivals

theorem answersAll {s : Frame.Source} (hs : s.Flows) {frames : List Message} {tail : Bytes}
    {cause : FrameError} (h : Frame.Framing s.failure? s.arriving frames tail cause)
    {callback : Option Callback} (hquiet : ∀ f, callback = some f → f.IsQuiet) :
    AnswersAll callback frames ⟨.new options, s⟩ := by
  have hinbound := inbound_isQuiet hquiet
  have hexact : (ReadLoop.mk (.new options) s).ReadsExactly frames cause :=
    ReadLoop.readsExactly .start rfl hs h
  have hserved := hexact.serve (some (inbound callback)) rfl trivial (by rintro _ ⟨⟩; exact hinbound)
  constructor
  · have hall : ∀ f, some (inbound callback) = some f → f.IsQuiet := by
      rintro _ ⟨⟩
      exact hinbound
    obtain ⟨events, hevents, hrun⟩ := Connection.exists_run_serve (c := .new options) rfl hall s
    refine unasked_of_dispatched hserved.toDispatched
      (Connection.unasked_of_run (unasked_new options) (fun m hm => ?_) hrun)
    cases hevents _ hm
  · have hable : Connection.Able options (.new options) := ⟨.start, rfl, trivial, rfl⟩
    rw [Connection.queued_serve hable rfl (unasked_new options) hinbound s]
    obtain ⟨t, hall⟩ := Frame.readAll_of_framing hs h
    rw [hall]
    simp only [replies_inbound]
    rfl
  · intro events l result hrun hsend hl hended
    exact unasked_of_dispatched (hexact.finished events l result hrun hl hended).toDispatched
      (Connection.unasked_of_run (unasked_new options) hsend hrun)

/-! ## Both sides -/

/-- **The handshake hands the stream over at the exact byte.** Behind a greeting that the server
believes, or a welcome under the id of the client's greeting, there may be any bytes, and all of them
may arrive in any pieces. The read loop of the connection then finds these bytes and no others: it
dispatches their frames, each of them once and in their order.

On a client that makes no request, all of them go to the callback, and pings are answered. -/
theorem handshake_hands_over_at_the_byte (options : ConnectionOptions) (socket : Socket)
    (hs : socket.source.Flows) (rest : Bytes) :
    (∀ (g : Gate) greeting join, socket.source.arriving = greeting.encode ++ rest →
      (g.authenticate socket.source).1 = .ok (greeting, join) →
      (socket.sink.Willing → ∃ l, g.connect options socket = .ok (join, l)) ∧
      ∀ accepted l, g.connect options socket = .ok (accepted, l) →
        TakesUp options socket.source.failure? rest l) ∧
    ∀ greeting welcome, socket.source.arriving = welcome.encode ++ rest → Frame.Whole welcome →
      greeting.isWelcomeFor welcome = true →
      (socket.sink.Willing → ∃ l, establish greeting options socket = .ok l) ∧
      ∀ l, establish greeting options socket = .ok l →
        TakesUp options socket.source.failure? rest l ∧
        ∀ callback : Option Callback, (∀ f, callback = some f → f.IsQuiet) →
          ∀ frames tail cause, Frame.Framing socket.source.failure? rest frames tail cause →
            AnswersAll callback frames l := by
  constructor
  · intro g greeting join harriving hauth
    obtain ⟨hread, hadmitted⟩ := Gate.connect_of_authenticate options hauth
    refine ⟨hadmitted, fun accepted l hl => ?_⟩
    obtain ⟨-, rfl⟩ := hread accepted l hl
    exact takesUp_read options hs (Gate.whole_of_authenticate hauth) harriving
  · intro greeting welcome harriving hwhole hwelcome
    obtain ⟨t, hread, hrest, ht, hsame⟩ := Frame.read_of_whole hs hwhole harriving
    obtain ⟨hestablished, hwilling⟩ :=
      establish_of_read options (congrArg Prod.fst hread) hwelcome
    refine ⟨hwilling, fun l hl => ?_⟩
    obtain rfl := hestablished l hl
    refine ⟨takesUp_read options hs hwhole harriving, fun callback hquiet frames tail cause h => ?_⟩
    rw [hread]
    rw [← hsame, ← hrest] at h
    exact answersAll ht h hquiet

/-! ### Frames right behind the handshake -/

private def eagerRequest : JoinRequest :=
  .sign .hmacSha256 (bytesOfText "cluster-secret") "node-1" [] false 1700000000000

private def eagerGate : Gate where
  mac := .hmacSha256
  secret := bytesOfText "cluster-secret"
  now := 1700000000000

private theorem eagerRequest_accepted :
    eagerRequest.Accepts .hmacSha256 (bytesOfText "cluster-secret") 1700000000000 none where
  form := ⟨show "node-1" ≠ "" by decide, show "node-1".utf8ByteSize ≤ maxNodeIdBytes by decide,
    show fieldSeparator ∉ "node-1".toList by decide, fun tag htag => (by cases htag),
    show (1700000000000 : UInt64) ≠ 0 by decide, JoinRequest.utf8ByteSize_joinDigest ..⟩
  digest := (JoinRequest.verify_eq_ok_iff ..).1 (JoinRequest.verify_sign ..)
  age most hmost := by cases hmost

private def eagerGreeting : Message := ⟨.ofNat 7, .greeting, eagerRequest.encode, by decide +kernel⟩

private def eagerPing : Message := .bare (.ofNat 8) .ping

private def eagerNote : Message := ⟨.ofNat 9, .select, [4, 3, 2], by decide⟩

/-- The frames that stand behind the handshake. -/
private def behind : Bytes := eagerPing.encode ++ eagerNote.encode

/-- A socket on which some bytes are there at once, to be had in pieces of at most twenty. -/
private def socketOf (bytes : Bytes) : Socket where
  source := { current := bytes, chunk := some 20 }

private theorem flows_socketOf (bytes : Bytes) : (socketOf bytes).source.Flows :=
  show (some 20 : Option Nat) ≠ some 0 by decide

private theorem arriving_socketOf (bytes : Bytes) : (socketOf bytes).source.arriving = bytes := by
  rw [Frame.Source.arriving_of_flows (flows_socketOf bytes)]
  exact List.append_nil bytes

private theorem framing_behind :
    Frame.Framing none behind [eagerPing, eagerNote] [] .ended where
  whole := by decide
  eq_append := by simp [behind]
  fault := .ended

theorem frames_right_behind_the_handshake :
    (∃ l, eagerGate.connect {} (socketOf (eagerGreeting.encode ++ behind)) = .ok (eagerRequest, l) ∧
      (l.connection.serve none l.source).1.history.arrivals = [eagerPing, eagerNote]) ∧
    ∃ l, establish eagerGreeting {} (socketOf (eagerGreeting.welcome.encode ++ behind)) = .ok l ∧
      (l.connection.serve (some (inbound none)) l.source).1.history.unasked.map Arrival.message =
        [eagerPing, eagerNote] ∧
      (l.connection.serve (some (inbound none)) l.source).1.history.queued =
        [eagerPing.pong.encode] := by
  have hwilling (bytes : Bytes) : (socketOf bytes).sink.Willing := by
    unfold Frame.Sink.Willing
    simp [socketOf]
  constructor
  · have hauth : (eagerGate.authenticate (socketOf (eagerGreeting.encode ++ behind)).source).1 =
        .ok (eagerGreeting, eagerRequest) :=
      Gate.authenticate_eq_ok_iff.2 ⟨⟨behind, arriving_socketOf _⟩, by decide +kernel, rfl, rfl,
        eagerRequest_accepted, fun _ hnone => by cases hnone⟩
    obtain ⟨hadmits, htakes⟩ := (handshake_hands_over_at_the_byte {} _ (flows_socketOf _) behind).1
      eagerGate eagerGreeting eagerRequest (arriving_socketOf _) hauth
    obtain ⟨l, hl⟩ := hadmits (hwilling _)
    have hl' := htakes _ l hl
    have hserved := (hl'.readsExactly _ _ _ framing_behind).serve none (by rw [hl'.connection]; rfl)
      (by rw [hl'.connection]; trivial) (by simp)
    exact ⟨l, hl, hserved.arrivals⟩
  · obtain ⟨hestablishes, htakes⟩ := (handshake_hands_over_at_the_byte {} _ (flows_socketOf _) behind).2
      eagerGreeting eagerGreeting.welcome (arriving_socketOf _) (by decide) (by decide)
    obtain ⟨l, hl⟩ := hestablishes (hwilling _)
    have hanswers := (htakes l hl).2 none (by simp) _ _ _ framing_behind
    exact ⟨l, hl, hanswers.handed, hanswers.queued⟩

end ClusterLink
