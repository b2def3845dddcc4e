import ClusterLink.Proofs.Conversation.Exchange
import ClusterLink.Proofs.Machine.Inevitable
/-!
# Requests from end to end

Any number of requests with different ids share a connection, the server answers them in any order,
and the bytes are cut in any way. Each request that the server makes an answer of returns this answer,
as if it had been the only one.

It returns nothing else, at any time; and it does return, since every step brings the requests, the
frames or the bytes further on their way, and while an answer is missing there is such a step.

Results:
* `Conversation.lowers`: every step lowers the ranks.
* `Conversation.Settled.isOver`: where no step is left, every answer was returned.
* `Conversation.answers_as_if_alone`: what every request returns.
-/
namespace ClusterLink

/-- Whether a step is no mere interruption and makes no new request, here or on another connection of
the server. -/
def ConversationEvent.movesOn : ConversationEvent → Bool
  | client (.send _) | client (.writer .interrupted)
  | service (.connection (.writer .interrupted)) | service .submitForeign => false
  | _ => true

namespace Conversation

variable {handler : Option Handler} {all : List Message} {s t : Conversation}
  {e : ConversationEvent} {sent done : List Message} {u : Ticket} {r : Request} {a : Message}

/-! ## Every step counts -/

/-- What is left to do on the way of a request, in this order: by its caller, by the client's writer,
by the network, by the server's reader, its workers and its writer, by the network again and by the
client's reader. -/
def ranks : List (Conversation → Nat) :=
  [fun s => s.client.ahead,
    fun s => s.client.outgoing.backlog,
    fun s => s.client.wire.length - s.toServer.arrived,
    fun s => s.toServer.arrived - s.toServer.consumed,
    fun s => s.service.connection.reader.ahead,
    fun s => s.service.pool.workload,
    fun s => s.service.connection.outgoing.backlog,
    fun s => s.service.connection.wire.length - s.toClient.arrived,
    fun s => s.toClient.arrived - s.toClient.consumed,
    fun s => s.client.reader.ahead]

open Machine in
/-- Every step of a client that makes no request lowers the ranks. -/
theorem lowers_client {e : ConnectionEvent} {c : Connection} (h : InTouch handler all sent done s)
    (hs : s.client.step e = some c) (he : e.isCalm = true) (hread : isReading e = false)
    (hmove : (ConversationEvent.client e).movesOn = true) :
    Lowers ranks { s with client := c } s := by
  have hopen : s.client.isClosed = false := by rw [Connection.isClosed, h.asking.opened]; rfl
  cases e with
  | request u e =>
    obtain ⟨r, hr, hs⟩ := Option.bind_eq_some_iff.1 hs
    exact .head (Connection.ahead_stepRequest hr hs)
  | writer e =>
    obtain ⟨hstep, heq⟩ := Connection.stepWriter_outgoing hopen hs he
    have hahead : c.ahead = s.client.ahead := by rw [heq]; rfl
    refine .cons hahead (.head (Outgoing.backlog_writerStep hstep ?_))
    rintro rfl
    cases hmove
  | reader e =>
    cases e with
    | dispatch =>
      have hout := Connection.outgoing_stepReader hs
      have hwire : c.wire = s.client.wire := congrArg Outgoing.wire hout
      have hreader : c.reader.ahead < s.client.reader.ahead := by
        rcases (Connection.Asking.calm h.asking.opened h.asking.callback hs rfl).reader with
          ⟨hne, -⟩ | ⟨a, slot, hc, hd⟩ | ⟨m, a, slot, he, -⟩
        · exact absurd rfl hne
        · rw [hc, hd]
          exact Nat.zero_lt_succ 1
        · cases he
      refine .cons (Connection.ahead_dispatch hs) (.cons (congrArg Outgoing.backlog hout) ?_)
      refine .cons (congrArg (·.length - s.toServer.arrived) hwire) (.cons rfl ?_)
      exact .cons rfl (.cons rfl (.cons rfl (.cons rfl (.cons rfl (.head hreader)))))
    | arrive m => cases hread
    | _ => cases he
  | send m => cases hmove
  | _ => cases he

open Machine in
/-- Every step of a server that takes no frame off its socket lowers the ranks. -/
theorem lowers_service {e : ServiceEvent} {v : Service} (h : InTouch handler all sent done s)
    (hs : s.service.step handler e = some v) (he : e.isCalm = true)
    (hread : isServiceReading e = false) (hmove : (ConversationEvent.service e).movesOn = true) :
    Lowers ranks { s with service := v } s := by
  obtain ⟨-, hturn⟩ := Service.step_desk h.ready h.isServing_service hs he
  refine .cons rfl (.cons rfl (.cons rfl (.cons rfl ?_)))
  rcases hturn.lowers (fun heq => by rw [heq] at hmove; cases hmove)
    (fun m heq => by rw [heq] at hread; cases hread)
    (fun heq => by rw [heq] at hmove; cases hmove) with hr | ⟨hr, hp | ⟨hp, hb⟩⟩
  · exact .head hr
  · exact .cons (congrArg Reader.ahead hr) (.head hp)
  · exact .cons (congrArg Reader.ahead hr) (.cons (congrArg WorkerPool.workload hp) (.head hb))

open Machine in
/-- **Every step lowers the ranks** that is no mere interruption and makes no request. -/
theorem lowers (h : InTouch handler all sent done s) (hs : step handler s e = some t)
    (he : e.IsCalm handler all) (hmove : e.movesOn = true) :
    Lowers ranks t s := by
  cases step_iff.1 hs with
  | client hread hc => exact lowers_client h hc he.calm hread hmove
  | service hread hv => exact lowers_service h hv he.calm hread hmove
  | arriveAtServer ht =>
    obtain ⟨hlt, hle⟩ := Transit.arrived_of_arrive ht
    exact .cons rfl (.cons rfl (.head (Nat.sub_lt_sub_left (Nat.lt_of_lt_of_le hlt hle) hlt)))
  | arriveAtClient ht =>
    obtain ⟨hlt, hle⟩ := Transit.arrived_of_arrive ht
    exact .cons rfl (.cons rfl (.cons rfl (.cons rfl (.cons rfl (.cons rfl (.cons rfl
      (.head (Nat.sub_lt_sub_left (Nat.lt_of_lt_of_le hlt hle) hlt))))))))
  | @serverReads m toServer _ ht hv =>
    obtain ⟨front, back, rfl, hd⟩ := h.toServer
    obtain ⟨x, later, -, -, hd', harr, hcons⟩ := hd.take ht
    have hord := hd'.ordered
    refine .cons rfl (.cons rfl (.cons ?_ (.head ?_)))
    · exact congrArg (s.client.wire.length - ·) harr
    · change toServer.arrived - toServer.consumed < s.toServer.arrived - s.toServer.consumed
      omega
  | @clientReads m toClient _ ht hc =>
    obtain ⟨-, rfl⟩ := Connection.eq_of_arrive hc
    obtain ⟨front, back, hsplit, hd⟩ := h.toClient
    obtain ⟨x, later, -, -, hd', harr, hcons⟩ := hd.take ht
    have hord := hd'.ordered
    refine .cons rfl (.cons rfl (.cons rfl (.cons rfl (.cons rfl (.cons rfl (.cons rfl
      (.cons ?_ (.head ?_))))))))
    · exact congrArg (s.service.connection.wire.length - ·) harr
    · change toClient.arrived - toClient.consumed < s.toClient.arrived - s.toClient.consumed
      omega

/-! ## Where no step is left -/

/-- Whether nothing can happen but interruptions and new requests. -/
def Settled (handler : Option Handler) (all : List Message) (s : Conversation) : Prop :=
  ∀ e, e.IsCalm handler all → e.movesOn = true → step handler s e = none

namespace Settled

theorem client_eq_none (h : Settled handler all s) {e : ConnectionEvent} (he : e.isCalm = true)
    (ht : (ConversationEvent.client e).timedOut? = none)
    (hmove : (ConversationEvent.client e).movesOn = true) (hread : isReading e = false) :
    s.client.step e = none := by
  have hnone := h (.client e) (.of_timedOut?_eq_none he ht) hmove
  rwa [step, hread, if_neg Bool.false_ne_true, Option.map_eq_none_iff] at hnone

theorem service_eq_none (h : Settled handler all s) {e : ServiceEvent} (he : e.isCalm = true)
    (hmove : (ConversationEvent.service e).movesOn = true) (hread : isServiceReading e = false) :
    s.service.step handler e = none := by
  have hnone := h (.service e) (.of_timedOut?_eq_none he rfl) hmove
  rwa [step, hread, if_neg Bool.false_ne_true, Option.map_eq_none_iff] at hnone

/-- The client has written everything. -/
theorem client_idle (h : Settled handler all s) (hi : InTouch handler all sent done s) :
    s.client.writer = .idle ∧ s.client.queue = [] := by
  obtain ⟨front, back, -, hd⟩ := hi.toServer
  by_contra hwork
  obtain ⟨e, c, he, hne, hs⟩ := Connection.exists_writer_step hd.sound.writer
    (not_and_or.1 hwork)
  have hmove : (ConversationEvent.client (.writer e)).movesOn = true := by
    cases e with
    | interrupted => exact absurd rfl hne
    | _ => rfl
  have hstep : s.client.step (.writer e) = some c := hs
  rw [h.client_eq_none (e := .writer e) he rfl hmove rfl] at hstep
  cases hstep

/-- The server has written everything. -/
theorem service_idle (h : Settled handler all s) (hi : InTouch handler all sent done s) :
    s.service.connection.writer = .idle ∧ s.service.connection.queue = [] := by
  obtain ⟨front, back, -, hd⟩ := hi.toClient
  by_contra hwork
  obtain ⟨e, c, he, hne, hs⟩ := Connection.exists_writer_step hd.sound.writer
    (not_and_or.1 hwork)
  have hmove : (ConversationEvent.service (.connection (.writer e))).movesOn = true := by
    cases e with
    | interrupted => exact absurd rfl hne
    | _ => rfl
  have hstep : s.service.step handler (.connection (.writer e)) = some ⟨c, s.service.pool⟩ :=
    Option.map_eq_some_iff.2 ⟨c, hs, rfl⟩
  rw [h.service_eq_none (e := .connection (.writer e)) he hmove rfl] at hstep
  cases hstep

/-- Every frame that came in is done. -/
theorem service_done (h : Settled handler all s) (hi : InTouch handler all sent done s) :
    s.service.connection.reader = .reading ∧ s.service.pool.unfinished = [] := by
  have hroom : s.service.connection.queue.length < s.service.connection.capacity := by
    rw [(h.service_idle hi).2]
    exact Nat.lt_of_lt_of_le Nat.zero_lt_one (Nat.le_max_right ..)
  by_contra hleft
  obtain ⟨e, v, he, hs⟩ := Service.exists_step hi.ready hi.isServing_service hi.desk hroom
    (not_and_or.1 hleft)
  have hnone : s.service.step handler e = none := by
    cases e with
    | connection e =>
      cases e with
      | reader e =>
        cases e with
        | dispatch => exact h.service_eq_none rfl rfl rfl
        | _ => cases he
      | _ => cases he
    | submitForeign => cases he
    | _ => exact h.service_eq_none rfl rfl rfl
  rw [hs] at hnone
  cases hnone

/-- Every request that was sent is done. -/
theorem done_perm (ha : Acceptable handler all) (h : Settled handler all s)
    (hi : InTouch handler all sent done s) : done.Perm (sent.map Message.normalized) := by
  obtain ⟨hreader, hpool⟩ := h.service_done hi
  have hplaced := hi.desk.placed
  rw [show s.service.desk.reader = .reading from hreader,
    show s.service.desk.jobs = [] from congrArg PoolJob.frames hpool] at hplaced
  refine hplaced.trans (.of_eq ?_)
  have hsent : ∀ m ∈ sent, m.Readable := fun m => hi.readable_sent ha
  obtain ⟨front, back, rfl, hd⟩ := hi.toServer
  have hback : ∀ m ∈ back, m.Readable := fun m hm => hsent m (List.mem_append_right _ hm)
  have harrived : s.client.wire.length ≤ s.toServer.arrived := by
    by_contra hlt
    have hnone := h (.arriveAtServer 1) (.of_timedOut?_eq_none rfl rfl) rfl
    rw [step, Option.map_eq_none_iff, Transit.arrive, if_pos (by omega)] at hnone
    cases hnone
  have htake : s.toServer.take? s.client.wire = none := by
    cases ht : s.toServer.take? s.client.wire with
    | none => rfl
    | some p =>
      have hnone := h .serverReads (.of_timedOut?_eq_none rfl rfl) rfl
      simp only [step, ht, Option.bind_some, Service.step, Service.isCallbackEnd, Connection.step,
        Connection.stepReader, hreader] at hnone
      cases hnone
  obtain ⟨hw, hq⟩ := h.client_idle hi
  obtain rfl := hd.all_read hback hw hq harrived htake
  rw [List.append_nil]
  exact hd.read

/-- The client has taken everything, and put it where it belongs. -/
theorem client_read (ha : Acceptable handler all) (h : Settled handler all s)
    (hi : InTouch handler all sent done s) : s.client.reader = .reading ∧
      s.client.history.arrivals =
        (done.filterMap (Service.answer? handler)).map Message.normalized := by
  have hreader : s.client.reader = .reading := by
    rcases hi.asking.reader with hr | ⟨a, slot, hr⟩
    · exact hr
    · have hnone := h.client_eq_none (e := .reader .dispatch) rfl rfl rfl rfl
      cases slot <;> simp only [Connection.step, Connection.stepReader, hr] at hnone <;> cases hnone
  refine ⟨hreader, ?_⟩
  have hanswers := fun x => hi.readable_answers ha (x := x)
  obtain ⟨front, back, hsplit, hd⟩ := hi.toClient
  rw [hsplit] at hanswers ⊢
  have hback : ∀ m ∈ back, m.Readable := fun m hm => hanswers m (List.mem_append_right _ hm)
  have harrived : s.service.connection.wire.length ≤ s.toClient.arrived := by
    by_contra hlt
    have hnone := h (.arriveAtClient 1) (.of_timedOut?_eq_none rfl rfl) rfl
    rw [step, Option.map_eq_none_iff, Transit.arrive, if_pos (by omega)] at hnone
    cases hnone
  have htake : s.toClient.take? s.service.connection.wire = none := by
    cases ht : s.toClient.take? s.service.connection.wire with
    | none => rfl
    | some p =>
      have hnone := h .clientReads (.of_timedOut?_eq_none rfl rfl) rfl
      simp only [step, ht, Option.bind_some, Connection.step, Connection.stepReader, hreader]
        at hnone
      cases hnone
  obtain ⟨hw, hq⟩ := h.service_idle hi
  obtain rfl := hd.all_read hback hw hq harrived htake
  rw [List.append_nil]
  exact hd.read

/-- Every request that the server makes an answer of was answered. -/
theorem isOver (ha : Acceptable handler all) (h : Settled handler all s)
    (hi : InTouch handler all sent done s) (hr : s.client.requests[u]? = some r)
    (hw : Wanted handler r.message) : r.isOver = true := by
  have hcourse := hi.asking.tended.onCourse u r hr hw
  obtain ⟨hreader, harrivals⟩ := h.client_read ha hi
  have hroom : s.client.queue.length < s.client.capacity := by
    rw [(h.client_idle hi).2]
    exact Nat.lt_of_lt_of_le Nat.zero_lt_one (Nat.le_max_right ..)
  by_contra hover
  rw [Bool.not_eq_true] at hover
  have hfilled : r.stage = .waiting → r.slot ≠ .vacant := by
    intro hstage hvacant
    -- The request was sent, so it is done, and its answer came in.
    have hsent : r.message ∈ sent := hi.asking.posted.covered u r hr
      ((hi.asking.timely u r hr).queued (by simp [Request.isQueued, hstage]))
    have hdone : r.message.normalized ∈ done :=
      (h.done_perm ha hi).mem_iff.2 (List.mem_map_of_mem hsent)
    obtain ⟨a, hcomputes⟩ := hw
    obtain ⟨x, hx, hid, rfl⟩ := Service.computes_iff.1 hcomputes
    have harrived : x.normalized ∈ s.client.history.arrivals := by
      rw [harrivals]
      exact List.mem_map_of_mem (List.mem_filterMap.2 ⟨_, hdone, hx⟩)
    obtain ⟨n, hn⟩ := List.getElem?_of_mem harrived
    rcases hi.asking.tended.received u r hr ⟨_, hcomputes⟩ n _ hn hid with hslot | hhand
    · rw [hslot] at hvacant
      cases hvacant
    · change s.client.reader.hand = _ at hhand
      rw [hreader] at hhand
      cases hhand
  obtain ⟨e, c, he, hs⟩ := Connection.exists_request_step hi.isServing_client hroom hr hcourse hover
    hfilled
  have htime : (ConversationEvent.client (.request u e)).timedOut? = none := by
    cases e with
    | timeOut => exact absurd rfl he
    | _ => rfl
  have hnone := h.client_eq_none (e := .request u e) rfl htime rfl rfl
  rw [hs] at hnone
  cases hnone

end Settled

/-! ## What requests return -/

/-- A request that the server makes an answer of returns nothing but this answer. -/
theorem InTouch.result (ho : Orderly handler all) (h : InTouch handler all sent done s)
    (hr : s.client.requests[u]? = some r) (ha : Service.Computes handler r.message.normalized a)
    {result : Except ConnectionError Arrival} (hres : r.result? = some result) :
    ∃ n, result = .ok ⟨n, a⟩ := by
  have hstage := Request.stage_of_result hres
  cases result with
  | error e => exact absurd hstage ((h.asking.tended.onCourse u r hr ⟨a, ha⟩).failed e)
  | ok b =>
    have hslot := h.asking.coherent.answered u r b hr hstage
    obtain ⟨hdelivered, hid, -⟩ := h.asking.coherent.filled u r b hr hslot
    have harr := h.asking.accounted.arrived_of_places (Books.places_pos_of_delivered hdelivered)
    obtain ⟨z, hz, x, hx, hb⟩ := h.sent_of_arrival (List.mem_of_getElem? harr)
    have hxid : r.message.id = x.id := by rw [hid, hb]; rfl
    obtain rfl := ho.answers z (h.asked.subset (h.mem_asked_of_sent hz)) x hx r.message
      (h.mem_all hr) hxid
    obtain ⟨y, hy, -, rfl⟩ := Service.computes_iff.1 ha
    cases hx.symm.trans hy
    refine ⟨b.number, ?_⟩
    rw [← hb]

/-- **End to end.** Any number of requests with different ids are made on one connection to a server,
and everything on the way is interleaved in any way: the callers, the writers, which put any number
of bytes on the wire at a time, the bytes, which come in in pieces of any size, the readers, and the
workers, which run the handler on any of their jobs and serve other connections too. Nobody closes
the connection, nothing fails, and no time runs out for a request that the server makes an answer of:
a pong of a ping, the reply of the handler, or an error that says what the handler failed with.

Then each such request returns nothing but this answer, whatever the other requests are. And it is
inevitable that all of them return if the readers accept every request and every answer: every way of
going on without new requests, here or on other connections, comes to an end, and there each has
returned. -/
theorem answers_as_if_alone (handler : Option Handler) (client server : ConnectionOptions)
    (workers : Nat) {events : List ConversationEvent} {s : Conversation}
    (hrun : (machine handler client server workers).run
      (machine handler client server workers).start events = some s)
    (horderly : Orderly handler s.asked) (hcalm : ∀ e ∈ events, e.IsCalm handler s.asked) :
    (∀ r ∈ s.client.requests, ∀ a, Service.Computes handler r.message.normalized a →
      ∀ result, r.result? = some result → ∃ n, result = .ok ⟨n, a⟩) ∧
    (Acceptable handler s.asked → (machine handler client server workers).Inevitable
      (fun e => e.IsCalm handler s.asked ∧ e.movesOn = true)
      (fun d => d.asked = s.asked ∧ ∀ r ∈ d.client.requests, ∀ a,
        Service.Computes handler r.message.normalized a → ∃ n, r.result? = some (.ok ⟨n, a⟩))
      s) := by
  obtain ⟨sent, done, h⟩ := inTouch_of_run horderly hrun hcalm (List.prefix_refl _)
  refine ⟨fun r hr a ha result hres => ?_, fun hacceptable => ?_⟩
  · obtain ⟨u, hu⟩ := List.getElem?_of_mem hr
    exact h.result horderly hu ha hres
  · refine @Machine.inevitable_of_lowers _ _ _ _ _
      (fun d => d.asked = s.asked ∧ ∃ sent done, InTouch handler s.asked sent done d) ranks
      ?_ ?_ s ⟨rfl, sent, done, h⟩
    · rintro c e d ⟨hasked, sent, done, h⟩ ⟨he, hmove⟩ hs
      have hsame : d.asked = s.asked := by
        refine ((asked_of_step hs).2 fun m heq => ?_).trans hasked
        rw [heq] at hmove
        cases hmove
      exact ⟨⟨hsame, h.step horderly hs he (hsame ▸ List.prefix_refl _)⟩,
        lowers h hs he hmove⟩
    · rintro d ⟨hasked, sent, done, h⟩ hnone
      refine ⟨hasked, fun r hr a ha => ?_⟩
      obtain ⟨u, hu⟩ := List.getElem?_of_mem hr
      have hsettled : Settled handler s.asked d := fun e he hmove => hnone e ⟨he, hmove⟩
      have hover := hsettled.isOver hacceptable h hu ⟨a, ha⟩
      obtain ⟨result, hres⟩ := Option.isSome_iff_exists.1 hover
      obtain ⟨n, rfl⟩ := h.result horderly hu ha hres
      exact ⟨n, hres⟩

/-! ## Four requests at once -/

private theorem reply_fits : ([9] : Bytes).length < bodyLimit := by decide

/-- Queries are replied to, insertions fail, and all else is passed over in silence. -/
private def clerk : Handler := fun m =>
  match m.kind with
  | .select => .reply ⟨m.id, .select, [9], reply_fits⟩
  | .insert => .failed "full"
  | _ => .silent

private def query : Message := ⟨.ofNat 1, .select, [7], by decide⟩

private def insertion : Message := .bare (.ofNat 2) .insert

private def opening : Message := .bare (.ofNat 3) .begin

private def probe : Message := .bare (.ofNat 4) .ping

private def makes (t : Ticket) (m : Message) : List ConversationEvent :=
  .client (.send m) ::
    [RequestEvent.register, .reach, .queue].map fun e => .client (.request t e)

private def writes (bytes : Nat) : List WriterEvent :=
  [.fetch, .look, .accept bytes, .flush]

private def submits : List ConversationEvent :=
  [.serverReads, .service (.connection (.reader .dispatch)), .service .submit]

/-- The frames are cut within the second one. The probe is answered first, the insertion, which stands
behind a job of another connection, fails before the query is handled, and the time runs out for the
request that nobody answers. -/
private def exchange : List ConversationEvent :=
  makes 0 query ++ makes 1 insertion ++ makes 2 opening ++ makes 3 probe ++
    (writes 25 ++ writes 24 ++ writes 24 ++ writes 24).map (fun e => .client (.writer e)) ++
    .arriveAtServer 30 :: submits ++ .service .submitForeign :: .arriveAtServer 67 :: submits ++
    submits ++
    [.serverReads, .service (.connection (.reader .dispatch)), .service .answerPing,
      .service (.take 1), .service (.take 0), .service (.endForeign 0 none), .service (.take 0),
      .service (.handle 0)] ++
    (writes 24).map (fun e => .service (.connection (.writer e))) ++
    [.arriveAtClient 24, .clientReads, .client (.reader .dispatch), .client (.request 3 .take),
      .client (.request 2 .timeOut)]

private def underway : Conversation :=
  ((machine (some clerk) {} {} 2).run (machine (some clerk) {} {} 2).start exchange).getD
    (machine (some clerk) {} {} 2).start

private theorem asked_underway : underway.asked = [query, insertion, opening, probe] := by
  decide +kernel

private theorem run_exchange :
    (machine (some clerk) {} {} 2).run (machine (some clerk) {} {} 2).start exchange =
      some underway := by
  have hsome : ((machine (some clerk) {} {} 2).run (machine (some clerk) {} {} 2).start
    exchange).isSome = true := by decide +kernel
  obtain ⟨s, hs⟩ := Option.isSome_iff_exists.1 hsome
  rw [underway, hs, Option.getD_some]

private theorem orderly_underway : Orderly (some clerk) underway.asked := by
  rw [asked_underway]
  have hanswers : ∀ m ∈ [query, insertion, opening, probe],
      ∀ a ∈ Service.answer? (some clerk) m.normalized,
        ∀ m' ∈ [query, insertion, opening, probe], m'.id = a.id → m' = m := by
    decide +kernel
  exact ⟨by decide +kernel, hanswers⟩

private theorem acceptable_underway : Acceptable (some clerk) underway.asked := by
  rw [asked_underway]
  have hanswers : ∀ m ∈ [query, insertion, opening, probe],
      ∀ a ∈ Service.answer? (some clerk) m.normalized, a.Readable := by
    decide +kernel
  exact ⟨by decide +kernel, hanswers⟩

private theorem isCalm_exchange : ∀ e ∈ exchange, e.IsCalm (some clerk) underway.asked := by
  have hall : ∀ e ∈ exchange, e.isCalm = true ∧ (e.timedOut? = none ∨ e.timedOut? = some 2) := by
    decide +kernel
  have hsilent : Service.answer? (some clerk) opening.normalized = none := by decide +kernel
  intro e he
  obtain ⟨hcalm, hnone | htwo⟩ := hall e he
  · exact .of_timedOut?_eq_none hcalm hnone
  · refine ⟨hcalm, fun t ht m hm ⟨a, ha⟩ => ?_⟩
    obtain rfl : 2 = t := Option.some.inj (htwo.symm.trans ht)
    rw [asked_underway] at hm
    obtain rfl : opening = m := Option.some.inj hm
    obtain ⟨b, hb, -⟩ := Service.computes_iff.1 ha
    rw [hsilent] at hb
    cases hb

/-- The probe has returned its pong, and the query and the insertion cannot but return theirs. -/
theorem a_probe_overtakes_a_query :
    (∃ n, underway.client.result? 3 = some (.ok ⟨n, .bare (.ofNat 4) .pong⟩)) ∧
    (machine (some clerk) {} {} 2).Inevitable
      (fun e => e.IsCalm (some clerk) underway.asked ∧ e.movesOn = true)
      (fun d => (∃ n, d.client.result? 0 = some (.ok ⟨n, .mk (.ofNat 1) .select [9] (by decide)⟩)) ∧
        ∃ n a, d.client.result? 1 = some (.ok ⟨n, a⟩) ∧
          a.payload = .ok (.failure ⟨.handler, "full"⟩)) underway := by
  obtain ⟨hsafe, hall⟩ := answers_as_if_alone (some clerk) {} {} 2 run_exchange orderly_underway
    isCalm_exchange
  refine ⟨?_, (hall acceptable_underway).mono fun d ⟨hasked, hd⟩ => ?_⟩
  · have hover : (underway.client.result? 3).isSome = true := by decide +kernel
    obtain ⟨result, hresult⟩ := Option.isSome_iff_exists.1 hover
    obtain ⟨r, hr, hres⟩ := Option.bind_eq_some_iff.1 hresult
    have hmessage : r.message = probe :=
      Option.some.inj ((getElem?_asked hr).symm.trans (by rw [asked_underway]; rfl))
    obtain ⟨n, rfl⟩ := hsafe r (List.mem_of_getElem? hr) _ (.pong (by rw [hmessage]; rfl)) result hres
    refine ⟨n, ?_⟩
    rw [hresult, hmessage]
    rfl
  · rw [asked_underway] at hasked
    obtain ⟨r₀, hr₀, hm₀⟩ : ∃ r, d.client.requests[0]? = some r ∧ r.message = query :=
      exists_request (by rw [hasked]; rfl)
    obtain ⟨r₁, hr₁, hm₁⟩ : ∃ r, d.client.requests[1]? = some r ∧ r.message = insertion :=
      exists_request (by rw [hasked]; rfl)
    have hreply : Service.Computes (some clerk) r₀.message.normalized
        (.mk (.ofNat 1) .select [9] (by decide)) :=
      .reply (f := clerk) (a := .mk (.ofNat 1) .select [9] (by decide)) (by rw [hm₀]; decide) rfl
        (by rw [hm₀]; rfl) (by rw [hm₀]; rfl)
    have hfits : (Failure.encode ⟨.handler, "full"⟩).length < bodyLimit := by decide +kernel
    obtain ⟨a, ha⟩ : ∃ a, r₁.message.normalized.replyWith (.failure ⟨.handler, "full"⟩) = .ok a := by
      simp only [Message.replyWith, Message.reply, Message.make]
      exact ⟨_, dif_pos hfits⟩
    obtain ⟨hid, hkind, hreport⟩ := Service.replyWith_failure_eq_ok_iff.1 ha
    have hfailure : Service.Computes (some clerk) r₁.message.normalized a :=
      .failure (f := clerk) (by rw [hm₁]; decide) rfl (by rw [hm₁]; rfl) hid hkind hreport
    obtain ⟨n₀, hn₀⟩ := hd r₀ (List.mem_of_getElem? hr₀) _ hreply
    obtain ⟨n₁, hn₁⟩ := hd r₁ (List.mem_of_getElem? hr₁) a hfailure
    refine ⟨⟨n₀, ?_⟩, n₁, a, ?_, hreport⟩
    · rw [Connection.result?, hr₀, Option.bind_some, hn₀]
    · rw [Connection.result?, hr₁, Option.bind_some, hn₁]

end Conversation

end ClusterLink
