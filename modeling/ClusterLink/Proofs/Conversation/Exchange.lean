import ClusterLink.Proofs.Connection.Course
import ClusterLink.Proofs.Conversation.Delivery
import ClusterLink.Proofs.Server.Answering
/-!
# A client and a server in touch

The client's requests are on their way to the server, with the server's reader or workers, answered,
on their way back or received. What comes back for a request is what the server makes of that request
alone, and it comes back once, so it finds the slot of its request waiting.

Results:
* `Conversation.step_iff`: all that a step of a conversation can do.
* `Conversation.InTouch.step`: every calm step of the client, of the server and of the bytes between
  them keeps all of this.
* `Conversation.inTouch_of_run`: it holds after every calm run.
-/
namespace ClusterLink

/-- Whether a server makes an answer of a request. -/
def Wanted (handler : Option Handler) (m : Message) : Prop :=
  ∃ a, Service.Computes handler m.normalized a

namespace ConversationEvent

/-- A step that closes nothing and fails nowhere. -/
def isCalm : ConversationEvent → Bool
  | client e => e.isCalm
  | service e => e.isCalm
  | _ => true

/-- The request whose time is up. -/
def timedOut? : ConversationEvent → Option Ticket
  | client (.request t .timeOut) => some t
  | _ => none

/-- A calm step in which no time runs out for a request that the server makes an answer of. -/
structure IsCalm (handler : Option Handler) (asked : List Message) (e : ConversationEvent) :
    Prop where
  calm : e.isCalm = true
  patient : ∀ t, e.timedOut? = some t → ∀ m, asked[t]? = some m → ¬ Wanted handler m

theorem IsCalm.of_timedOut?_eq_none {handler : Option Handler} {asked : List Message}
    {e : ConversationEvent} (he : e.isCalm = true) (ht : e.timedOut? = none) :
    e.IsCalm handler asked where
  calm := he
  patient t h := by rw [ht] at h; cases h

end ConversationEvent

namespace Conversation

variable {handler : Option Handler} {all : List Message} {s t : Conversation}
  {e : ConversationEvent} {sent done : List Message} {u : Ticket} {r : Request} {m x : Message}

/-- The messages of the requests, in the order in which they were made. -/
def asked (s : Conversation) : List Message := s.client.requests.map (·.message)

/-- Requests with different ids, whose answers carry the id of no other request. -/
structure Orderly (handler : Option Handler) (asked : List Message) : Prop where
  distinct : (asked.map Message.id).Nodup
  answers : ∀ m ∈ asked, ∀ a, Service.answer? handler m.normalized = some a →
    ∀ m' ∈ asked, m'.id = a.id → m' = m

/-- Requests that a reader accepts, as another accepts their answers. -/
structure Acceptable (handler : Option Handler) (asked : List Message) : Prop where
  requests : ∀ m ∈ asked, m.Readable
  answers : ∀ m ∈ asked, ∀ a, Service.answer? handler m.normalized = some a → a.Readable

/-! ## What a step does -/

/-- All that a step of a conversation can do. -/
inductive Step (handler : Option Handler) (s : Conversation) : ConversationEvent → Conversation → Prop
  | client {e : ConnectionEvent} {c : Connection} (hread : isReading e = false)
      (hc : s.client.step e = some c) :
    Step handler s (.client e) { s with client := c }
  | service {e : ServiceEvent} {v : Service} (hread : isServiceReading e = false)
      (hv : s.service.step handler e = some v) :
    Step handler s (.service e) { s with service := v }
  | arriveAtServer {n : Nat} {toServer : Transit}
      (ht : s.toServer.arrive s.client.wire n = some toServer) :
    Step handler s (.arriveAtServer n) { s with toServer }
  | arriveAtClient {n : Nat} {toClient : Transit}
      (ht : s.toClient.arrive s.service.connection.wire n = some toClient) :
    Step handler s (.arriveAtClient n) { s with toClient }
  | serverReads {m : Message} {toServer : Transit} {v : Service}
      (ht : s.toServer.take? s.client.wire = some (m, toServer))
      (hv : s.service.step handler (.connection (.reader (.arrive m))) = some v) :
    Step handler s .serverReads { s with service := v, toServer }
  | clientReads {m : Message} {toClient : Transit} {c : Connection}
      (ht : s.toClient.take? s.service.connection.wire = some (m, toClient))
      (hc : s.client.step (.reader (.arrive m)) = some c) :
    Step handler s .clientReads { s with client := c, toClient }

theorem step_iff : step handler s e = some t ↔ Step handler s e t := by
  constructor
  · intro h
    cases e with
    | client e =>
      simp only [step] at h
      split at h
      · cases h
      · next hread =>
        obtain ⟨c, hc, rfl⟩ := Option.map_eq_some_iff.1 h
        exact .client (Bool.eq_false_iff.2 hread) hc
    | service e =>
      simp only [step] at h
      split at h
      · cases h
      · next hread =>
        obtain ⟨v, hv, rfl⟩ := Option.map_eq_some_iff.1 h
        exact .service (Bool.eq_false_iff.2 hread) hv
    | arriveAtServer n =>
      obtain ⟨toServer, ht, rfl⟩ := Option.map_eq_some_iff.1 h
      exact .arriveAtServer ht
    | arriveAtClient n =>
      obtain ⟨toClient, ht, rfl⟩ := Option.map_eq_some_iff.1 h
      exact .arriveAtClient ht
    | serverReads =>
      obtain ⟨⟨m, toServer⟩, ht, hstep⟩ := Option.bind_eq_some_iff.1 h
      obtain ⟨v, hv, rfl⟩ := Option.map_eq_some_iff.1 hstep
      exact .serverReads ht hv
    | clientReads =>
      obtain ⟨⟨m, toClient⟩, ht, hstep⟩ := Option.bind_eq_some_iff.1 h
      obtain ⟨c, hc, rfl⟩ := Option.map_eq_some_iff.1 hstep
      exact .clientReads ht hc
  · intro h
    cases h with
    | client hread hc => simp only [step, hread, hc, Bool.false_eq_true, if_false, Option.map_some]
    | service hread hv => simp only [step, hread, hv, Bool.false_eq_true, if_false, Option.map_some]
    | arriveAtServer ht | arriveAtClient ht => simp only [step, ht, Option.map_some]
    | serverReads ht hv => simp only [step, ht, hv, Option.bind_some, Option.map_some]
    | clientReads ht hc => simp only [step, ht, hc, Option.bind_some, Option.map_some]

/-! ## What was asked -/

theorem getElem?_asked (h : s.client.requests[u]? = some r) : s.asked[u]? = some r.message := by
  rw [asked, List.getElem?_map, h]
  rfl

/-- What was asked was asked by a request. -/
theorem exists_request (h : s.asked[u]? = some m) :
    ∃ r, s.client.requests[u]? = some r ∧ r.message = m := by
  rwa [asked, List.getElem?_map, Option.map_eq_some_iff] at h

/-- Requests stay as they are, and only a step that makes one adds to them. -/
theorem asked_of_step (h : step handler s e = some t) :
    s.asked <+: t.asked ∧ ((∀ m, e ≠ .client (.send m)) → t.asked = s.asked) := by
  cases step_iff.1 h with
  | client _ hc =>
    have hb := Connection.step_books hc
    exact ⟨hb.messages_isPrefix, fun he => hb.messages_eq fun m hm => he m (hm ▸ rfl)⟩
  | clientReads _ hc =>
    have hb := Connection.step_books hc
    exact ⟨hb.messages_isPrefix, fun _ => hb.messages_eq fun m hm => by cases hm⟩
  | _ => exact ⟨List.prefix_refl _, fun _ => rfl⟩

/-! ## Both ends -/

/-- Whether both ends are at work, the `sent` messages are on their way to the server or there, and
the answers to those that are `done` are on their way to the client or there. -/
structure InTouch (handler : Option Handler) (all sent done : List Message) (s : Conversation) :
    Prop where
  asked : s.asked <+: all
  asking : s.client.Asking (Wanted handler) sent
  ready : s.service.Ready
  desk : s.service.desk.Sound handler done
  toServer : ∃ front back, sent = front ++ back ∧
    Outgoing.Delivers front back s.client.outgoing s.toServer s.service.connection.history.arrivals
  toClient : ∃ front back, done.filterMap (Service.answer? handler) = front ++ back ∧
    Outgoing.Delivers front back s.service.connection.outgoing s.toClient s.client.history.arrivals

namespace InTouch

theorem distinct (ho : Orderly handler all) (h : InTouch handler all sent done s) :
    s.client.books.Distinct := by
  have hids := ho.distinct.sublist (h.asked.sublist.map Message.id)
  rwa [Conversation.asked, List.map_map] at hids

theorem getElem?_all (h : InTouch handler all sent done s)
    (hr : s.client.requests[u]? = some r) : all[u]? = some r.message := by
  have hmessage := getElem?_asked hr
  obtain ⟨later, hlater⟩ := h.asked
  rw [← hlater, List.getElem?_append_left (List.getElem?_eq_some_iff.1 hmessage).1, hmessage]

theorem mem_all (h : InTouch handler all sent done s) (hr : s.client.requests[u]? = some r) :
    r.message ∈ all :=
  List.mem_of_getElem? (h.getElem?_all hr)

theorem mem_asked_of_sent (h : InTouch handler all sent done s) (hm : m ∈ sent) :
    m ∈ s.asked := by
  obtain ⟨u, r, hr, rfl, -⟩ := h.asking.posted.origin m hm
  exact List.mem_of_getElem? (getElem?_asked hr)

theorem isServing_client (h : InTouch handler all sent done s) :
    s.client.writer.isServing = true := by
  obtain ⟨front, back, -, hd⟩ := h.toServer
  exact hd.sound.writer.isServing

theorem isServing_service (h : InTouch handler all sent done s) :
    s.service.connection.writer.isServing = true := by
  obtain ⟨front, back, -, hd⟩ := h.toClient
  exact hd.sound.writer.isServing

/-- Frames that are done came in, and those that came in were sent. -/
theorem sent_of_done (h : InTouch handler all sent done s) (hm : m ∈ done) :
    ∃ z ∈ sent, m = z.normalized := by
  have harr : m ∈ s.service.connection.history.arrivals :=
    h.desk.placed.mem_iff.1 (List.mem_append_right _ (List.mem_append_right _ hm))
  obtain ⟨front, back, rfl, hd⟩ := h.toServer
  rw [hd.read] at harr
  obtain ⟨z, hz, rfl⟩ := List.mem_map.1 harr
  exact ⟨z, List.mem_append_left _ hz, rfl⟩

/-- An answer is what the server makes of a request that was sent. -/
theorem sent_of_answer (h : InTouch handler all sent done s)
    (hx : x ∈ done.filterMap (Service.answer? handler)) :
    ∃ z ∈ sent, Service.answer? handler z.normalized = some x := by
  obtain ⟨m, hm, hx⟩ := List.mem_filterMap.1 hx
  obtain ⟨z, hz, rfl⟩ := h.sent_of_done hm
  exact ⟨z, hz, hx⟩

/-- A frame at the client is what the server made of a request that was sent. -/
theorem sent_of_arrival (h : InTouch handler all sent done s)
    (hm : m ∈ s.client.history.arrivals) :
    ∃ z ∈ sent, ∃ x, Service.answer? handler z.normalized = some x ∧ m = x.normalized := by
  obtain ⟨front, back, hsplit, hd⟩ := h.toClient
  rw [hd.read] at hm
  obtain ⟨x, hx, rfl⟩ := List.mem_map.1 hm
  obtain ⟨z, hz, hanswer⟩ := h.sent_of_answer (hsplit ▸ List.mem_append_left _ hx)
  exact ⟨z, hz, x, hanswer, rfl⟩

theorem readable_sent (ha : Acceptable handler all) (h : InTouch handler all sent done s)
    (hm : m ∈ sent) : m.Readable :=
  ha.requests m (h.asked.subset (h.mem_asked_of_sent hm))

theorem readable_answers (ha : Acceptable handler all) (h : InTouch handler all sent done s)
    (hx : x ∈ done.filterMap (Service.answer? handler)) : x.Readable := by
  obtain ⟨z, hz, hanswer⟩ := h.sent_of_answer hx
  exact ha.answers z (h.asked.subset (h.mem_asked_of_sent hz)) x hanswer

/-- A request is answered once. -/
theorem answered_once (ho : Orderly handler all) (h : InTouch handler all sent done s)
    (hm : m ∈ all) :
    (done.filterMap (Service.answer? handler)).countP (fun x => x.id = m.id) ≤ 1 := by
  obtain ⟨front, back, hsplit, hd⟩ := h.toServer
  -- Whether a message is answered under the id.
  let hits (y : Message) : Bool :=
    ((Service.answer? handler y).map fun x => decide (x.id = m.id)).getD false
  have hdone : done.countP hits ≤ s.service.connection.history.arrivals.countP hits := by
    have hplaced := h.desk.placed.countP_eq hits
    rw [List.countP_append, List.countP_append] at hplaced
    exact hplaced ▸ Nat.le_trans (Nat.le_add_left ..) (Nat.le_add_left ..)
  have hsent : s.service.connection.history.arrivals.countP hits ≤
      sent.countP (hits ∘ Message.normalized) := by
    rw [hd.read, List.countP_map, hsplit, List.countP_append]
    exact Nat.le_add_right ..
  have hone : sent.countP (hits ∘ Message.normalized) ≤ sent.count m := by
    refine List.countP_mono_left fun z hz hhit => ?_
    cases hanswer : Service.answer? handler z.normalized with
    | none => simp [hits, hanswer] at hhit
    | some x =>
      have hid : m.id = x.id := by simpa [hits, hanswer, eq_comm] using hhit
      have hall := h.asked.subset (h.mem_asked_of_sent hz)
      rw [ho.answers z hall x hanswer m hm hid]
      exact beq_self_eq_true _
  have hnodup : sent.count m ≤ 1 :=
    List.nodup_iff_count_le_one.1 (List.Nodup.of_map _ h.asking.posted.distinct) m
  rw [List.countP_filterMap]
  exact Nat.le_trans hdone (Nat.le_trans hsent (Nat.le_trans hone hnodup))

/-- The next frame to come in at the client is the first one for its request. -/
theorem expects (ho : Orderly handler all) (h : InTouch handler all sent done s)
    {front later : List Message}
    (hsplit : done.filterMap (Service.answer? handler) = front ++ x :: later)
    (hread : s.client.history.arrivals = front.map Message.normalized) :
    s.client.books.Expects (Wanted handler) x.normalized := by
  intro u r hr hw hid
  obtain ⟨z, hz, hanswer⟩ := h.sent_of_answer (x := x)
    (hsplit ▸ List.mem_append_right _ (List.mem_cons_self ..))
  have hall := h.asked.subset (h.mem_asked_of_sent hz)
  obtain rfl := ho.answers z hall x hanswer r.message (h.mem_all hr) hid.symm
  obtain ⟨u', r', hr', hmessage, hsent⟩ := h.asking.posted.origin _ hz
  obtain rfl := (h.distinct ho).eq hr hr' (congrArg Message.id hmessage.symm)
  cases hr.symm.trans hr'
  refine ⟨hsent, fun m' hm' hid' => ?_⟩
  change m' ∈ s.client.history.arrivals at hm'
  rw [hread] at hm'
  obtain ⟨x', hx', rfl⟩ := List.mem_map.1 hm'
  have hsame : x.id = r.message.id := hid
  have hsame' : x'.id = r.message.id := hid'.trans hid
  have honce := h.answered_once ho hall
  rw [hsplit, List.countP_append] at honce
  have hfront : 0 < front.countP fun x => x.id = r.message.id :=
    List.countP_pos_iff.2 ⟨x', hx', decide_eq_true hsame'⟩
  have hnext : 0 < (x :: later).countP fun x => x.id = r.message.id :=
    List.countP_pos_iff.2 ⟨x, List.mem_cons_self .., decide_eq_true hsame⟩
  omega

/-! ## Steps -/

theorem client {e : ConnectionEvent} {c : Connection} (ho : Orderly handler all)
    (h : InTouch handler all sent done s) (hs : s.client.step e = some c)
    (he : (ConversationEvent.client e).IsCalm handler all) (hread : isReading e = false)
    (hasked : Conversation.asked { s with client := c } <+: all) :
    ∃ sent', InTouch handler all sent' done { s with client := c } := by
  have harrivals : c.history.arrivals = s.client.history.arrivals := by
    rcases (Connection.step_books hs).arrivals_cases with heq | ⟨m, rfl, -⟩
    · exact heq
    · cases hread
  -- A request that is made now has none of the ids that came in.
  have hsend : ∀ m, e = .send m → ∀ m' ∈ s.client.history.arrivals, m'.id ≠ m.id := by
    rintro m rfl m' hm' hid
    cases hs
    obtain ⟨z, hz, x, hanswer, rfl⟩ := h.sent_of_arrival hm'
    have hz := h.mem_asked_of_sent hz
    have hnew : Conversation.asked { s with client := s.client.send m } = s.asked ++ [m] := by
      simp only [Conversation.asked, Connection.send, List.map_append, List.map_cons, List.map_nil]
    rw [hnew] at hasked
    have hm : m ∈ all := hasked.subset (List.mem_append_right _ (List.mem_singleton_self m))
    obtain rfl := ho.answers z (h.asked.subset hz) x hanswer m hm hid.symm
    have hids := ho.distinct.sublist (hasked.sublist.map Message.id)
    rw [List.map_append, List.nodup_append] at hids
    exact hids.2.2 m.id (List.mem_map_of_mem hz) m.id (List.mem_singleton_self _) rfl
  have htime : ∀ (u : Ticket) r, e = .request u .timeOut → s.client.requests[u]? = some r →
      ¬ Wanted handler r.message := by
    rintro u r rfl hr
    exact he.patient u rfl r.message (h.getElem?_all hr)
  obtain ⟨more, hasking, hadv⟩ := h.asking.step (h.distinct ho) h.isServing_client hs he.calm hsend
    htime (fun m hm => by rw [hm] at hread; cases hread)
  obtain ⟨front, back, rfl, hd⟩ := h.toServer
  refine ⟨_, hasked, hasking, h.ready, h.desk, ⟨front, back ++ more, ?_, hd.advance hadv⟩, ?_⟩
  · rw [List.append_assoc]
  · obtain ⟨front, back, hsplit, hd⟩ := h.toClient
    exact ⟨front, back, hsplit, harrivals ▸ hd⟩

/-- The server's side of a calm step: more frames are done, and their answers are on their way. -/
theorem turn {e : ServiceEvent} {v : Service} (h : InTouch handler all sent done s)
    (hs : s.service.step handler e = some v) (he : e.isCalm = true) :
    v.Ready ∧ v.connection.history.arrivals = s.service.connection.history.arrivals ++ e.taken ∧
      ∃ done', v.desk.Sound handler done' ∧
        ∃ front back, done'.filterMap (Service.answer? handler) = front ++ back ∧
          Outgoing.Delivers front back v.connection.outgoing s.toClient
            s.client.history.arrivals := by
  obtain ⟨hready, hturn⟩ := Service.step_desk h.ready h.isServing_service hs he
  obtain ⟨hsound, hadv⟩ := h.desk.turn hturn
  obtain ⟨front, back, hsplit, hd⟩ := h.toClient
  refine ⟨hready, hturn.arrivals_eq, _, hsound, front,
    back ++ (s.service.desk.settled e).filterMap (Service.answer? handler), ?_, hd.advance hadv⟩
  rw [List.filterMap_append, hsplit, List.append_assoc]

theorem service {e : ServiceEvent} {v : Service} (h : InTouch handler all sent done s)
    (hs : s.service.step handler e = some v) (he : e.isCalm = true)
    (hread : isServiceReading e = false) :
    ∃ done', InTouch handler all sent done' { s with service := v } := by
  obtain ⟨hready, harrivals, done', hsound, hclient⟩ := h.turn hs he
  have htaken : e.taken = [] := by
    cases e with
    | connection e =>
      cases e with
      | reader e =>
        cases e with
        | arrive m => cases hread
        | _ => rfl
      | _ => rfl
    | _ => rfl
  rw [htaken, List.append_nil] at harrivals
  obtain ⟨front, back, hsplit, hd⟩ := h.toServer
  exact ⟨done', h.asked, h.asking, hready, hsound, ⟨front, back, hsplit, harrivals ▸ hd⟩, hclient⟩

/-- The server takes a frame off its socket. -/
theorem serverReads {v : Service} {toServer : Transit} (h : InTouch handler all sent done s)
    (ht : s.toServer.take? s.client.wire = some (m, toServer))
    (hs : s.service.step handler (.connection (.reader (.arrive m))) = some v) :
    ∃ done', InTouch handler all sent done' { s with service := v, toServer } := by
  obtain ⟨hready, harrivals, done', hsound, hclient⟩ := h.turn hs rfl
  obtain ⟨front, back, rfl, hd⟩ := h.toServer
  obtain ⟨x, later, rfl, -, hd', -⟩ := hd.take ht
  exact ⟨done', h.asked, h.asking, hready, hsound,
    ⟨front ++ [x], later, List.append_cons .., harrivals ▸ hd'⟩, hclient⟩

/-- The client takes a frame off its socket. -/
theorem clientReads {c : Connection} {toClient : Transit} (ho : Orderly handler all)
    (h : InTouch handler all sent done s)
    (ht : s.toClient.take? s.service.connection.wire = some (m, toClient))
    (hs : s.client.step (.reader (.arrive m)) = some c)
    (hasked : Conversation.asked { s with client := c, toClient } <+: all) :
    ∃ sent', InTouch handler all sent' done { s with client := c, toClient } := by
  obtain ⟨front, back, hsplit, hd⟩ := h.toClient
  obtain ⟨x, later, rfl, rfl, hd', -⟩ := hd.take ht
  have hexpects := h.expects ho hsplit hd.read
  obtain ⟨more, hasking, hadv⟩ := h.asking.step (h.distinct ho) h.isServing_client hs rfl
    (fun m hm => by cases hm) (fun u r hm => by cases hm) (fun m hm => by cases hm; exact hexpects)
  obtain ⟨-, rfl⟩ := Connection.eq_of_arrive hs
  obtain ⟨front', back', rfl, hd''⟩ := h.toServer
  exact ⟨_, hasked, hasking, h.ready, h.desk,
    ⟨front', back' ++ more, List.append_assoc .., hd''.advance hadv⟩,
    front ++ [x], later, hsplit.trans (List.append_cons ..), hd'⟩

/-- **What every calm step keeps**, as long as the requests are orderly. -/
theorem step (ho : Orderly handler all) (h : InTouch handler all sent done s)
    (hs : step handler s e = some t) (he : e.IsCalm handler all) (hasked : t.asked <+: all) :
    ∃ sent' done', InTouch handler all sent' done' t := by
  cases step_iff.1 hs with
  | client hread hc =>
    obtain ⟨sent', h'⟩ := h.client ho hc he hread hasked
    exact ⟨sent', done, h'⟩
  | service hread hv =>
    obtain ⟨done', h'⟩ := h.service hv he.calm hread
    exact ⟨sent, done', h'⟩
  | arriveAtServer ht =>
    obtain ⟨front, back, hsplit, hd⟩ := h.toServer
    exact ⟨sent, done, { h with toServer := ⟨front, back, hsplit, hd.arrive ht⟩ }⟩
  | arriveAtClient ht =>
    obtain ⟨front, back, hsplit, hd⟩ := h.toClient
    exact ⟨sent, done, { h with toClient := ⟨front, back, hsplit, hd.arrive ht⟩ }⟩
  | serverReads ht hv =>
    obtain ⟨done', h'⟩ := h.serverReads ht hv
    exact ⟨sent, done', h'⟩
  | clientReads ht hc =>
    obtain ⟨sent', h'⟩ := h.clientReads ho ht hc hasked
    exact ⟨sent', done, h'⟩

end InTouch

/-- At the start both ends are in touch, and nothing was asked. -/
theorem inTouch_start (handler : Option Handler) (all : List Message)
    (client server : ConnectionOptions) (workers : Nat) :
    InTouch handler all [] [] (machine handler client server workers).start where
  asked := List.nil_prefix
  asking := Connection.asking_new client (Wanted handler)
  ready := Service.ready_new server workers
  desk := Service.sound_new server workers
  toServer := ⟨[], [], rfl, ⟨trivial, rfl⟩, rfl, rfl, rfl, Nat.le_refl _, Nat.le_refl _⟩
  toClient := ⟨[], [], rfl, ⟨trivial, rfl⟩, rfl, rfl, rfl, Nat.le_refl _, Nat.le_refl _⟩

/-- **What holds after every calm run** of orderly requests. -/
theorem inTouch_of_run {client server : ConnectionOptions} {workers : Nat}
    {events : List ConversationEvent} (ho : Orderly handler all)
    (hrun : (machine handler client server workers).run
      (machine handler client server workers).start events = some s)
    (hcalm : ∀ e ∈ events, e.IsCalm handler all) (hasked : s.asked <+: all) :
    ∃ sent done, InTouch handler all sent done s := by
  refine @Machine.run_induction _ _ (machine handler client server workers)
    (fun events s => (∀ e ∈ events, e.IsCalm handler all) → s.asked <+: all →
      ∃ sent done, InTouch handler all sent done s) _ _
    (fun _ _ => ⟨[], [], inTouch_start handler all client server workers⟩)
    (fun events u e v _ ih hs hcalm hasked => ?_) _ hrun hcalm hasked
  obtain ⟨sent, done, h⟩ := ih (fun e he => hcalm e (List.mem_append_left _ he))
    ((asked_of_step hs).1.trans hasked)
  exact h.step ho hs (hcalm e (List.mem_append_right _ (List.mem_singleton_self e))) hasked

end Conversation

end ClusterLink
