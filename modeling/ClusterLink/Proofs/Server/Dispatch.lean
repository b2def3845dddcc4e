import ClusterLink.Proofs.Machine.Inevitable
import ClusterLink.Proofs.Server.Answering
import Mathlib.Data.List.Forall2
import Mathlib.Data.List.ReduceOption
/-!
# What becomes of each frame

A frame that comes in while a connection is served is either a ping, which the reader answers, or
given to the handler by a worker. What is queued for it depends on nothing else, and nothing else is
queued, whatever the workers do for other connections in between.

A handler may do something else each time it is asked, so a run here says of each step what the
handler does in case the step asks it. A `Watched` service keeps what became of the frames.

Results:
* `Watched.Sound.step`: a calm step deals with at most one frame, and queues what this one calls for.
* `Watched.sound_of_run`: where the frames are and what is queued after any calm run.
* `Watched.Sound.settled`: where no step can go on, all frames have been dealt with.
* `Watched.deals_with_every_frame_once`: both, for every connection, pool and handler.
* `Watched.run_of_handler`: the runs of a service with one and the same handler are among these.
-/
namespace ClusterLink

/-- Whether a frame is one that the reader answers itself. -/
def Message.isPing (m : Message) : Bool := m.kind == .ping

/-- What became of a frame: it was answered as a ping, or the handler was asked and did something. -/
inductive Dealt where
  | ping (frame : Message)
  | asked (frame : Message) (outcome : HandlerOutcome)
  deriving DecidableEq, Repr

namespace Dealt

variable {d : Dealt} {l : List Dealt}

def frame : Dealt → Message
  | ping m => m
  | asked m _ => m

/-- The frame that was answered as a ping. -/
def ping? : Dealt → Option Message
  | ping m => some m
  | asked .. => none

/-- The frame that the handler was given. -/
def request? : Dealt → Option Message
  | ping _ => none
  | asked m _ => some m

/-- What is written for the frame. -/
def answer? : Dealt → Option Message
  | ping m => some m.pong
  | asked m outcome => (outcome.conclude m).toOption.join

/-- What has to be written for a frame, if anything: the pong of a ping, what the handler replied, or
an error that tells what the handler failed with. A job that is given up writes nothing; one way of
being given up is a text so long that no frame can hold the error. -/
inductive Calls : Dealt → Option Message → Prop
  | pong (m : Message) : Calls (.ping m) (some (.bare m.id .pong))
  | reply (m a : Message) : Calls (.asked m (.reply a)) (some a)
  | silent (m : Message) : Calls (.asked m .silent) none
  | panicked (m : Message) (cause : Panic) : Calls (.asked m (.panicked cause)) none
  | failed {m a : Message} {text : String} (hid : a.id = m.id) (hkind : a.kind = .error)
      (hreport : a.payload = .ok (.failure ⟨.handler, text⟩)) :
    Calls (.asked m (.failed text)) (some a)
  | oversized {m : Message} {text : String}
      (h : bodyLimit ≤ (Failure.encode ⟨.handler, text⟩).length) :
    Calls (.asked m (.failed text)) none

theorem calls_answer? (d : Dealt) : d.Calls d.answer? := by
  cases d with
  | ping m => exact .pong m
  | asked m outcome =>
    cases outcome with
    | reply a => exact .reply m a
    | silent => exact .silent m
    | panicked cause => exact .panicked m cause
    | failed text =>
      rw [answer?, HandlerOutcome.conclude]
      cases hr : m.replyWith (.failure ⟨.handler, text⟩) with
      | ok a =>
        obtain ⟨hid, hkind, hreport⟩ := Service.replyWith_failure_eq_ok_iff.1 hr
        exact .failed hid hkind hreport
      | error e =>
        refine .oversized (Nat.le_of_not_lt fun hfits => ?_)
        simp only [Message.replyWith, Message.reply, Message.make] at hr
        rw [dif_pos (by exact hfits)] at hr
        cases hr

/-- Whether pings were answered by the reader and all else was given to the handler. -/
def IsSorted : Dealt → Prop
  | ping m => m.isPing = true
  | asked m _ => m.isPing = false

theorem filterMap_ping? (h : ∀ d ∈ l, d.IsSorted) :
    l.filterMap ping? = (l.map frame).filter Message.isPing := by
  rw [← List.filterMap_eq_filter, List.filterMap_map]
  refine List.filterMap_congr fun d hd => ?_
  have hsorted := h d hd
  cases d with
  | ping m => exact (Option.guard_eq_some_iff.2 ⟨rfl, hsorted⟩).symm
  | asked m o => exact (Option.guard_eq_none_iff.2 hsorted).symm

theorem filterMap_request? (h : ∀ d ∈ l, d.IsSorted) :
    l.filterMap request? = (l.map frame).filter (!·.isPing) := by
  rw [← List.filterMap_eq_filter, List.filterMap_map]
  refine List.filterMap_congr fun d hd => ?_
  have hsorted := h d hd
  cases d with
  | ping m =>
    have hnot : (!m.isPing) = false := congrArg not hsorted
    exact (Option.guard_eq_none_iff (p := fun m : Message => !m.isPing).2 hnot).symm
  | asked m o =>
    have hnot : (!m.isPing) = true := congrArg not hsorted
    exact (Option.guard_eq_some_iff (p := fun m : Message => !m.isPing).2 ⟨rfl, hnot⟩).symm

end Dealt

/-- Whether a step is a calm one that takes no frame off a socket, here or on another connection, and
is no mere interruption. -/
def ServiceEvent.goesOn : ServiceEvent → Bool
  | connection (.reader (.arrive _)) | connection (.writer .interrupted) | submitForeign => false
  | e => e.isCalm

/-- What a step of a service does with a frame, if the handler does `outcome`. -/
def Service.deals (v : Service) (outcome : HandlerOutcome) : ServiceEvent → List Dealt
  | .answerPing => v.connection.reader.held.map .ping
  | .handle w => ((v.job? w).bind PoolJob.frame?).toList.map (.asked · outcome)
  | .connection _ | .submit | .ignore | .take _ | .submitForeign | .endForeign .. => []

/-- A service and what became of the frames, in the order in which they were dealt with. -/
structure Watched where
  service : Service
  dealt : List Dealt := []

namespace Watched

/-- A step, and what the handler does if the step asks it. -/
def step (s : Watched) (e : HandlerOutcome × ServiceEvent) : Option Watched :=
  (s.service.step (some fun _ => e.1) e.2).map fun v =>
    ⟨v, s.dealt ++ s.service.deals e.1 e.2⟩

/-- All interleavings of reading, handling and writing, whatever the handler does. -/
def machine (options : ConnectionOptions) (workers : Nat) :
    Machine Watched (HandlerOutcome × ServiceEvent) where
  start := ⟨.new options workers, []⟩
  step := step

variable {s t : Watched} {e : HandlerOutcome × ServiceEvent}
  {events : List (HandlerOutcome × ServiceEvent)}

/-- The frames that came in. -/
def arrivals (s : Watched) : List Message := s.service.connection.history.arrivals

/-- The frame in the reader's hand. -/
def held (s : Watched) : List Message := s.service.connection.reader.held

/-- The frames that were made jobs and are not dealt with. -/
def jobs (s : Watched) : List Message := s.service.pool.unfinished.filterMap (·.job.frame?)

/-- Whether what was queued is, one frame after the other, what those dealt with call for. -/
def QueuesWhatIsCalledFor (s : Watched) : Prop :=
  ∃ answers, List.Forall₂ Dealt.Calls s.dealt answers ∧
    s.service.connection.history.queued = answers.reduceOption.map Message.encode

/-- Where the frames are, and what was queued. -/
structure Sound (s : Watched) : Prop where
  ready : s.service.Ready
  out : s.service.connection.outgoing.Sound
  desk : ∀ f, s.service.desk.Sound (some f) (s.dealt.map Dealt.frame)
  sorted : ∀ d ∈ s.dealt, d.IsSorted
  /-- Pings are answered in the order in which they came in. -/
  pings : s.dealt.filterMap Dealt.ping? ++ s.held.filter Message.isPing =
    s.arrivals.filter Message.isPing
  queued : s.service.connection.history.queued =
    (s.dealt.filterMap Dealt.answer?).map Message.encode

theorem sound_start (options : ConnectionOptions) (workers : Nat) :
    (machine options workers).start.Sound where
  ready := Service.ready_new options workers
  out := ⟨trivial, rfl⟩
  desk _ := Service.sound_new options workers
  sorted _ hd := by cases hd
  pings := rfl
  queued := rfl

/-! ## What a step does -/

theorem isPing_iff {m : Message} : m.isPing = true ↔ m.kind = .ping := beq_iff_eq

theorem isPing_eq_false_iff {m : Message} : m.isPing = false ↔ m.kind ≠ .ping := by
  rw [← Bool.not_eq_true, isPing_iff]

variable {v : Service} {d : Desk} {outcome : HandlerOutcome} {x : ServiceEvent}
  {done : List Message}

/-- A step deals with the frame that it settles, in the right way, and writes its answer. -/
theorem deals_turn (h : v.desk.Sound (some fun _ => outcome) done)
    (ht : v.desk.Turn (some fun _ => outcome) x d) :
    (v.deals outcome x).map Dealt.frame = v.desk.settled x ∧
      (∀ d ∈ v.deals outcome x, d.IsSorted) ∧
      (v.deals outcome x).filterMap Dealt.answer? =
        (v.desk.settled x).filterMap (Service.answer? (some fun _ => outcome)) := by
  cases ht with
  | @answer _ a hr he =>
    obtain ⟨hk, rfl⟩ | ⟨hf, -⟩ := he
    · have hdeals : v.deals outcome .answerPing = [.ping a.message] := by
        rw [Service.deals, show v.connection.reader = .calling a from hr]
        rfl
      have hsettled : v.desk.settled .answerPing = [a.message] := by
        rw [Desk.settled, hr]
        rfl
      rw [hdeals, hsettled, Desk.filterMap_answer?, Service.answer?, if_pos hk]
      refine ⟨rfl, fun d hd => ?_, rfl⟩
      rw [List.mem_singleton.1 hd]
      exact isPing_iff.2 hk
    · cases hf
  | @handle w n m f panic pool hw hf hp =>
    have hk := (h.jobs m (Desk.mem_jobs_of_running hw)).1
    have hdeals : v.deals outcome (.handle w) = [.asked m outcome] := by
      rw [Service.deals, Service.job?, show v.pool.workers[w]? = some (.running ⟨n, .own m⟩) from hw]
      rfl
    have hsettled : v.desk.settled (.handle w) = [m] := by
      rw [Desk.settled, hw]
      rfl
    rw [hdeals, hsettled, Desk.filterMap_answer?, Service.answer?, if_neg hk]
    refine ⟨rfl, fun d hd => ?_, ?_⟩
    · rw [List.mem_singleton.1 hd]
      exact isPing_eq_false_iff.2 hk
    · rw [List.filterMap_cons, List.filterMap_nil]
      cases hanswer : (Dealt.asked m outcome).answer? <;>
        exact congrArg Option.toList hanswer.symm
  | _ => exact ⟨rfl, fun d hd => by (cases hd), rfl⟩

/-- A ping that was taken off the socket is in the reader's hand until it is answered. -/
theorem pings_turn {d d' : Desk} {f : Handler} (h : d.Sound (some f) done)
    (ht : d.Turn (some f) x d') :
    (d.settled x).filter Message.isPing ++ d'.reader.held.filter Message.isPing =
      d.reader.held.filter Message.isPing ++ x.taken.filter Message.isPing := by
  cases ht with
  | arrive hr => rw [hr]; rfl
  | look hr => rw [hr]; exact (List.append_nil _).symm
  | @answer _ a hr he =>
    obtain ⟨-, rfl⟩ | ⟨hf, -⟩ := he
    · rfl
    · cases hf
  | @submit a pool hr hk hf hp =>
    have hnot : [a.message].filter Message.isPing = [] :=
      List.filter_cons_of_neg (mt isPing_iff.1 hk)
    rw [hr]
    exact (congrArg (· ++ []) hnot).symm
  | @handle w n m f panic pool hw hf hp =>
    have hk := (h.jobs m (Desk.mem_jobs_of_running hw)).1
    have hnot : (d.settled (.handle w)).filter Message.isPing = [] := by
      rw [Desk.settled, hw]
      exact List.filter_cons_of_neg (mt isPing_iff.1 hk)
    rw [hnot]
    exact (List.append_nil _).symm
  | _ => exact (List.append_nil _).symm

/-- A calm step keeps the frames together, and queues what the one it deals with calls for. -/
theorem Sound.step (h : s.Sound) (hs : s.step e = some t) (he : e.2.isCalm = true) : t.Sound := by
  obtain ⟨v, hv, rfl⟩ := Option.map_eq_some_iff.1 hs
  obtain ⟨hready, hturn⟩ := Service.step_desk h.ready h.out.writer.isServing hv he
  have hdesk := h.desk fun _ => e.1
  obtain ⟨hsound, hadv⟩ := hdesk.turn hturn
  obtain ⟨hframes, hsorted, hanswers⟩ := deals_turn hdesk hturn
  have hdealt : (s.dealt ++ s.service.deals e.1 e.2).map Dealt.frame =
      s.dealt.map Dealt.frame ++ s.service.desk.settled e.2 := by
    rw [List.map_append, hframes]
  refine ⟨hready, hadv.sound h.out, fun f => ?_, fun d hd => ?_, ?_, ?_⟩
  · rw [hdealt]
    exact ⟨hsound.reader, fun j hj => ⟨(hsound.jobs j hj).1, Option.some_ne_none f⟩, hsound.placed⟩
  · exact (List.mem_append.1 hd).elim (h.sorted d) (hsorted d)
  · have hpings := pings_turn hdesk hturn
    have harrivals : v.connection.history.arrivals = s.arrivals ++ e.2.taken := hturn.arrivals_eq
    calc (s.dealt ++ s.service.deals e.1 e.2).filterMap Dealt.ping? ++
          v.connection.reader.held.filter Message.isPing
        = s.dealt.filterMap Dealt.ping? ++ ((s.service.desk.settled e.2).filter Message.isPing ++
            v.connection.reader.held.filter Message.isPing) := by
          rw [List.filterMap_append, List.append_assoc, Dealt.filterMap_ping? hsorted, hframes]
      _ = s.dealt.filterMap Dealt.ping? ++ (s.held.filter Message.isPing ++
            e.2.taken.filter Message.isPing) := congrArg _ hpings
      _ = v.connection.history.arrivals.filter Message.isPing := by
          rw [← List.append_assoc, h.pings, harrivals, List.filter_append]
  · rw [List.filterMap_append, hanswers, List.map_append, ← h.queued]
    exact hadv.queued_eq

variable {options : ConnectionOptions} {workers : Nat}

/-- The frames that the steps of a run take off the socket. -/
def taken (events : List (HandlerOutcome × ServiceEvent)) : List Message :=
  events.flatMap fun e => e.2.taken

theorem arrivals_of_step (h : s.Sound) (hs : s.step e = some t) (he : e.2.isCalm = true) :
    t.arrivals = s.arrivals ++ e.2.taken := by
  obtain ⟨v, hv, rfl⟩ := Option.map_eq_some_iff.1 hs
  exact (Service.step_desk h.ready h.out.writer.isServing hv he).2.arrivals_eq

theorem sound_of_run
    (hrun : (machine options workers).run (machine options workers).start events = some s)
    (hcalm : ∀ e ∈ events, e.2.isCalm = true) : s.Sound ∧ s.arrivals = taken events := by
  refine @Machine.run_induction _ _ (machine options workers)
    (fun events s => (∀ e ∈ events, e.2.isCalm = true) → s.Sound ∧ s.arrivals = taken events) _ _
    (fun _ => ⟨sound_start options workers, rfl⟩) (fun events u e v _ ih hs hcalm => ?_) _ hrun hcalm
  obtain ⟨hsound, harrivals⟩ := ih fun e he => hcalm e (List.mem_append_left _ he)
  have he := hcalm e (List.mem_append_right _ (List.mem_singleton_self e))
  refine ⟨hsound.step hs he, ?_⟩
  rw [arrivals_of_step hsound hs he, harrivals, taken, taken, List.flatMap_append,
    List.flatMap_singleton]

/-- What the handler was given, what waits for it and what is on its way there are the frames that
came in and are no pings. -/
theorem Sound.requests (h : s.Sound) :
    (s.dealt.filterMap Dealt.request? ++ (s.jobs ++ s.held.filter (!·.isPing))).Perm
      (s.arrivals.filter (!·.isPing)) := by
  have hdesk := h.desk fun _ => .silent
  have hjobs : s.jobs.filter (!·.isPing) = s.jobs := by
    refine List.filter_eq_self.2 fun m hm => ?_
    exact congrArg not (isPing_eq_false_iff.2 (hdesk.jobs m hm).1)
  have hplaced := hdesk.placed.filter (!·.isPing)
  rw [List.filter_append, List.filter_append, ← Dealt.filterMap_request? h.sorted] at hplaced
  rw [← List.append_assoc]
  refine List.perm_append_comm.trans ?_
  have hperm : (s.held.filter (!·.isPing) ++ (s.jobs.filter (!·.isPing) ++
    s.dealt.filterMap Dealt.request?)).Perm (s.arrivals.filter (!·.isPing)) := hplaced
  rw [hjobs] at hperm
  exact (List.Perm.append_left _ List.perm_append_comm).trans hperm

theorem Sound.queuesWhatIsCalledFor (h : s.Sound) : s.QueuesWhatIsCalledFor := by
  refine ⟨s.dealt.map Dealt.answer?, ?_, ?_⟩
  · rw [List.forall₂_map_right_iff]
    exact List.forall₂_same.2 fun d _ => d.calls_answer?
  · rw [h.queued, List.reduceOption, List.filterMap_map]
    rfl

/-! ## When no more frames come in -/

theorem isCalm_of_goesOn (h : x.goesOn = true) : x.isCalm = true := by
  unfold ServiceEvent.goesOn at h
  split at h
  · cases h
  · cases h
  · cases h
  · exact h

theorem taken_of_goesOn (h : x.goesOn = true) : x.taken = [] := by
  unfold ServiceEvent.goesOn at h
  split at h
  · cases h
  · cases h
  · cases h
  · next harrive _ _ =>
    unfold ServiceEvent.taken
    split
    · exact absurd rfl (harrive _)
    · rfl

theorem goesOn_of_isWork (h : x.isWork = true) : x.goesOn = true := by
  unfold ServiceEvent.isWork at h
  split at h
  case h_8 => cases h
  all_goals rfl

/-- What is left to do: for the reader, for the workers and for the writer, in this order. -/
def ranks : List (Watched → Nat) :=
  [fun s => s.service.connection.reader.ahead, fun s => s.service.pool.workload,
    fun s => s.service.connection.outgoing.backlog]

theorem lowers (h : s.Sound) (hs : s.step e = some t) (he : e.2.goesOn = true) :
    Machine.Lowers ranks t s := by
  obtain ⟨v, hv, rfl⟩ := Option.map_eq_some_iff.1 hs
  have hturn := (Service.step_desk h.ready h.out.writer.isServing hv (isCalm_of_goesOn he)).2
  have hwriter : e.2 ≠ .connection (.writer .interrupted) := fun heq => by rw [heq] at he; cases he
  have hreader : ∀ m, e.2 ≠ .connection (.reader (.arrive m)) := fun m heq => by
    rw [heq] at he; cases he
  have hforeign : e.2 ≠ .submitForeign := fun heq => by rw [heq] at he; cases he
  rcases hturn.lowers hwriter hreader hforeign with hlt | ⟨hr, hlt | ⟨hp, hlt⟩⟩
  · exact .head hlt
  · exact .cons (congrArg Reader.ahead hr) (.head hlt)
  · exact .cons (congrArg Reader.ahead hr) (.cons (congrArg WorkerPool.workload hp) (.head hlt))

/-- A service that cannot go on has dealt with every frame. -/
theorem Sound.settled (h : s.Sound) (hstuck : ∀ e, e.2.goesOn = true → s.step e = none) :
    s.held = [] ∧ s.jobs = [] := by
  have hstop : ∀ f x, x.goesOn = true → s.service.step (some fun _ => f) x = none :=
    fun f x hx => Option.map_eq_none_iff.1 (hstuck (f, x) hx)
  have hidle : s.service.connection.writer = .idle ∧ s.service.connection.queue = [] := by
    by_contra hwork
    obtain ⟨e, c, he, hne, hs⟩ := Connection.exists_writer_step h.out.writer
      (not_and_or.1 hwork)
    have hgoes : (ServiceEvent.connection (.writer e)).goesOn = true := by
      cases e with
      | interrupted => exact absurd rfl hne
      | _ => exact he
    have hstep : s.service.step (some fun _ => .silent) (.connection (.writer e)) =
        some ⟨c, s.service.pool⟩ := Option.map_eq_some_iff.2 ⟨c, hs, rfl⟩
    rw [hstop _ _ hgoes] at hstep
    cases hstep
  have hroom : s.service.connection.queue.length < s.service.connection.capacity := by
    rw [hidle.2]
    exact Nat.lt_of_lt_of_le Nat.zero_lt_one (Nat.le_max_right ..)
  by_contra hleft
  have hwork : s.service.connection.reader ≠ .reading ∨ s.service.pool.unfinished ≠ [] := by
    by_contra hnone
    obtain ⟨hr, hu⟩ := not_or.1 hnone
    refine hleft ⟨?_, ?_⟩
    · rw [held, not_not.1 hr]
      rfl
    · rw [jobs, not_not.1 hu]
      rfl
  obtain ⟨x, v, hx, hs⟩ := Service.exists_step h.ready h.out.writer.isServing
    (h.desk fun _ => .silent) hroom hwork
  rw [hstop _ _ (goesOn_of_isWork hx)] at hs
  cases hs

/-- **Every frame is answered as it should be, and once.** Frames come in on an open connection that
makes no requests, a pool of any size runs the jobs in any order, with those of other connections
between them, and the handler replies, keeps silent, fails or is given up, as it likes each time.

At any time the pings, in the order in which they came in, are answered by the reader or in its hand;
all other frames were given to the handler, are jobs or in the reader's hand, each at one place; and
what was queued is what the frames call for that were dealt with, and nothing else. And it is
inevitable that all frames are dealt with if no more come in, on whichever connection. -/
theorem deals_with_every_frame_once (options : ConnectionOptions) (workers : Nat)
    {events : List (HandlerOutcome × ServiceEvent)} {s : Watched}
    (hrun : (machine options workers).run (machine options workers).start events = some s)
    (hcalm : ∀ e ∈ events, e.2.isCalm = true) :
    s.arrivals = taken events ∧
    s.dealt.filterMap Dealt.ping? ++ s.held.filter Message.isPing =
      s.arrivals.filter Message.isPing ∧
    (s.dealt.filterMap Dealt.request? ++ (s.jobs ++ s.held.filter (!·.isPing))).Perm
      (s.arrivals.filter (!·.isPing)) ∧
    s.QueuesWhatIsCalledFor ∧
    (machine options workers).Inevitable (fun e => e.2.goesOn = true)
      (fun t => t.dealt.filterMap Dealt.ping? = s.arrivals.filter Message.isPing ∧
        (t.dealt.filterMap Dealt.request?).Perm (s.arrivals.filter (!·.isPing)) ∧
        t.QueuesWhatIsCalledFor) s := by
  obtain ⟨hsound, harrivals⟩ := sound_of_run hrun hcalm
  refine ⟨harrivals, hsound.pings, hsound.requests, hsound.queuesWhatIsCalledFor, ?_⟩
  refine @Machine.inevitable_of_lowers _ _ _ _ _
    (fun t => t.arrivals = s.arrivals ∧ t.Sound) ranks ?_ ?_ s ⟨rfl, hsound⟩
  · rintro t e u ⟨hsame, ht⟩ he hs
    have hcalm := isCalm_of_goesOn he
    have hsteady := arrivals_of_step ht hs hcalm
    rw [taken_of_goesOn he, List.append_nil] at hsteady
    exact ⟨⟨hsteady.trans hsame, ht.step hs hcalm⟩, lowers ht hs he⟩
  · rintro t ⟨hsame, ht⟩ hstuck
    obtain ⟨hheld, hjobs⟩ := ht.settled hstuck
    have hpings := ht.pings
    have hrequests := ht.requests
    rw [hheld, List.filter_nil, List.append_nil, hsame] at hpings
    rw [hheld, hjobs, List.filter_nil, List.append_nil, hsame, List.append_nil] at hrequests
    exact ⟨hpings, hrequests, ht.queuesWhatIsCalledFor⟩

/-! ### Three frames, one of which is given up -/

private theorem query_fits : ([7] : Bytes).length < bodyLimit := by decide

private def query : Message := ⟨.ofNat 1, .select, [7], query_fits⟩

private def probe : Message := ⟨.ofNat 2, .ping, [1, 2], by decide⟩

private def insertion : Message := .bare (.ofNat 3) .insert

private def comesIn (m : Message) : List (HandlerOutcome × ServiceEvent) :=
  [(.silent, .connection (.reader (.arrive m))), (.silent, .connection (.reader .dispatch))]

/-- The probe is answered while the query is a job. A job of another connection is in front of the
insertion, which fails before the query, which the handler does not survive. -/
private def watch : List (HandlerOutcome × ServiceEvent) :=
  comesIn query ++ (.silent, .submit) :: comesIn probe ++ (.silent, .answerPing) ::
    (.silent, .submitForeign) :: comesIn insertion ++ [(.silent, .submit), (.silent, .take 0),
      (.silent, .take 1), (.silent, .endForeign 1 (some .other)), (.silent, .take 1),
      (.failed "full", .handle 1), (.panicked (.text "boom"), .handle 0)]

private def watched : Watched :=
  ((machine {} 2).run (machine {} 2).start watch).getD (machine {} 2).start

private theorem run_watch : (machine {} 2).run (machine {} 2).start watch = some watched := by
  have hsome : ((machine {} 2).run (machine {} 2).start watch).isSome = true := by decide +kernel
  obtain ⟨s, hs⟩ := Option.isSome_iff_exists.1 hsome
  rw [watched, hs, Option.getD_some]

/-- The query leaves no answer behind, and the other two frames get theirs. -/
theorem a_job_that_is_given_up_queues_nothing :
    watched.dealt = [.ping probe, .asked insertion (.failed "full"),
      .asked query (.panicked (.text "boom"))] ∧
    ∃ a : Message, a.id = .ofNat 3 ∧ a.kind = .error ∧
      a.payload = .ok (.failure ⟨.handler, "full"⟩) ∧
      watched.service.connection.history.queued =
        [(Message.bare (.ofNat 2) .pong).encode, a.encode] := by
  have hdealt : watched.dealt = [.ping probe, .asked insertion (.failed "full"),
      .asked query (.panicked (.text "boom"))] := by decide +kernel
  refine ⟨hdealt, ?_⟩
  obtain ⟨-, -, -, ⟨answers, hcalls, hqueued⟩, -⟩ :=
    deals_with_every_frame_once {} 2 run_watch (by decide)
  rw [hdealt] at hcalls
  cases hcalls with
  | cons hprobe hcalls =>
    cases hprobe
    cases hcalls with
    | cons hinsertion hcalls =>
      cases hcalls with
      | cons hquery hcalls =>
        cases hquery
        cases hcalls
        cases hinsertion with
        | failed hid hkind hreport => exact ⟨_, hid, hkind, hreport, hqueued⟩
        | oversized h => exact absurd h (by decide +kernel)

/-! ## One and the same handler -/

/-- A step of a service with a handler is one of a watched service, where the handler does what it
does with the message that it is given. -/
theorem step_of_handler {f : Handler} {v v' : Service} (hs : v.step (some f) x = some v')
    (dealt : List Dealt) : ∃ outcome more, (⟨v, dealt⟩ : Watched).step (outcome, x) =
      some ⟨v', dealt ++ more⟩ ∧ ∀ m o, Dealt.asked m o ∈ more → o = f m := by
  have hof : ∀ outcome, v.step (some fun _ => outcome) x = some v' →
      (⟨v, dealt⟩ : Watched).step (outcome, x) = some ⟨v', dealt ++ v.deals outcome x⟩ :=
    fun outcome h => Option.map_eq_some_iff.2 ⟨v', h, rfl⟩
  have hnone : ∀ m o, Dealt.asked m o ∈ ([] : List Dealt) → o = f m := fun m o h => by cases h
  have hasked : ∀ {w m}, v.job? w = some (.own m) →
      ∀ m' o, Dealt.asked m' o ∈ v.deals (f m) (.handle w) → o = f m' := fun hj m' o h => by
    rw [Service.deals, hj] at h
    cases List.mem_singleton.1 h
    rfl
  cases Service.step_iff.1 hs with
  | connection he hc =>
    exact ⟨.silent, _, hof .silent (Service.step_iff.2 (.connection he hc)), hnone⟩
  | answerPing hr hk hu hb =>
    refine ⟨.silent, _, hof .silent (Service.step_iff.2 (.answerPing hr hk hu hb)), fun m o h => ?_⟩
    obtain ⟨y, -, hy⟩ := List.mem_map.1 h
    cases hy
  | submit hr _ hk hp hb =>
    exact ⟨.silent, _, hof .silent (Service.step_iff.2 (.submit hr rfl hk hp hb)), hnone⟩
  | drop hr _ hk hp hb =>
    exact ⟨.silent, _, hof .silent (Service.step_iff.2 (.drop hr rfl hk hp hb)), hnone⟩
  | ignore _ hf => cases hf
  | take hp => exact ⟨.silent, _, hof .silent (Service.step_iff.2 (.take hp)), hnone⟩
  | @answer _ m _ _ _ _ hj hf hc hu hp =>
    cases hf
    exact ⟨f m, _, hof (f m) (Service.step_iff.2 (.answer hj rfl hc hu hp)), hasked hj⟩
  | @keepSilent _ m _ _ hj hf hc hp =>
    cases hf
    exact ⟨f m, _, hof (f m) (Service.step_iff.2 (.keepSilent hj rfl hc hp)), hasked hj⟩
  | @giveUp _ m _ _ _ hj hf hc hp =>
    cases hf
    exact ⟨f m, _, hof (f m) (Service.step_iff.2 (.giveUp hj rfl hc hp)), hasked hj⟩
  | submitForeign hp =>
    exact ⟨.silent, _, hof .silent (Service.step_iff.2 (.submitForeign hp)), hnone⟩
  | endForeign hj hp =>
    exact ⟨.silent, _, hof .silent (Service.step_iff.2 (.endForeign hj hp)), hnone⟩

theorem run_of_handler {f : Handler} {v v' : Service} {steps : List ServiceEvent}
    (hrun : (Service.machine (some f) options workers).run v steps = some v') (dealt : List Dealt) :
    ∃ events more, events.map Prod.snd = steps ∧
      (machine options workers).run ⟨v, dealt⟩ events = some ⟨v', dealt ++ more⟩ ∧
      ∀ m o, Dealt.asked m o ∈ more → o = f m := by
  induction steps generalizing v dealt with
  | nil =>
    cases hrun
    exact ⟨[], [], rfl, by rw [List.append_nil]; rfl, fun m o h => by cases h⟩
  | cons x later ih =>
    obtain ⟨u, hs, hlater⟩ := Option.bind_eq_some_iff.1 hrun
    obtain ⟨outcome, first, hfirst, hasked⟩ := step_of_handler hs dealt
    obtain ⟨events, more, hevents, hrest, hall⟩ := ih hlater (dealt ++ first)
    refine ⟨(outcome, x) :: events, first ++ more, by rw [List.map_cons, hevents], ?_,
      fun m o h => ?_⟩
    · change (machine options workers).step ⟨v, dealt⟩ (outcome, x) = _ at hfirst
      rw [Machine.run_cons, hfirst, Option.bind_some, hrest, List.append_assoc]
    · exact (List.mem_append.1 h).elim (hasked m o) (hall m o)

end Watched
end ClusterLink
