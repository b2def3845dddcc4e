import ClusterLink.Proofs.Connection.Outgoing
import ClusterLink.Proofs.Payload.Codec
import ClusterLink.Proofs.Workers.Jobs
import ClusterLink.Server.Service
/-!
# What a service answers

A frame that comes in is in the reader's hand, then it is a job or answered at once; in the end it is
done, and what is written for it depends on nothing but the frame and the handler. Jobs end in any
order, so the answers are in any order, but there is one for each frame that is to be answered. Jobs
of other connections take their turns in between and write nothing here.

The reader, the pool and what is sent are all that has to do with this. They are the `Desk` of a
service, and `Desk.Turn` says everything that one step can do to it.

Results:
* `Service.computes_iff`: what a service makes of a message, and what it answers.
* `Service.step_iff`: all that a step of a service can do.
* `Service.step_desk`: every calm step of a service is a step of its desk.
* `Desk.Sound.turn`: the frames that came in are in hand, jobs or done, and what was queued are the
  answers to those that are done.
* `Desk.Turn.lowers`: every such step leaves less to do.
* `Service.exists_step`: while a frame is not done, there is such a step.
-/
namespace ClusterLink

/-- A step of a service that nobody closes, and that is asked for nothing but answers. -/
def ServiceEvent.isCalm : ServiceEvent → Bool
  | connection (.writer e) => e.isCalm
  | connection (.reader .dispatch) | connection (.reader (.arrive _)) => true
  | answerPing | submit | ignore | take _ | handle _ | submitForeign | endForeign .. => true
  | _ => false

/-- The frame that a step takes off the socket. -/
def ServiceEvent.taken : ServiceEvent → List Message
  | connection (.reader (.arrive m)) => [m]
  | _ => []

/-- A step of the reader or a worker that brings a frame closer to being done. -/
def ServiceEvent.isWork : ServiceEvent → Bool
  | connection (.reader .dispatch) | answerPing | submit | ignore | take _ | handle _
  | endForeign .. => true
  | _ => false

/-- The frame that a message is answered with, if any: a ping by the reader, all else by the
handler. -/
def Service.answer? (handler : Option Handler) (m : Message) : Option Message :=
  if m.kind = .ping then some m.pong
  else handler.bind fun f => ((f m).conclude m).toOption.join

/-- What a server makes of a single message, as the other end reads it: a pong of a ping, and
otherwise what the handler replies, or an error that tells what it failed with. Each carries the id
of the message. -/
inductive Service.Computes (handler : Option Handler) (m : Message) : Message → Prop
  | pong (hk : m.kind = .ping) : Computes handler m (.bare m.id .pong)
  | reply {f : Handler} {a : Message} (hk : m.kind ≠ .ping) (hf : handler = some f)
      (hr : f m = .reply a) (hid : a.id = m.id) : Computes handler m a.normalized
  | failure {f : Handler} {text : String} {a : Message} (hk : m.kind ≠ .ping)
      (hf : handler = some f) (hr : f m = .failed text) (hid : a.id = m.id) (hkind : a.kind = .error)
      (hreport : a.payload = .ok (.failure ⟨.handler, text⟩)) : Computes handler m a

/-- The frames that the reader has and that are neither answered nor jobs. -/
def Reader.held : Reader → List Message
  | claimed a _ | calling a => [a.message]
  | _ => []

/-- How many steps the reader has to take until it can take a frame. -/
def Reader.ahead : Reader → Nat
  | claimed .. => 2
  | calling _ => 1
  | _ => 0

/-- The part of a service that has to do with answering. -/
structure Desk where
  reader : Reader
  pool : WorkerPool PoolJob
  arrivals : List Message
  out : Outgoing

def Service.desk (v : Service) : Desk :=
  ⟨v.connection.reader, v.pool, v.connection.history.arrivals, v.connection.outgoing⟩

namespace PoolJob

variable {l l' : List (Submitted PoolJob)}

/-- The frames of the connection at hand that some jobs are about. -/
def frames (l : List (Submitted PoolJob)) : List Message := l.filterMap (·.job.frame?)

theorem frames_perm (h : l.Perm l') : (frames l).Perm (frames l') := h.filterMap _

theorem frames_foreign (n : Nat) : frames (⟨n, .foreign⟩ :: l) = frames l := rfl

end PoolJob

/-- The frames of the connection that are jobs. -/
def Desk.jobs (d : Desk) : List Message := PoolJob.frames d.pool.unfinished

namespace Service

variable {handler : Option Handler} {m a : Message}

/-- A failure is reported by the error that says so. -/
theorem replyWith_failure_eq_ok_iff {f : Failure} :
    m.replyWith (.failure f) = .ok a ↔
      a.id = m.id ∧ a.kind = .error ∧ a.payload = .ok (.failure f) := by
  constructor
  · intro h
    unfold Message.replyWith Message.reply Message.make at h
    split at h
    · next hfits =>
      cases h
      exact ⟨rfl, rfl, (Payload.decode_error_iff hfits).2 rfl⟩
    · cases h
  · obtain ⟨id, kind, body, hfits⟩ := a
    rintro ⟨rfl, rfl, hreport⟩
    have hbody : body = f.encode := (Payload.decode_error_iff hfits).1 hreport
    subst hbody
    exact dif_pos hfits

theorem normalized_of_error (hkind : a.kind = .error) : a.normalized = a := by
  have hcode : Kind.ofCode a.kind.code = a.kind := by rw [hkind]; rfl
  rw [Message.normalized, hcode]

/-- What a server makes of a message is what it answers, as far as that carries the message's id. -/
theorem computes_iff :
    Computes handler m a ↔ ∃ b, answer? handler m = some b ∧ b.id = m.id ∧ a = b.normalized := by
  constructor
  · intro h
    cases h with
    | pong hk => exact ⟨m.pong, if_pos hk, rfl, rfl⟩
    | @reply f b hk hf hr hid =>
      refine ⟨b, ?_, hid, rfl⟩
      rw [answer?, if_neg hk, hf, Option.bind_some, hr]
      rfl
    | @failure f text _ hk hf hr hid hkind hreport =>
      refine ⟨a, ?_, hid, ?_⟩
      · rw [answer?, if_neg hk, hf, Option.bind_some, hr, HandlerOutcome.conclude,
          replyWith_failure_eq_ok_iff.2 ⟨hid, hkind, hreport⟩]
        rfl
      · exact (normalized_of_error hkind).symm
  · rintro ⟨b, hb, hid, rfl⟩
    by_cases hk : m.kind = .ping
    · rw [answer?, if_pos hk] at hb
      cases hb
      exact .pong hk
    · rw [answer?, if_neg hk] at hb
      obtain ⟨f, hf, hb⟩ := Option.bind_eq_some_iff.1 hb
      cases hr : f m with
      | reply r =>
        rw [hr] at hb
        cases hb
        exact .reply hk hf hr hid
      | failed text =>
        rw [hr, HandlerOutcome.conclude] at hb
        cases hreply : m.replyWith (.failure ⟨.handler, text⟩) with
        | error e => rw [hreply] at hb; cases hb
        | ok answer =>
          rw [hreply] at hb
          cases hb
          obtain ⟨hid, hkind, hreport⟩ := replyWith_failure_eq_ok_iff.1 hreply
          rw [normalized_of_error hkind]
          exact .failure hk hf hr hid hkind hreport
      | silent => rw [hr] at hb; cases hb
      | panicked cause => rw [hr] at hb; cases hb

end Service

namespace Desk

variable {handler : Option Handler} {d d' : Desk} {e : ServiceEvent} {done : List Message}

/-- What a calm step does to the desk of a service that makes no requests. -/
inductive Turn (handler : Option Handler) (d : Desk) : ServiceEvent → Desk → Prop
  | write {e : WriterEvent} {o : Outgoing} (h : d.out.WriterStep e o) :
    Turn handler d (.connection (.writer e)) { d with out := o }
  | arrive {m : Message} (hr : d.reader = .reading) :
    Turn handler d (.connection (.reader (.arrive m)))
      { d with reader := .claimed ⟨d.arrivals.length, m⟩ none, arrivals := d.arrivals ++ [m] }
  | look {a : Arrival} (hr : d.reader = .claimed a none) :
    Turn handler d (.connection (.reader .dispatch)) { d with reader := .calling a }
  | answer {e : ServiceEvent} {a : Arrival} (hr : d.reader = .calling a)
      (he : a.message.kind = .ping ∧ e = .answerPing ∨ handler = none ∧ e = .ignore) :
    Turn handler d e
      { d with reader := .reading, out := d.out.send (Service.answer? handler a.message) }
  | submit {a : Arrival} {pool : WorkerPool PoolJob} (hr : d.reader = .calling a)
      (hk : a.message.kind ≠ .ping) (hf : handler ≠ none)
      (hp : d.pool.submit (.own a.message) = .ok pool) :
    Turn handler d .submit { d with reader := .reading, pool }
  | take {w : Nat} {pool : WorkerPool PoolJob} (hp : d.pool.take? w = some pool) :
    Turn handler d (.take w) { d with pool }
  | handle {w n : Nat} {m : Message} {f : Handler} {panic : Option Panic}
      {pool : WorkerPool PoolJob} (hw : d.pool.workers[w]? = some (.running ⟨n, .own m⟩))
      (hf : handler = some f) (hp : d.pool.finish? w panic = some pool) :
    Turn handler d (.handle w) { d with pool, out := d.out.send ((f m).conclude m).toOption.join }
  | submitForeign {pool : WorkerPool PoolJob} (hp : d.pool.submit .foreign = .ok pool) :
    Turn handler d .submitForeign { d with pool }
  | endForeign {w n : Nat} {panic : Option Panic} {pool : WorkerPool PoolJob}
      (hw : d.pool.workers[w]? = some (.running ⟨n, .foreign⟩))
      (hp : d.pool.finish? w panic = some pool) :
    Turn handler d (.endForeign w panic) { d with pool }

theorem mem_jobs_of_running {w n : Nat} {m : Message}
    (hw : d.pool.workers[w]? = some (.running ⟨n, .own m⟩)) : m ∈ d.jobs :=
  List.mem_filterMap.2 ⟨_, WorkerPool.mem_unfinished_of_running hw, rfl⟩

/-- Where the frames are that came in. -/
structure Sound (handler : Option Handler) (d : Desk) (done : List Message) : Prop where
  reader : d.reader = .reading ∨ (∃ a, d.reader = .claimed a none) ∨ ∃ a, d.reader = .calling a
  jobs : ∀ m ∈ d.jobs, m.kind ≠ .ping ∧ handler ≠ none
  placed : (d.reader.held ++ (d.jobs ++ done)).Perm d.arrivals

theorem filterMap_answer? (m : Message) :
    [m].filterMap (Service.answer? handler) = (Service.answer? handler m).toList := by
  rw [List.filterMap_cons]
  cases Service.answer? handler m <;> rfl

/-- The frame that a step is done with. -/
def settled (d : Desk) : ServiceEvent → List Message
  | .answerPing | .ignore => d.reader.held
  | .handle w => PoolJob.frames (d.pool.workers[w]?.bind Worker.job?).toList
  | .connection _ | .submit | .take _ | .submitForeign | .endForeign .. => []

/-- What a step does to the frames that came in: the one it settles is done, and what it queues is its
answer. -/
theorem Sound.turn (h : d.Sound handler done) (ht : d.Turn handler e d') :
    d'.Sound handler (done ++ d.settled e) ∧
      d.out.Advances ((d.settled e).filterMap (Service.answer? handler)) d'.out := by
  obtain ⟨hreader, hjobs, hplaced⟩ := h
  have hend : ∀ (m : Message) (l : List Message), (l ++ (done ++ [m])).Perm (m :: (l ++ done)) := by
    intro m l
    rw [← List.append_assoc]
    exact List.perm_append_singleton ..
  have hnone : done ++ [] = done := List.append_nil done
  -- Where the workers only change the places of jobs, or go about those of other connections.
  have hsame : ∀ {pool : WorkerPool PoolJob}, (PoolJob.frames pool.unfinished).Perm d.jobs →
      Sound handler { d with pool } (done ++ []) := fun hframes =>
    ⟨hreader, fun m hm => hjobs m (hframes.mem_iff.1 hm),
      hnone.symm ▸ ((hframes.append_right done).append_left _).trans hplaced⟩
  cases ht with
  | write hs => exact ⟨⟨hreader, hjobs, hnone.symm ▸ hplaced⟩, .write hs⟩
  | @arrive m hr =>
    refine ⟨⟨Or.inr (Or.inl ⟨_, rfl⟩), hjobs, ?_⟩, .rest⟩
    rw [hr] at hplaced
    rw [settled, hnone]
    exact (hplaced.cons m).trans (List.perm_append_singleton m d.arrivals).symm
  | @look a hr =>
    refine ⟨⟨Or.inr (Or.inr ⟨a, rfl⟩), hjobs, ?_⟩, .rest⟩
    rw [hr] at hplaced
    rwa [settled, hnone]
  | @answer _ a hr he =>
    have hsettled : d.settled e = [a.message] := by
      obtain ⟨-, rfl⟩ | ⟨-, rfl⟩ := he <;> rw [settled, hr] <;> rfl
    rw [hsettled, filterMap_answer?]
    refine ⟨⟨Or.inl rfl, hjobs, ?_⟩, Outgoing.advances_send ..⟩
    rw [hr] at hplaced
    exact (hend a.message _).trans hplaced
  | @submit a pool hr hk hf hp =>
    have hperm := PoolJob.frames_perm (WorkerPool.unfinished_submit hp)
    refine ⟨⟨Or.inl rfl, fun m hm => ?_, ?_⟩, .rest⟩
    · rcases List.mem_cons.1 (hperm.mem_iff.1 hm) with rfl | hm
      · exact ⟨hk, hf⟩
      · exact hjobs m hm
    · rw [hr] at hplaced
      rw [settled, hnone]
      exact (hperm.append_right done).trans hplaced
  | take hp => exact ⟨hsame (PoolJob.frames_perm (WorkerPool.unfinished_take hp)), .rest⟩
  | @handle w n m f panic pool hw hf hp =>
    have hperm := PoolJob.frames_perm (WorkerPool.unfinished_finish hp hw)
    have hanswer : Service.answer? handler m = ((f m).conclude m).toOption.join := by
      rw [Service.answer?, if_neg (hjobs m (mem_jobs_of_running hw)).1, hf]
      rfl
    have hsettled : d.settled (.handle w) = [m] := by rw [settled, hw]; rfl
    rw [hsettled, filterMap_answer?, hanswer]
    refine ⟨⟨hreader, fun x hx => hjobs x (hperm.mem_iff.1 (List.mem_cons_of_mem m hx)), ?_⟩,
      Outgoing.advances_send ..⟩
    exact (((hend m _).trans (hperm.append_right done)).append_left _).trans hplaced
  | submitForeign hp =>
    have hperm := PoolJob.frames_perm (WorkerPool.unfinished_submit hp)
    rw [PoolJob.frames_foreign] at hperm
    exact ⟨hsame hperm, .rest⟩
  | endForeign hw hp =>
    have hperm := PoolJob.frames_perm (WorkerPool.unfinished_finish hp hw)
    rw [PoolJob.frames_foreign] at hperm
    exact ⟨hsame hperm, .rest⟩

/-- Nothing but the frame that a step takes off the socket comes in. -/
theorem Turn.arrivals_eq (ht : d.Turn handler e d') : d'.arrivals = d.arrivals ++ e.taken := by
  cases ht with
  | arrive => rfl
  | answer _ he => obtain ⟨-, rfl⟩ | ⟨-, rfl⟩ := he <;> exact (List.append_nil _).symm
  | _ => exact (List.append_nil _).symm

/-- A step that takes no frame off a socket, here or elsewhere, leaves less to do: for the reader, for
the workers or for the writer, in this order. -/
theorem Turn.lowers (ht : d.Turn handler e d') (hw : e ≠ .connection (.writer .interrupted))
    (hr : ∀ m, e ≠ .connection (.reader (.arrive m))) (hf : e ≠ .submitForeign) :
    d'.reader.ahead < d.reader.ahead ∨ d'.reader = d.reader ∧
      (d'.pool.workload < d.pool.workload ∨ d'.pool = d.pool ∧ d'.out.backlog < d.out.backlog) := by
  cases ht with
  | write hs =>
    exact Or.inr ⟨rfl, Or.inr ⟨rfl, Outgoing.backlog_writerStep hs fun he => hw (he ▸ rfl)⟩⟩
  | arrive => exact absurd rfl (hr _)
  | look hc => rw [hc]; exact Or.inl (Nat.lt_succ_self 1)
  | answer hc | submit hc => rw [hc]; exact Or.inl (Nat.lt_succ_self 0)
  | take hp => exact Or.inr ⟨rfl, Or.inl (WorkerPool.workload_take hp)⟩
  | handle _ _ hp | endForeign _ hp => exact Or.inr ⟨rfl, Or.inl (WorkerPool.workload_finish hp)⟩
  | submitForeign => exact absurd rfl hf

end Desk

/-- With no slot waiting a frame takes none. -/
theorem Connection.arrive_of_pending {c : Connection} (h : c.pending = []) (m : Message) :
    c.arrive m = { c with
      reader := .claimed ⟨c.history.arrivals.length, m⟩ none
      history := { c.history with arrivals := c.history.arrivals ++ [m] } } := by
  have hwait : c.waiting? m.id = none := by rw [waiting?, h]; rfl
  have hpending : c.pending.filter (fun p => decide (p.1 ≠ m.id)) = c.pending := by rw [h]; rfl
  rw [arrive, unregister, hwait, hpending]

namespace Service

variable {handler : Option Handler} {v v' : Service} {e : ServiceEvent} {done : List Message}

/-- All that a step of a service can do. -/
inductive Step (handler : Option Handler) (v : Service) : ServiceEvent → Service → Prop
  | connection {e : ConnectionEvent} {c : Connection} (he : isCallbackEnd e = false)
      (hc : v.connection.step e = some c) :
    Step handler v (.connection e) { v with connection := c }
  | answerPing {a : Arrival} {u v' : Service} (hr : v.connection.reader = .calling a)
      (hk : a.message.kind = .ping) (hu : v.write a.message.pong = some u)
      (hb : u.comeBack = some v') :
    Step handler v .answerPing v'
  | submit {a : Arrival} {f : Handler} {pool : WorkerPool PoolJob} {v' : Service}
      (hr : v.connection.reader = .calling a) (hf : handler = some f)
      (hk : a.message.kind ≠ .ping) (hp : v.pool.submit (.own a.message) = .ok pool)
      (hb : comeBack { v with pool } = some v') :
    Step handler v .submit v'
  | drop {a : Arrival} {f : Handler} {cause : PoolClosed} {v' : Service}
      (hr : v.connection.reader = .calling a) (hf : handler = some f)
      (hk : a.message.kind ≠ .ping) (hp : v.pool.submit (.own a.message) = .error cause)
      (hb : v.comeBack = some v') :
    Step handler v .submit v'
  | ignore {a : Arrival} {v' : Service} (hr : v.connection.reader = .calling a)
      (hf : handler = none) (hk : a.message.kind ≠ .ping) (hb : v.comeBack = some v') :
    Step handler v .ignore v'
  | take {w : Nat} {pool : WorkerPool PoolJob} (hp : v.pool.take? w = some pool) :
    Step handler v (.take w) { v with pool }
  | answer {w : Nat} {m answer : Message} {f : Handler} {u v' : Service}
      (hj : v.job? w = some (.own m)) (hf : handler = some f)
      (hc : (f m).conclude m = .ok (some answer)) (hu : v.write answer = some u)
      (hp : finish w none u = some v') :
    Step handler v (.handle w) v'
  | keepSilent {w : Nat} {m : Message} {f : Handler} {v' : Service}
      (hj : v.job? w = some (.own m)) (hf : handler = some f) (hc : (f m).conclude m = .ok none)
      (hp : finish w none v = some v') :
    Step handler v (.handle w) v'
  | giveUp {w : Nat} {m : Message} {f : Handler} {cause : Panic} {v' : Service}
      (hj : v.job? w = some (.own m)) (hf : handler = some f)
      (hc : (f m).conclude m = .error cause) (hp : finish w (some cause) v = some v') :
    Step handler v (.handle w) v'
  | submitForeign {pool : WorkerPool PoolJob} (hp : v.pool.submit .foreign = .ok pool) :
    Step handler v .submitForeign { v with pool }
  | endForeign {w : Nat} {panic : Option Panic} {v' : Service} (hj : v.job? w = some .foreign)
      (hp : finish w panic v = some v') :
    Step handler v (.endForeign w panic) v'

theorem step_iff : v.step handler e = some v' ↔ Step handler v e v' := by
  constructor
  · intro h
    cases e with
    | connection e =>
      simp only [step] at h
      split at h
      · cases h
      · next he =>
        obtain ⟨c, hc, rfl⟩ := Option.map_eq_some_iff.1 h
        exact .connection (Bool.eq_false_iff.2 he) hc
    | answerPing =>
      simp only [step] at h
      split at h
      · next hr =>
        split at h
        · next hk =>
          obtain ⟨u, hu, hb⟩ := Option.bind_eq_some_iff.1 h
          exact .answerPing hr hk hu hb
        · cases h
      · cases h
    | submit =>
      simp only [step] at h
      split at h
      · next hr =>
        split at h
        · cases h
        · next hk =>
          split at h
          · next hp => exact .submit hr rfl hk hp h
          · next hp => exact .drop hr rfl hk hp h
      · cases h
    | ignore =>
      simp only [step] at h
      split at h
      · next hr =>
        split at h
        · cases h
        · next hk => exact .ignore hr rfl hk h
      · cases h
    | take w =>
      obtain ⟨pool, hp, rfl⟩ := Option.map_eq_some_iff.1 h
      exact .take hp
    | handle w =>
      simp only [step] at h
      split at h
      · next hj =>
        split at h
        · next hc =>
          obtain ⟨u, hu, hp⟩ := Option.bind_eq_some_iff.1 h
          exact .answer hj rfl hc hu hp
        · next hc => exact .keepSilent hj rfl hc h
        · next hc => exact .giveUp hj rfl hc h
      · cases h
    | submitForeign =>
      simp only [step] at h
      cases hp : v.pool.submit .foreign with
      | error cause => rw [hp] at h; cases h
      | ok pool => rw [hp] at h; cases h; exact .submitForeign hp
    | endForeign w panic =>
      simp only [step] at h
      split at h
      · next hj => exact .endForeign hj h
      · cases h
  · intro h
    cases h with
    | connection he hc => simp only [step, he, hc, Bool.false_eq_true, if_false, Option.map_some]
    | answerPing hr hk hu hb => simp only [step, hr, if_pos hk, hu, hb, Option.bind_some]
    | submit hr hf hk hp hb | drop hr hf hk hp hb => simp only [step, hr, hf, if_neg hk, hp, hb]
    | ignore hr hf hk hb => simp only [step, hr, hf, if_neg hk, hb]
    | take hp => simp only [step, hp, Option.map_some]
    | answer hj hf hc hu hp => simp only [step, hj, hf, hc, hu, hp, Option.bind_some]
    | keepSilent hj hf hc hp | giveUp hj hf hc hp => simp only [step, hj, hf, hc, hp]
    | submitForeign hp => simp only [step, hp, Except.toOption, Option.map_some]
    | endForeign hj hp => simp only [step, hj, hp]

/-- Whether a service is open, hands its frames to a callback and makes no requests of its own. -/
structure Ready (v : Service) : Prop where
  opened : v.connection.closing = .notYet
  callback : v.connection.hasCallback = true
  pending : v.connection.pending = []
  expired : v.connection.expired = []
  unclaimed : ∀ a t, v.connection.reader ≠ .claimed a (some t)
  pool : v.pool.Ready

theorem ready_new (options : ConnectionOptions) (workers : Nat) : (new options workers).Ready where
  opened := rfl
  callback := rfl
  pending := rfl
  expired := rfl
  unclaimed _ _ h := by cases h
  pool := WorkerPool.ready_new ..

/-- At first no frame has come in. -/
theorem sound_new (options : ConnectionOptions) (workers : Nat) :
    (new options workers).desk.Sound handler [] := by
  have hnone : (new options workers).desk.jobs = [] :=
    congrArg PoolJob.frames (WorkerPool.unfinished_new ..)
  refine ⟨Or.inl rfl, fun m hm => ?_, ?_⟩
  · rw [hnone] at hm
    cases hm
  · rw [hnone]
    exact List.Perm.refl _

/-- A frame is queued on an open connection as soon as there is room. -/
theorem write_of_ready (h : v.Ready) (hw : v.connection.writer.isServing = true) (m : Message) :
    v.write m = if v.connection.queue.length < v.connection.capacity then
      some { v with connection :=
        (v.connection.addWrite ⟨m.encode, .ended (.ok m.encode.length)⟩).enqueue m.encode }
    else none := by
  rw [write, Connection.write_of_open h.opened hw]
  split <;> rfl

/-- The reader goes on once a frame is dealt with. -/
theorem comeBack_of_calling {c : Connection} {pool : WorkerPool PoolJob} {a : Arrival}
    (hr : c.reader = .calling a) :
    comeBack ⟨c, pool⟩ = some ⟨{ c with reader := .reading }, pool⟩ := by
  simp only [comeBack, Connection.step, Connection.stepReader, hr]
  rfl

/-- A step of the connection that does not come from a callback is a step of the desk. -/
theorem connection_desk {e : ConnectionEvent} {c : Connection} (h : v.Ready)
    (hs : v.connection.step e = some c) (he : (ServiceEvent.connection e).isCalm = true) :
    ({ v with connection := c } : Service).Ready ∧
      v.desk.Turn handler (.connection e) { v with connection := c : Service }.desk := by
  have hopen : v.connection.isClosed = false := by rw [Connection.isClosed, h.opened]; rfl
  cases e with
  | writer e =>
    obtain ⟨hstep, heq⟩ := Connection.stepWriter_outgoing hopen hs he
    have hreader : c.reader = v.connection.reader := by rw [heq]
    have hhistory : c.history = v.connection.history := by rw [heq]
    have hdesk : desk { v with connection := c } = { v.desk with out := c.outgoing } := by
      simp only [desk, hreader, hhistory]
    refine ⟨⟨?_, ?_, ?_, ?_, ?_, h.pool⟩, hdesk ▸ .write hstep⟩
    · rw [heq]; exact h.opened
    · rw [heq]; exact h.callback
    · rw [heq]; exact h.pending
    · rw [heq]; exact h.expired
    · rw [hreader]; exact h.unclaimed
  | reader e =>
    cases e with
    | arrive m =>
      cases hr : v.connection.reader with
      | reading =>
        simp only [Connection.step, Connection.stepReader, hr, Option.some.injEq,
          Connection.arrive_of_pending h.pending] at hs
        subst hs
        exact ⟨{ h with unclaimed := fun _ _ ht => by cases ht }, .arrive hr⟩
      | _ => simp only [Connection.step, Connection.stepReader, hr] at hs; cases hs
    | dispatch =>
      cases hr : v.connection.reader with
      | claimed a slot =>
        cases slot with
        | some t => exact absurd hr (h.unclaimed a t)
        | none =>
          simp only [Connection.step, Connection.stepReader, hr, Option.some.injEq] at hs
          have hex : a.message.id ∉ v.connection.expired := by rw [h.expired]; exact List.not_mem_nil
          rw [Connection.dispatchUnclaimed, if_neg hex, if_pos h.callback] at hs
          subst hs
          exact ⟨{ h with unclaimed := fun _ _ ht => by cases ht }, .look hr⟩
      | _ => simp only [Connection.step, Connection.stepReader, hr] at hs; cases hs
    | _ => cases he
  | _ => cases he

theorem eq_of_job? {w : Nat} {job : PoolJob} (h : v.job? w = some job) :
    ∃ n, v.pool.workers[w]? = some (.running ⟨n, job⟩) := by
  unfold job? at h
  split at h
  · next s hw =>
    cases h
    exact ⟨s.number, hw⟩
  · cases h

theorem answerPing_desk {a : Arrival} {u : Service} (h : v.Ready)
    (hw : v.connection.writer.isServing = true) (hr : v.connection.reader = .calling a)
    (hk : a.message.kind = .ping) (hu : v.write a.message.pong = some u)
    (hb : u.comeBack = some v') : v'.Ready ∧ v.desk.Turn handler .answerPing v'.desk := by
  rw [write_of_ready h hw] at hu
  split at hu
  · cases hu
    rw [comeBack_of_calling (a := a) (by exact hr)] at hb
    cases hb
    have hanswer : answer? handler a.message = some a.message.pong := if_pos hk
    have hturn : v.desk.Turn handler .answerPing _ := .answer hr (.inl ⟨hk, rfl⟩)
    rw [hanswer] at hturn
    exact ⟨{ h with unclaimed := fun _ _ ht => by cases ht }, hturn⟩
  · cases hu

theorem submit_desk {a : Arrival} {pool : WorkerPool PoolJob} (h : v.Ready)
    (hr : v.connection.reader = .calling a) (hf : handler ≠ none) (hk : a.message.kind ≠ .ping)
    (hp : v.pool.submit (.own a.message) = .ok pool) (hb : comeBack { v with pool } = some v') :
    v'.Ready ∧ v.desk.Turn handler .submit v'.desk := by
  rw [comeBack_of_calling hr] at hb
  cases hb
  cases hp.symm.trans (h.pool.submit (.own a.message))
  have hready := h.pool
  exact ⟨{ h with
      pool := ⟨hready.accepting, hready.staffed, hready.present⟩
      unclaimed := fun _ _ ht => by cases ht },
    .submit hr hk hf hp⟩

theorem ignore_desk {a : Arrival} (h : v.Ready) (hr : v.connection.reader = .calling a)
    (hk : a.message.kind ≠ .ping) (hb : v.comeBack = some v') :
    v'.Ready ∧ v.desk.Turn none .ignore v'.desk := by
  rw [comeBack_of_calling hr] at hb
  cases hb
  have hanswer : answer? none a.message = none := if_neg hk
  have hturn : v.desk.Turn none .ignore _ := .answer hr (.inr ⟨rfl, rfl⟩)
  rw [hanswer] at hturn
  exact ⟨{ h with unclaimed := fun _ _ ht => by cases ht }, hturn⟩

/-- A job ends once what its handler has to say is queued. -/
theorem handle_desk {w : Nat} {m : Message} {f : Handler} {panic : Option Panic} {u : Service}
    (hend : finish w panic u = some v') (hj : v.job? w = some (.own m)) (hf : handler = some f)
    (hready : u.Ready) (hpool : u.pool = v.pool)
    (hu : u.desk = { v.desk with out := v.desk.out.send ((f m).conclude m).toOption.join }) :
    v'.Ready ∧ v.desk.Turn handler (.handle w) v'.desk := by
  obtain ⟨n, hrun⟩ := eq_of_job? hj
  obtain ⟨pool, hp, rfl⟩ := Option.map_eq_some_iff.1 hend
  refine ⟨{ hready with pool := hready.pool.finish hp }, ?_⟩
  have hdesk : desk { u with pool } = { u.desk with pool } := rfl
  rw [hdesk, hu]
  exact .handle hrun hf (hpool ▸ hp)

/-- What is done with jobs of other connections changes nothing but the pool. -/
theorem submitForeign_desk {pool : WorkerPool PoolJob} (h : v.Ready)
    (hp : v.pool.submit .foreign = .ok pool) : ({ v with pool } : Service).Ready ∧
      v.desk.Turn handler .submitForeign ({ v with pool } : Service).desk := by
  cases hp.symm.trans (h.pool.submit .foreign)
  have hready := h.pool
  exact ⟨{ h with pool := ⟨hready.accepting, hready.staffed, hready.present⟩ }, .submitForeign hp⟩

theorem endForeign_desk {w : Nat} {panic : Option Panic} (h : v.Ready)
    (hj : v.job? w = some .foreign) (hend : finish w panic v = some v') :
    v'.Ready ∧ v.desk.Turn handler (.endForeign w panic) v'.desk := by
  obtain ⟨n, hrun⟩ := eq_of_job? hj
  obtain ⟨pool, hp, rfl⟩ := Option.map_eq_some_iff.1 hend
  exact ⟨{ h with pool := h.pool.finish hp }, .endForeign hrun hp⟩

/-- Every calm step of a service that makes no requests is a step of its desk. -/
theorem step_desk (h : v.Ready) (hw : v.connection.writer.isServing = true)
    (hs : v.step handler e = some v') (he : e.isCalm = true) :
    v'.Ready ∧ v.desk.Turn handler e v'.desk := by
  cases step_iff.1 hs with
  | connection _ hc => exact connection_desk h hc he
  | answerPing hr hk hu hb => exact answerPing_desk h hw hr hk hu hb
  | submit hr hf hk hp hb => exact submit_desk h hr (hf ▸ Option.some_ne_none _) hk hp hb
  | drop _ _ _ hp => cases hp.symm.trans (h.pool.submit _)
  | ignore hr hf hk hb => exact hf ▸ ignore_desk h hr hk hb
  | take hp => exact ⟨{ h with pool := h.pool.take hp }, .take hp⟩
  | answer hj hf hc hu hp =>
    rw [write_of_ready h hw] at hu
    split at hu
    · cases hu
      exact handle_desk hp hj hf { h with } rfl (by rw [hc]; rfl)
    · cases hu
  | keepSilent hj hf hc hp | giveUp hj hf hc hp =>
    exact handle_desk hp hj hf h rfl (by rw [hc]; rfl)
  | submitForeign hp => exact submitForeign_desk h hp
  | endForeign hj hp => exact endForeign_desk h hj hp

/-- A worker that runs a job can end it if there is room for an answer. -/
theorem exists_handle {w n : Nat} (h : v.Ready)
    (hw : v.connection.writer.isServing = true) (hf : handler ≠ none)
    (hroom : v.connection.queue.length < v.connection.capacity)
    (hrun : v.pool.workers[w]? = some (.running ⟨n, .own m⟩)) :
    ∃ v', v.step handler (.handle w) = some v' := by
  obtain ⟨f, rfl⟩ := Option.ne_none_iff_exists'.1 hf
  have hj : v.job? w = some (.own m) := by rw [job?, hrun]
  have hend : ∀ (c : Connection) panic, ∃ v', finish w panic { v with connection := c } = some v' :=
    fun c panic =>
      let ⟨pool, hp⟩ := WorkerPool.finish_of_running hrun panic
      ⟨_, Option.map_eq_some_iff.2 ⟨pool, hp, rfl⟩⟩
  cases hc : (f m).conclude m with
  | error cause =>
    obtain ⟨v', hp⟩ := hend v.connection (some cause)
    exact ⟨v', step_iff.2 (.giveUp hj rfl hc hp)⟩
  | ok result =>
    cases result with
    | none =>
      obtain ⟨v', hp⟩ := hend v.connection none
      exact ⟨v', step_iff.2 (.keepSilent hj rfl hc hp)⟩
    | some answer =>
      obtain ⟨v', hp⟩ := hend _ none
      have hu := (write_of_ready h hw answer).trans (if_pos hroom)
      exact ⟨v', step_iff.2 (.answer hj rfl hc hu hp)⟩

/-- While a frame or a job is not done, the reader or a worker can go on, if there is room for an
answer. -/
theorem exists_step (h : v.Ready) (hw : v.connection.writer.isServing = true)
    (hsound : v.desk.Sound handler done)
    (hroom : v.connection.queue.length < v.connection.capacity)
    (hleft : v.connection.reader ≠ .reading ∨ v.pool.unfinished ≠ []) :
    ∃ e v', e.isWork = true ∧ v.step handler e = some v' := by
  rcases hsound.reader with hr | ⟨a, hr⟩ | ⟨a, hr⟩
  · have hu := hleft.resolve_left (absurd hr)
    rcases WorkerPool.exists_step h.pool hu with ⟨w, ⟨n, job⟩, hrun⟩ | ⟨w, p, hp⟩
    · cases job with
      | own m =>
        obtain ⟨v', hs⟩ :=
          exists_handle h hw (hsound.jobs m (Desk.mem_jobs_of_running hrun)).2 hroom hrun
        exact ⟨.handle w, v', rfl, hs⟩
      | foreign =>
        obtain ⟨p, hp⟩ := WorkerPool.finish_of_running hrun none
        have hj : v.job? w = some .foreign := by rw [job?, hrun]
        exact ⟨.endForeign w none, _, rfl,
          step_iff.2 (.endForeign hj (Option.map_eq_some_iff.2 ⟨p, hp, rfl⟩))⟩
    · exact ⟨.take w, _, rfl, step_iff.2 (.take hp)⟩
  · replace hr : v.connection.reader = .claimed a none := hr
    have hstep : v.connection.step (.reader .dispatch) = some (v.connection.dispatchUnclaimed a) := by
      simp only [Connection.step, Connection.stepReader, hr]
    exact ⟨.connection (.reader .dispatch), _, rfl, step_iff.2 (.connection rfl hstep)⟩
  · replace hr : v.connection.reader = .calling a := hr
    by_cases hk : a.message.kind = .ping
    · exact ⟨.answerPing, _, rfl, step_iff.2 (.answerPing hr hk
        ((write_of_ready h hw _).trans (if_pos hroom)) (comeBack_of_calling (a := a) hr))⟩
    · cases handler with
      | none => exact ⟨.ignore, _, rfl, step_iff.2 (.ignore hr rfl hk (comeBack_of_calling hr))⟩
      | some f =>
        exact ⟨.submit, _, rfl, step_iff.2 (.submit hr rfl hk (h.pool.submit (.own a.message))
          (comeBack_of_calling (a := a) hr))⟩

end Service

end ClusterLink
