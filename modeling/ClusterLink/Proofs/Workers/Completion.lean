import ClusterLink.Proofs.Machine.Inevitable
import ClusterLink.Proofs.Workers.Jobs
import Mathlib.Data.List.Forall2
/-!
# Every job is run once

Whoever submits jobs, whichever worker takes them and however many of them are given up, a job is at
one place: in the queue, with a worker, or among those that were run. A worker leaves only when it
finds the pool shut and the queue empty, and nothing enters the queue of a pool that is shut, so all
jobs were run when the last worker has left.

Results:
* `WorkerPool.map_number_numbered`: every submitted job has a place of its own.
* `WorkerPool.accounted_of_run`: where the jobs are after any run, and what the log says.
* `WorkerPool.inOrder_of_run`: a single worker runs the jobs in the order of their submission.
* `WorkerPool.runs_every_job_once`: all of it for a pool of any name and size.
* `WorkerPool.inevitable_isOver`: once a pool is shut, its workers run what is left and leave.
-/
namespace ClusterLink

variable {Job : Type}

/-- Whether a job was given up. -/
def Completed.isGivenUp (c : Completed Job) : Bool := c.panic.isSome

/-- The line that has to be in the log of a job that was given up: an error that names the pool, the
worker and what stopped the job, as far as that is a text. -/
inductive Completed.Reports (name : String) (c : Completed Job) : LogLine → Prop
  | text {message : String} (h : c.panic = some (.text message)) :
    Reports name c
      ⟨.error, "job on " ++ name ++ "-" ++ toString c.worker ++ " panicked: " ++ message⟩
  | other (h : c.panic = some .other) :
    Reports name c
      ⟨.error, "job on " ++ name ++ "-" ++ toString c.worker ++ " panicked: " ++
        "non-string panic payload"⟩

theorem Completed.Reports.level {name : String} {c : Completed Job} {line : LogLine}
    (h : c.Reports name line) : line.level = .error := by
  cases h <;> rfl

namespace WorkerPool

/-- The job that a step submits. -/
def Event.submitted? : Event Job → Option Job
  | submit job => some job
  | _ => none

/-- The jobs that a run submits, the first one first. -/
def submittedJobs (events : List (Event Job)) : List Job := events.filterMap Event.submitted?

/-- Jobs with their places in the order of submission. -/
def numbered (jobs : List Job) : List (Submitted Job) :=
  jobs.mapIdx fun number job => ⟨number, job⟩

theorem numbered_concat (jobs : List Job) (job : Job) :
    numbered (jobs ++ [job]) = numbered jobs ++ [⟨jobs.length, job⟩] :=
  List.mapIdx_concat

/-- Each place is given once, so what is a permutation of these has every job exactly once. -/
theorem map_number_numbered (jobs : List Job) :
    (numbered jobs).map Submitted.number = List.range jobs.length := by
  refine List.ext_getElem ?_ fun i hi _ => ?_
  · rw [List.length_map, numbered, List.length_mapIdx, List.length_range]
  · rw [List.getElem_map, List.getElem_range]
    exact congrArg Submitted.number (List.getElem_mapIdx ..)

variable {p q : WorkerPool Job} {name : String} {size w : Nat} {panic : Option Panic}
  {events : List (Event Job)} {e : Event Job}

/-- The jobs that were run, in the order in which they ended. -/
def ended (p : WorkerPool Job) : List (Submitted Job) := p.completed.map Completed.submitted

/-! ## Where the jobs are -/

/-- What a pool has come to by some events. -/
structure Accounted (name : String) (events : List (Event Job)) (p : WorkerPool Job) : Prop where
  name_eq : p.name = name
  submissions : p.submissions = (submittedJobs events).length
  /-- Every submitted job has ended or is yet to end. -/
  places : (p.ended ++ p.unfinished).Perm (numbered (submittedJobs events))
  /-- Each job that was given up has its line in the log, and there are no other lines. -/
  log : List.Forall₂ (Completed.Reports name) (p.completed.filter (·.isGivenUp)) p.log
  staffed : p.workers ≠ []
  /-- Nobody leaves as long as there may be something to do. -/
  leaving : ∀ x ∈ p.workers, x.isGone = true → p.accepting = false ∧ p.queue = []

theorem accounted_new (name : String) (size : Nat) :
    Accounted name [] (new name size : WorkerPool Job) where
  name_eq := rfl
  submissions := rfl
  places := by
    rw [unfinished_new]
    exact .nil
  log := .nil
  staffed := (ready_new name size).staffed
  leaving x hx hgone := by
    rw [(ready_new name size).present x hx] at hgone
    cases hgone

theorem submittedJobs_concat (events : List (Event Job)) (e : Event Job) :
    submittedJobs (events ++ [e]) = submittedJobs events ++ e.submitted?.toList := by
  rw [submittedJobs, List.filterMap_append, List.filterMap_cons]
  cases e.submitted? <;> rfl

theorem submittedJobs_of_not_submitted (events : List (Event Job)) (he : e.submitted? = none) :
    submittedJobs (events ++ [e]) = submittedJobs events := by
  rw [submittedJobs_concat, he]
  exact List.append_nil _

/-- What a job comes to is reported if it was given up. -/
theorem reports_panicLine (name : String) (submitted : Submitted Job) (w : Nat)
    (panic : Option Panic) :
    List.Forall₂ (Completed.Reports name)
      ([(⟨submitted, w, panic⟩ : Completed Job)].filter (·.isGivenUp))
      (panic.map (panicLine name w)).toList := by
  match panic with
  | none => exact .nil
  | some (.text message) => exact .cons (.text rfl) .nil
  | some .other => exact .cons (.other rfl) .nil

/-- A step of a worker changes what that worker does and leaves the others as they are. -/
theorem gone_of_mem_set {ws : List (Worker Job)} {w : Nat} {x y : Worker Job}
    (hx : x.isGone = false) (hy : y ∈ ws.set w x) (hgone : y.isGone = true) : y ∈ ws := by
  rcases List.mem_or_eq_of_mem_set hy with hy | rfl
  · exact hy
  · rw [hx] at hgone
    cases hgone

theorem Accounted.submit (h : Accounted name events p) {job : Job} (hs : p.submit job = .ok q) :
    Accounted name (events ++ [.submit job]) q := by
  have hperm := unfinished_submit hs
  obtain ⟨hopen, rfl⟩ := eq_of_submit hs
  have hjobs : submittedJobs (events ++ [.submit job]) = submittedJobs events ++ [job] :=
    submittedJobs_concat ..
  refine ⟨h.name_eq, ?_, ?_, h.log, h.staffed, fun x hx hgone => ?_⟩
  · rw [hjobs, List.length_append, ← h.submissions]
    rfl
  · rw [hjobs, numbered_concat, ← h.submissions]
    have hmiddle := (hperm.append_left p.ended).trans List.perm_middle
    exact (hmiddle.trans (h.places.cons _)).trans (List.perm_append_singleton ..).symm
  · rw [(h.leaving x hx hgone).1] at hopen
    cases hopen

/-- A step that submits nothing leaves the account as it was if no job is lost and nobody leaves too
early. -/
theorem Accounted.of_not_submitted (h : Accounted name events p) (he : e.submitted? = none)
    (hname : q.name = p.name) (hsubmissions : q.submissions = p.submissions)
    (hplaces : (q.ended ++ q.unfinished).Perm (p.ended ++ p.unfinished))
    (hlog : List.Forall₂ (Completed.Reports name) (q.completed.filter (·.isGivenUp)) q.log)
    (hstaffed : q.workers ≠ [])
    (hleaving : ∀ x ∈ q.workers, x.isGone = true → q.accepting = false ∧ q.queue = []) :
    Accounted name (events ++ [e]) q := by
  have hjobs := submittedJobs_of_not_submitted events he
  refine ⟨hname.trans h.name_eq, ?_, ?_, hlog, hstaffed, hleaving⟩
  · rw [hjobs, hsubmissions, h.submissions]
  · rw [hjobs]
    exact hplaces.trans h.places

theorem Accounted.take (h : Accounted name events p) (ht : p.take? w = some q) :
    Accounted name (events ++ [.take w]) q := by
  have hperm := unfinished_take ht
  obtain ⟨next, later, hq, -, rfl⟩ := eq_of_take ht
  refine h.of_not_submitted rfl rfl rfl (hperm.append_left _) h.log
    (mt (List.set_eq_nil_iff ..).1 h.staffed) fun x hx hgone => ?_
  -- Somebody who had left would have found the queue empty.
  have hnone := (h.leaving x (gone_of_mem_set rfl hx hgone) hgone).2
  rw [hq] at hnone
  cases hnone

theorem Accounted.finish (h : Accounted name events p) (hf : p.finish? w panic = some q) :
    Accounted name (events ++ [.finish w panic]) q := by
  obtain ⟨s, hw, rfl⟩ := eq_of_finish hf
  have hperm := unfinished_finish hf hw
  refine h.of_not_submitted rfl rfl rfl ?_ ?_ (mt (List.set_eq_nil_iff ..).1 h.staffed)
    fun x hx hgone => h.leaving x (gone_of_mem_set rfl hx hgone) hgone
  · rw [ended, List.map_append, List.append_assoc]
    exact hperm.append_left _
  · rw [List.filter_append, h.name_eq]
    exact List.rel_append h.log (reports_panicLine name s w panic)

theorem Accounted.shut (h : Accounted name events p) :
    Accounted name (events ++ [.shut]) { p with accepting := false } :=
  h.of_not_submitted rfl rfl rfl (.refl _) h.log h.staffed fun x hx hgone =>
    ⟨rfl, (h.leaving x hx hgone).2⟩

theorem Accounted.leave (h : Accounted name events p) (hl : p.leave? w = some q) :
    Accounted name (events ++ [.leave w]) q := by
  obtain ⟨hw, hqueue, hshut, rfl⟩ := eq_of_leave hl
  obtain ⟨front, back, hwork, hset⟩ := inWork_split hw
  refine h.of_not_submitted rfl rfl rfl ?_ h.log (mt (List.set_eq_nil_iff ..).1 h.staffed)
    fun _ _ _ => ⟨hshut, hqueue⟩
  rw [unfinished, unfinished, inWork, hset, hwork]
  exact .refl _

theorem submit_of_step {job : Job} (h : p.step (.submit job) = some q) : p.submit job = .ok q := by
  rw [step] at h
  cases hp : p.submit job with
  | ok r => rw [hp] at h; exact congrArg Except.ok (Option.some.inj h)
  | error _ => rw [hp] at h; cases h

theorem eq_of_shut (h : p.step .shut = some q) : q = { p with accepting := false } := by
  rw [step] at h
  split at h
  · exact (Option.some.inj h).symm
  · cases h

/-- Every step keeps the account. -/
theorem Accounted.step (h : Accounted name events p) (hs : p.step e = some q) :
    Accounted name (events ++ [e]) q := by
  cases e with
  | submit job => exact h.submit (submit_of_step hs)
  | take w => exact h.take hs
  | finish w panic => exact h.finish hs
  | shut =>
    rw [eq_of_shut hs]
    exact h.shut
  | leave w => exact h.leave hs

/-- After any run every job is accounted for. -/
theorem accounted_of_run (hrun : (machine name size).run (new name size) events = some p) :
    Accounted name events p :=
  @Machine.run_induction _ _ _ (Accounted name) _ _ (accounted_new name size)
    (fun _ _ _ _ _ h hs => h.step hs) _ hrun

/-- There is nothing but errors in the log. -/
theorem Accounted.level_of_mem (h : Accounted name events p) {line : LogLine}
    (hline : line ∈ p.log) : line.level = .error := by
  obtain ⟨i, hi, rfl⟩ := List.mem_iff_getElem.1 hline
  have hi' : i < (p.completed.filter (·.isGivenUp)).length := h.log.length_eq ▸ hi
  exact (h.log.get hi' hi).level

/-- A pool that is accepting jobs has all its workers, so it takes every job. -/
theorem Accounted.ready (h : Accounted name events p) (hopen : p.accepting = true) : p.Ready where
  accepting := hopen
  staffed := h.staffed
  present x hx := by
    refine Bool.eq_false_iff.2 fun hgone => ?_
    rw [(h.leaving x hx hgone).1] at hopen
    cases hopen

theorem Accounted.unfinished_of_isOver (h : Accounted name events p) (hover : p.isOver = true) :
    p.unfinished = [] := by
  obtain ⟨-, hserved⟩ := Bool.and_eq_true_iff.1 hover
  have hgone : ∀ x ∈ p.workers, x.isGone = true := by
    simpa [isServed] using hserved
  obtain ⟨x, xs, hx⟩ := List.exists_cons_of_ne_nil h.staffed
  have hfirst : x ∈ p.workers := by rw [hx]; exact List.mem_cons_self ..
  have hidle : p.inWork = [] := by
    refine List.filterMap_eq_nil_iff.2 fun y hy => ?_
    have hy' := hgone y hy
    cases y with
    | gone => rfl
    | _ => cases hy'
  rw [unfinished, (h.leaving x hfirst (hgone x hfirst)).2, hidle]
  rfl

/-! ## A single worker -/

/-- Whether there is one worker, and the jobs are, the first submitted one first, those that have
ended, the one that runs and those that wait. -/
structure InOrder (events : List (Event Job)) (p : WorkerPool Job) : Prop where
  single : ∃ x, p.workers = [x]
  order : p.ended ++ (p.inWork ++ p.queue) = numbered (submittedJobs events)

theorem single_of_getElem? {x y : Worker Job} (h : p.workers = [x])
    (hw : p.workers[w]? = some y) : p.workers = [y] ∧ ∀ z, p.workers.set w z = [z] := by
  rw [h] at hw ⊢
  cases w with
  | zero => exact ⟨congrArg ([·]) (Option.some.inj hw), fun z => rfl⟩
  | succ w => cases hw

/-- A single worker takes the oldest job after it has ended the one before. -/
theorem InOrder.step (h : InOrder events p) (ha : Accounted name events p) (hs : p.step e = some q) :
    InOrder (events ++ [e]) q := by
  obtain ⟨⟨x, hx⟩, horder⟩ := h
  cases e with
  | submit job =>
    obtain ⟨-, rfl⟩ := eq_of_submit (submit_of_step hs)
    have hjobs : submittedJobs (events ++ [.submit job]) = submittedJobs events ++ [job] :=
      submittedJobs_concat ..
    refine ⟨⟨x, hx⟩, ?_⟩
    rw [hjobs, numbered_concat, ← horder, ← ha.submissions]
    simp only [List.append_assoc]
    rfl
  | take w =>
    obtain ⟨next, later, hq, hw, rfl⟩ := eq_of_take hs
    obtain ⟨hidle, hset⟩ := single_of_getElem? hx hw
    refine ⟨⟨_, hset _⟩, ?_⟩
    rw [inWork, hidle, hq] at horder
    rw [submittedJobs_of_not_submitted _ rfl, ← horder, inWork, hset]
    rfl
  | finish w panic =>
    obtain ⟨s, hw, rfl⟩ := eq_of_finish hs
    obtain ⟨hrunning, hset⟩ := single_of_getElem? hx hw
    refine ⟨⟨_, hset _⟩, ?_⟩
    rw [inWork, hrunning] at horder
    rw [submittedJobs_of_not_submitted _ rfl, ← horder, inWork, hset, ended, List.map_append,
      List.append_assoc]
    rfl
  | shut =>
    rw [eq_of_shut hs]
    refine ⟨⟨x, hx⟩, ?_⟩
    rw [submittedJobs_of_not_submitted _ rfl, ← horder]
    rfl
  | leave w =>
    obtain ⟨hw, -, -, rfl⟩ := eq_of_leave hs
    obtain ⟨hidle, hset⟩ := single_of_getElem? hx hw
    refine ⟨⟨_, hset _⟩, ?_⟩
    rw [inWork, hidle] at horder
    rw [submittedJobs_of_not_submitted _ rfl, ← horder, inWork, hset]
    rfl

theorem inOrder_of_run (hsize : size ≤ 1)
    (hrun : (machine name size).run (new name size) events = some p) : InOrder events p := by
  have hnew : InOrder [] (new name size : WorkerPool Job) := by
    have hidle : (new name size : WorkerPool Job).workers = [.idle] := by
      rw [new, Nat.max_eq_right hsize]
      rfl
    refine ⟨⟨.idle, hidle⟩, ?_⟩
    rw [inWork, hidle]
    rfl
  exact @Machine.run_induction _ _ _ InOrder _ _ hnew
    (fun _ _ _ _ hdone h hs => h.step (accounted_of_run hdone) hs) _ hrun

/-! ## The whole life of a pool -/

/-- **A worker pool runs every job once.** Whatever its name and its size, whoever submits what when,
whichever worker does the next step and however the jobs end:
* as long as the pool is accepting jobs, it takes every job;
* a worker that has left has found the pool shut and the queue empty;
* the jobs that have ended and those that have not are the submitted ones, each of them once;
* the log has an error for each job that was given up, in the order in which they ended, and no other
  line: as many errors as there are such jobs;
* when the pool is shut and all workers have left, all jobs have ended;
* a single worker runs them in the order in which they were submitted. -/
theorem runs_every_job_once
    (hrun : (machine name size).run (new name size) events = some p) :
    (p.accepting = true → ∀ job, ∃ q, p.submit job = .ok q) ∧
      (∀ x ∈ p.workers, x.isGone = true → p.accepting = false ∧ p.queue = []) ∧
      (p.ended ++ p.unfinished).Perm (numbered (submittedJobs events)) ∧
      List.Forall₂ (Completed.Reports name) (p.completed.filter (·.isGivenUp)) p.log ∧
      p.log.countP (·.level = .error) = p.completed.countP (·.isGivenUp) ∧
      p.log.length = p.completed.countP (·.isGivenUp) ∧
      (p.isOver = true → p.ended.Perm (numbered (submittedJobs events))) ∧
      (size ≤ 1 → p.ended ++ (p.inWork ++ p.queue) = numbered (submittedJobs events)) := by
  have h := accounted_of_run hrun
  have hlines : p.log.length = p.completed.countP (·.isGivenUp) := by
    rw [List.countP_eq_length_filter, h.log.length_eq]
  have herrors : p.log.countP (·.level = .error) = p.log.length :=
    List.countP_eq_length.2 fun line hline => decide_eq_true (h.level_of_mem hline)
  refine ⟨fun hopen job => ⟨_, (h.ready hopen).submit job⟩, h.leaving, h.places, h.log,
    herrors.trans hlines, hlines, fun hover => ?_, fun hsize => (inOrder_of_run hsize hrun).order⟩
  have hall := h.places
  rwa [h.unfinished_of_isOver hover, List.append_nil] at hall

/-! ### Two workers, three jobs -/

/-- The second job overtakes the first and is given up, as is the third, which is still queued when
the pool is shut. -/
private def overtaking : List (Event Nat) :=
  [.submit 10, .submit 20, .take 0, .take 1, .finish 1 (some (.text "no")), .submit 30, .shut,
    .take 1, .finish 0 none, .leave 0, .finish 1 (some .other), .leave 1]

theorem three_jobs_are_run_once : ∃ p : WorkerPool Nat,
    (machine "pool" 2).run (new "pool" 2) overtaking = some p ∧ p.isOver = true ∧
      p.ended = [⟨1, 20⟩, ⟨0, 10⟩, ⟨2, 30⟩] ∧ p.ended.Perm [⟨0, 10⟩, ⟨1, 20⟩, ⟨2, 30⟩] ∧
      p.log = [⟨.error, "job on pool-1 panicked: no"⟩,
        ⟨.error, "job on pool-1 panicked: non-string panic payload"⟩] ∧
      p.log.countP (·.level = .error) = 2 := by
  have hjobs : numbered (submittedJobs overtaking) = [⟨0, 10⟩, ⟨1, 20⟩, ⟨2, 30⟩] := rfl
  obtain ⟨p, hrun, hover, hended, hgivenUp, hlog⟩ : ∃ p : WorkerPool Nat,
      (machine "pool" 2).run (new "pool" 2) overtaking = some p ∧ p.isOver = true ∧
        p.ended = [⟨1, 20⟩, ⟨0, 10⟩, ⟨2, 30⟩] ∧ p.completed.countP (·.isGivenUp) = 2 ∧
        p.log = [⟨.error, "job on pool-1 panicked: no"⟩,
          ⟨.error, "job on pool-1 panicked: non-string panic payload"⟩] :=
    ⟨_, rfl, rfl, rfl, by decide, by decide⟩
  obtain ⟨-, -, -, -, herrors, -, hall, -⟩ := runs_every_job_once hrun
  exact ⟨p, hrun, hover, hended, hjobs ▸ hall hover, hlog, herrors.trans hgivenUp⟩

/-! ## After a pool is shut -/

/-- Whether a step is one of a worker. -/
def Event.isWork : Event Job → Bool
  | take _ | finish _ _ | leave _ => true
  | submit _ | shut => false

/-- How many workers have not left. -/
def present (p : WorkerPool Job) : Nat := p.workers.countP (!·.isGone)

theorem not_submitted_of_isWork (he : e.isWork = true) : e.submitted? = none := by
  cases e with
  | submit job => cases he
  | _ => rfl

/-- Every step of a worker ends a job, begins one or is the worker's last. -/
theorem lowers_of_isWork (he : e.isWork = true) (hs : p.step e = some q) :
    Machine.Lowers [workload, present] q p ∧ q.accepting = p.accepting := by
  cases e with
  | submit job => cases he
  | shut => cases he
  | take w =>
    refine ⟨.head (workload_take hs), ?_⟩
    obtain ⟨_, _, -, -, rfl⟩ := eq_of_take hs
    rfl
  | finish w panic =>
    refine ⟨.head (workload_finish hs), ?_⟩
    obtain ⟨_, -, rfl⟩ := eq_of_finish hs
    rfl
  | leave w =>
    obtain ⟨hw, -, -, rfl⟩ := eq_of_leave hs
    obtain ⟨front, back, hwork, hset⟩ := inWork_split hw
    refine ⟨.cons ?_ (.head ?_), rfl⟩
    · rw [workload, workload, inWork, hset, hwork]
      rfl
    · obtain ⟨hlt, hidle⟩ := List.getElem?_eq_some_iff.1 hw
      have hpos : 0 < p.workers.countP (!·.isGone) :=
        List.countP_pos_iff.2 ⟨.idle, List.mem_of_getElem? hw, rfl⟩
      simp only [present, List.countP_set hlt, hidle, Worker.isGone]
      exact Nat.sub_lt hpos Nat.one_pos

/-- A worker of a pool that is shut can go on until it has left. -/
theorem exists_work {x : Worker Job} (hshut : p.accepting = false) (hw : p.workers[w]? = some x)
    (hx : x.isGone = false) : ∃ e q, e.isWork = true ∧ p.step e = some q := by
  cases x with
  | gone => cases hx
  | running s =>
    obtain ⟨q, hq⟩ := finish_of_running hw none
    exact ⟨.finish w none, q, rfl, hq⟩
  | idle =>
    cases hq : p.queue with
    | nil =>
      refine ⟨.leave w, { p with workers := p.workers.set w .gone }, rfl, ?_⟩
      simp only [step, leave?, hw, hq, hshut]
      rfl
    | cons next later =>
      refine ⟨.take w, { p with workers := p.workers.set w (.running next), queue := later }, rfl,
        ?_⟩
      simp only [step, take?, hw, hq]

/-- Once a pool is shut, its workers come to have run every job and to have left, however they take
turns. -/
theorem inevitable_isOver (hrun : (machine name size).run (new name size) events = some p)
    (hshut : p.accepting = false) :
    (machine name size).Inevitable (fun e => e.isWork = true)
      (fun q => q.isOver = true ∧ q.ended.Perm (numbered (submittedJobs events))) p := by
  refine @Machine.inevitable_of_lowers _ _ _ _ _
    (fun q => q.accepting = false ∧
      ∃ all, submittedJobs all = submittedJobs events ∧ Accounted name all q)
    [workload, present] ?_ ?_ _ ⟨hshut, events, rfl, accounted_of_run hrun⟩
  · rintro q e r ⟨hq, all, hall, hacc⟩ he hs
    obtain ⟨hlow, hkept⟩ := lowers_of_isWork he hs
    refine ⟨⟨hkept.trans hq, all ++ [e], ?_, hacc.step hs⟩, hlow⟩
    rw [submittedJobs_of_not_submitted _ (not_submitted_of_isWork he), hall]
  · rintro q ⟨hq, all, hall, hacc⟩ hstuck
    have hover : q.isOver = true := by
      rw [isOver, hq, isServed, Bool.not_false, Bool.true_and, Bool.not_eq_true', List.any_eq_false]
      intro x hx
      obtain ⟨w, hw⟩ := List.getElem?_of_mem hx
      intro hpresent
      obtain ⟨e, r, he, hs⟩ := exists_work hq hw (by simpa using hpresent)
      exact absurd (hs.symm.trans (hstuck e he)) (Option.some_ne_none r)
    refine ⟨hover, ?_⟩
    have hplaces := hacc.places
    rwa [hacc.unfinished_of_isOver hover, List.append_nil, hall] at hplaces

end WorkerPool
end ClusterLink
