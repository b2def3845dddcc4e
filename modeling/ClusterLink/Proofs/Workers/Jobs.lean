import ClusterLink.Workers.Pool
/-!
# Jobs between users and workers

A job that was submitted waits in the queue, then a worker runs it, and it ends once. Whoever takes
it, no job is lost and none is run twice.

Results:
* `WorkerPool.unfinished_submit`, `WorkerPool.unfinished_take`, `WorkerPool.unfinished_finish`: what
  a step does to the jobs that have not ended.
* `WorkerPool.exists_step`: while there are such jobs, some worker can go on.
-/
namespace ClusterLink

variable {Job : Type}

/-- The job that a worker runs. -/
def Worker.job? : Worker Job → Option (Submitted Job)
  | running job => some job
  | _ => none

namespace WorkerPool

variable {p q : WorkerPool Job} {w : Nat} {s : Submitted Job} {x : Worker Job} {panic : Option Panic}

/-- The jobs that run. -/
def inWork (p : WorkerPool Job) : List (Submitted Job) := p.workers.filterMap Worker.job?

/-- The jobs that have not ended. -/
def unfinished (p : WorkerPool Job) : List (Submitted Job) := p.queue ++ p.inWork

/-- How many steps the workers have to take until all jobs have ended. -/
def workload (p : WorkerPool Job) : Nat := 2 * p.queue.length + p.inWork.length

/-- Whether the pool takes jobs and all of its workers are there. -/
structure Ready (p : WorkerPool Job) : Prop where
  accepting : p.accepting = true
  staffed : p.workers ≠ []
  present : ∀ x ∈ p.workers, x.isGone = false

theorem ready_new (name : String) (size : Nat) : (new name size : WorkerPool Job).Ready where
  accepting := rfl
  staffed h := by
    have := (List.replicate_eq_nil_iff _).1 h
    omega
  present x hx := by
    rw [List.eq_of_mem_replicate hx]
    rfl

theorem unfinished_new (name : String) (size : Nat) :
    (new name size : WorkerPool Job).unfinished = [] := by
  refine List.filterMap_eq_nil_iff.2 fun x hx => ?_
  rw [List.eq_of_mem_replicate hx]
  rfl

/-- What a worker runs is somewhere among what runs. -/
theorem inWork_split (h : p.workers[w]? = some x) :
    ∃ front back, p.inWork = front ++ (x.job?.toList ++ back) ∧
      ∀ y, (p.workers.set w y).filterMap Worker.job? = front ++ (y.job?.toList ++ back) := by
  obtain ⟨hlt, hx⟩ := List.getElem?_eq_some_iff.1 h
  have hset : ∀ y, (p.workers.set w y).filterMap Worker.job? =
      (p.workers.take w).filterMap Worker.job? ++
        (y.job?.toList ++ (p.workers.drop (w + 1)).filterMap Worker.job?) := by
    intro y
    rw [List.set_eq_take_append_cons_drop, if_pos hlt, List.filterMap_append, List.filterMap_cons]
    cases y.job? <;> rfl
  refine ⟨_, _, ?_, hset⟩
  rw [← hset x, ← hx, List.set_getElem_self]
  rfl

/-- What putting a job into the queue comes to. -/
theorem eq_of_submit {job : Job} (h : p.submit job = .ok q) :
    p.accepting = true ∧
      q = { p with queue := p.queue ++ [⟨p.submissions, job⟩], submissions := p.submissions + 1 } := by
  unfold submit at h
  split at h
  · next hopen => cases h; exact ⟨(Bool.and_eq_true_iff.1 hopen).1, rfl⟩
  · cases h

/-- What taking a job comes to. -/
theorem eq_of_take (h : p.take? w = some q) :
    ∃ next later, p.queue = next :: later ∧ p.workers[w]? = some .idle ∧
      q = { p with workers := p.workers.set w (.running next), queue := later } := by
  unfold take? at h
  split at h
  · next next later hw hq => cases h; exact ⟨next, later, hq, hw, rfl⟩
  · cases h

/-- What ending a job comes to. -/
theorem eq_of_finish (h : p.finish? w panic = some q) :
    ∃ s, p.workers[w]? = some (.running s) ∧
      q = { p with
        workers := p.workers.set w .idle
        completed := p.completed ++ [⟨s, w, panic⟩]
        log := p.log ++ (panic.map (panicLine p.name w)).toList } := by
  unfold finish? at h
  split at h
  · next s hw => cases h; exact ⟨s, hw, rfl⟩
  · cases h

/-- What a worker's leaving comes to. -/
theorem eq_of_leave (h : p.leave? w = some q) :
    p.workers[w]? = some .idle ∧ p.queue = [] ∧ p.accepting = false ∧
      q = { p with workers := p.workers.set w .gone } := by
  unfold leave? at h
  split at h
  · next hw hq =>
    split at h
    · cases h
    · next hacc => cases h; exact ⟨hw, hq, Bool.eq_false_iff.2 hacc, rfl⟩
  · cases h

theorem finish_of_running (h : p.workers[w]? = some (.running s)) (panic : Option Panic) :
    ∃ q, p.finish? w panic = some q := by
  simp only [finish?, h]
  exact ⟨_, rfl⟩

/-- A ready pool takes every job. -/
theorem Ready.submit (h : p.Ready) (job : Job) :
    p.submit job = .ok { p with
      queue := p.queue ++ [⟨p.submissions, job⟩], submissions := p.submissions + 1 } := by
  obtain ⟨x, xs, hx⟩ := List.exists_cons_of_ne_nil h.staffed
  have hserved : p.isServed = true := by
    unfold isServed
    rw [hx, List.any_cons, h.present x (by rw [hx]; exact List.mem_cons_self ..)]
    rfl
  rw [WorkerPool.submit, h.accepting, hserved]
  rfl

theorem Ready.set (h : p.Ready) (hx : x.isGone = false) :
    (p.workers.set w x ≠ []) ∧ ∀ y ∈ p.workers.set w x, y.isGone = false := by
  refine ⟨fun he => h.staffed ((List.set_eq_nil_iff w x).1 he), fun y hy => ?_⟩
  rcases List.mem_or_eq_of_mem_set hy with hy | rfl
  · exact h.present y hy
  · exact hx

theorem Ready.take (h : p.Ready) (ht : p.take? w = some q) : q.Ready := by
  obtain ⟨next, later, -, -, rfl⟩ := eq_of_take ht
  obtain ⟨h₁, h₂⟩ := h.set (w := w) (x := .running next) rfl
  exact ⟨h.accepting, h₁, h₂⟩

theorem Ready.finish (h : p.Ready) (hf : p.finish? w panic = some q) : q.Ready := by
  obtain ⟨s, -, rfl⟩ := eq_of_finish hf
  obtain ⟨h₁, h₂⟩ := h.set (w := w) (x := .idle) rfl
  exact ⟨h.accepting, h₁, h₂⟩

theorem unfinished_submit {job : Job} (hs : p.submit job = .ok q) :
    q.unfinished.Perm (⟨p.submissions, job⟩ :: p.unfinished) := by
  obtain ⟨-, rfl⟩ := eq_of_submit hs
  rw [unfinished, List.append_assoc]
  exact List.perm_middle

theorem unfinished_take (h : p.take? w = some q) : q.unfinished.Perm p.unfinished := by
  obtain ⟨next, later, hq, hw, rfl⟩ := eq_of_take h
  obtain ⟨front, back, hwork, hset⟩ := inWork_split hw
  rw [unfinished, unfinished, inWork, hset, hwork, hq, ← List.append_assoc]
  exact List.perm_middle.trans (.of_eq (by simp [Worker.job?]))

theorem unfinished_finish (h : p.finish? w panic = some q)
    (hw : p.workers[w]? = some (.running s)) : (s :: q.unfinished).Perm p.unfinished := by
  obtain ⟨s', hw', rfl⟩ := eq_of_finish h
  cases hw.symm.trans hw'
  obtain ⟨front, back, hwork, hset⟩ := inWork_split hw
  have hperm : (s :: ((p.queue ++ front) ++ back)).Perm ((p.queue ++ front) ++ s :: back) :=
    List.perm_middle.symm
  rw [unfinished, unfinished, inWork, hset, hwork]
  simpa [Worker.job?] using hperm

theorem workload_take (h : p.take? w = some q) : q.workload < p.workload := by
  have hlen := (unfinished_take h).length_eq
  obtain ⟨next, later, hq, -, rfl⟩ := eq_of_take h
  simp only [unfinished, List.length_append, hq, List.length_cons] at hlen
  simp only [workload, hq, List.length_cons]
  omega

theorem workload_finish (h : p.finish? w panic = some q) : q.workload < p.workload := by
  obtain ⟨s, hw, heq⟩ := eq_of_finish h
  have hlen := (unfinished_finish h hw).length_eq
  have hqueue : q.queue = p.queue := by rw [heq]
  simp only [unfinished, List.length_cons, List.length_append, hqueue] at hlen
  simp only [workload, hqueue]
  omega

theorem mem_unfinished_of_running (h : p.workers[w]? = some (.running s)) : s ∈ p.unfinished :=
  List.mem_append_right _ (List.mem_filterMap.2 ⟨_, List.mem_of_getElem? h, rfl⟩)

/-- While jobs have not ended, one of them runs or can be taken. -/
theorem exists_step (h : p.Ready) (hu : p.unfinished ≠ []) :
    (∃ (w : Nat) (s : Submitted Job), p.workers[w]? = some (.running s)) ∨
      ∃ w q, p.take? w = some q := by
  by_cases hrun : ∃ (w : Nat) (s : Submitted Job), p.workers[w]? = some (.running s)
  · exact Or.inl hrun
  · -- Nobody runs a job, so the first worker is idle and there is a job for it.
    obtain ⟨x, xs, hx⟩ := List.exists_cons_of_ne_nil h.staffed
    have hfirst : p.workers[0]? = some x := by rw [hx]; rfl
    have hidle : x = .idle := by
      have hgone := h.present x (List.mem_of_getElem? hfirst)
      cases x with
      | idle => rfl
      | running s => exact absurd ⟨0, s, hfirst⟩ hrun
      | gone => cases hgone
    have hnone : p.inWork = [] := by
      refine List.filterMap_eq_nil_iff.2 fun y hy => ?_
      obtain ⟨w, hw⟩ := List.getElem?_of_mem hy
      cases y with
      | running s => exact absurd ⟨w, s, hw⟩ hrun
      | _ => rfl
    rw [unfinished, hnone, List.append_nil] at hu
    obtain ⟨next, later, hq⟩ := List.exists_cons_of_ne_nil hu
    refine Or.inr ⟨0, { p with workers := p.workers.set 0 (.running next), queue := later }, ?_⟩
    simp only [take?, hfirst, hidle, hq]

end WorkerPool

end ClusterLink
