import ClusterLink.Proofs.Connection.Outliving
import ClusterLink.Proofs.Connection.Refusals
import ClusterLink.Proofs.Connection.Wire
/-!
# What a request comes to

A request comes back with a frame that came in under its id since it was made, or because its time is
up, the connection is closed or its id is taken. It always comes back, as its caller waits for nobody
but the writer, and for the writer only if the queue is full.

Results:
* `Connection.comesBack_of_sendResult?`: all that a request can come to.
* `Connection.work_stepWriter`: every step of the writer leaves it less to do.
* `Connection.exists_step_of_unfinished`: who can go on while a request has not come back.
-/
namespace ClusterLink

/-- How many steps the writer has to take at most without a further frame. -/
def Writer.work : Writer → Nat
  | holding frame => 6 + frame.length
  | writing frame done => 5 + (frame.length - done)
  | idle => 4
  | w => w.toGo

theorem Writer.work_of_isStopped {w : Writer} (h : w.isStopped = true) : w.work = w.toGo := by
  cases w <;> first | rfl | cases h

namespace Outgoing

/-- How many steps the writer has to take at most until it waits for a frame or is over. -/
def work (o : Outgoing) : Nat := (o.queue.map fun frame => 3 + frame.length).sum + o.writer.work

/-- A step of the writer leaves it less to do, if one that it takes after it has stopped does. -/
theorem Step.work_lt {o p : Outgoing} {closed : Bool} {x : WriterEvent}
    (h : o.Step closed (.writer x) p) (hx : x ≠ .interrupted)
    (hstopped : o.writer.isStopped = true → p.writer.toGo < o.writer.toGo) : p.work < o.work := by
  cases h with
  | rest hno => exact absurd rfl (hno x)
  | queue _ hno => exact absurd rfl (hno x)
  | write h _ =>
    cases h with
    | fetch hw hq =>
      simp only [work, hw, hq, Writer.work, List.map_cons, List.sum_cons]
      omega
    | look hw => simp [work, hw, Writer.work]
    | accept hw hn hle =>
      simp only [work, hw, Writer.work]
      omega
    | interrupted => exact absurd rfl hx
    | flush hw => simp [work, hw, Writer.work]
  | runDry hw => simp [work, hw, Writer.work, Writer.toGo]
  | discard hw _ =>
    simp only [work, hw, Writer.work, Writer.toGo]
    omega
  | fail hw hlt =>
    simp only [work, hw, Writer.work, Writer.toGo]
    omega
  | failFlush hw => simp [work, hw, Writer.work, Writer.toGo]
  | wind hw hw' =>
    rw [work, work, Writer.work_of_isStopped hw, Writer.work_of_isStopped hw']
    exact Nat.add_lt_add_left (hstopped hw) _

end Outgoing

namespace Connection

variable {options : ConnectionOptions} {c d : Connection} {events before after : List ConnectionEvent}
  {t : Ticket} {q : Request} {m : Message}

/-! ## The result of a request -/

/-- What a request comes to that is made after some steps on a connection and is followed by others,
those of its caller among them. -/
def sendResult? (c : Connection) (m : Message) (before after : List ConnectionEvent) :
    Option (Except ConnectionError Message) := do
  let found ← c.run before
  let left ← (found.send m).run after
  (left.result? found.requests.length).map (·.map Arrival.message)

/-- What a request can come to, if some steps have been taken since it was made. -/
inductive ComesBack (m : Message) (since : List ConnectionEvent) :
    Except ConnectionError Message → Prop
  | answered {response : Message} (hid : response.id = m.id)
      (hcame : .reader (.arrive response) ∈ since) : ComesBack m since (.ok response)
  | timedOut (wait : Duration) : ComesBack m since (.error (.timeout m.id wait))
  | closed : ComesBack m since (.error .closed)
  | duplicate : ComesBack m since (.error (.duplicateId m.id))

/-- A frame that is there now and was not there before has come in. -/
theorem came_in (hrun : c.run events = some d) {n : Nat} {message : Message}
    (hn : c.history.arrivals.length ≤ n) (hm : d.history.arrivals[n]? = some message) :
    .reader (.arrive message) ∈ events := by
  refine kept_of_run_mem (P := fun u => ∀ n message, c.history.arrivals.length ≤ n →
    u.history.arrivals[n]? = some message → .reader (.arrive message) ∈ events) ?_ ?_ hrun n message
    hn hm
  · intro u e v he hu hs n message hn hm
    rcases (step_books hs).arrivals_cases with hsame | ⟨m', rfl, -, hbooks⟩
    · exact hu n message hn ((congrArg (·[n]?) hsame).symm.trans hm)
    · have hconcat : v.history.arrivals = u.history.arrivals ++ [m'] := congrArg Books.arrivals hbooks
      rw [hconcat, List.getElem?_append] at hm
      split at hm
      · exact hu n message hn hm
      · obtain rfl : message = m' := List.mem_singleton.1 (List.mem_of_getElem? hm)
        exact he
  · intro n message hn hm
    rw [List.getElem?_eq_none hn] at hm
    cases hm

/-- **A request comes back** with a response, or for want of time, of a connection or of an id. -/
theorem comesBack_of_sendResult? (hc : (machine options).Reachable c)
    {result : Except ConnectionError Message}
    (h : c.sendResult? m before after = some result) : ComesBack m after result := by
  obtain ⟨found, hfound, h⟩ := Option.bind_eq_some_iff.1 h
  obtain ⟨left, hleft, h⟩ := Option.bind_eq_some_iff.1 h
  obtain ⟨outcome, houtcome, rfl⟩ := Option.map_eq_some_iff.1 h
  obtain ⟨q, hq, hresult⟩ := Option.bind_eq_some_iff.1 houtcome
  have hreach := reachable_of_run hc hfound
  have hd := reachable_of_run (hreach.step (e := .send m) rfl) hleft
  have hmessage : q.message = m := message_of_run hreach hleft hq
  have hstage := Request.stage_of_result hresult
  have htimely := timely hd _ q hq
  cases outcome with
  | ok a =>
    obtain ⟨hdelivered, hid, hsince⟩ :=
      (coherent hd).filled _ q a hq ((coherent hd).answered _ q a hq hstage)
    have harrived := (accounted hd).arrived_of_places (Books.places_pos_of_delivered hdelivered)
    -- The request was not there before, so it was registered after all frames from before.
    have hrun : found.run (.send m :: after) = some left := by rwa [run_cons]
    have hle := (later_of_run (timely hreach) hrun).length_le_since (timely hd) hq
      (htimely.answered a hstage) fun r hr =>
        absurd (List.getElem?_eq_some_iff.1 hr).1 (Nat.lt_irrefl _)
    exact .answered (by rw [← hid, hmessage]) (came_in hleft (Nat.le_trans hle hsince) harrived)
  | error cause =>
    rw [← hmessage]
    cases hsent : q.sent with
    | true =>
      obtain rfl | ⟨wait, rfl⟩ := htimely.failed cause hstage hsent
      · exact .closed
      · exact .timedOut wait
    | false =>
      rcases saysWhy hd _ q hq hsent _ hstage with heq | heq
      · cases heq
        exact .closed
      · cases heq
        exact .duplicate

/-! ## Going on -/

/-- **Every step of the writer leaves it less to do**, except that an interruption changes nothing. -/
theorem work_stepWriter {x : WriterEvent} (h : c.stepWriter x = some d) (hx : x ≠ .interrupted) :
    d.outgoing.work < c.outgoing.work :=
  (stepWriter_sending h).work_lt hx (toGo_of_stopped h)

/-- Where a caller has to wait for room, the writer can make some. -/
theorem exists_writer_step_of_full (hw : c.writer.IsWithin) (hserving : c.writer.isServing = true)
    (hfull : c.capacity ≤ c.queue.length) :
    ∃ x d, x ≠ .interrupted ∧ c.step (.writer x) = some d := by
  have hqueue : c.queue ≠ [] := by
    intro hempty
    rw [hempty] at hfull
    exact absurd (Nat.le_trans (Nat.le_max_right _ 1) hfull) (by decide)
  cases hwriter : c.writer with
  | failed cause =>
    exact ⟨.lookAfterFailure, _, by decide, by simp only [step, stepWriter, hwriter]; rfl⟩
  | idle | holding | writing =>
    have hwork : c.writer.IsAtWork := by
      rw [hwriter] at hw ⊢
      exact hw
    obtain ⟨x, d, -, hx, hs⟩ := exists_writer_step hwork (Or.inr hqueue)
    exact ⟨x, d, hx, hs⟩
  | _ => rw [hwriter] at hserving; cases hserving

/-- **A caller waits for nobody but the writer.** As long as a request has not come back, it or the
writer can go on. -/
theorem exists_step_of_unfinished (hw : c.writer.IsWithin) (hq : c.requests[t]? = some q)
    (ho : q.isOver = false) : (∃ x d, c.step (.request t x) = some d) ∨
      ∃ x d, x ≠ .interrupted ∧ c.step (.writer x) = some d := by
  rcases exists_step_or_full hq ho with hown | ⟨-, hserving, hfull⟩
  · exact Or.inl hown
  · exact Or.inr (exists_writer_step_of_full hw hserving hfull)

end Connection
end ClusterLink
