import ClusterLink.Proofs.Connection.Slots
/-!
# Where the frames go

A frame that came in is in the reader's hand until the reader has put it into a slot, found that the
slot's request has come back, dropped the frame as late, or passed it on as one that nobody asked
for. Each frame takes exactly one of these ways, and what is passed on is what the callback is
handed.

Results:
* `Connection.accounted`: in every reachable state each frame is in exactly one place.
* `Connection.run_handed`: the callback is handed the frames that nobody asked for, in their order.
-/
namespace ClusterLink

theorem eq_of_countP_le_one {α : Type} {p : α → Bool} {l : List α} (h : l.countP p ≤ 1)
    {x y : α} (hx : x ∈ l) (hpx : p x = true) (hy : y ∈ l) (hpy : p y = true) : x = y := by
  rw [List.countP_eq_length_filter] at h
  have hx' := List.mem_filter.2 ⟨hx, hpx⟩
  have hy' := List.mem_filter.2 ⟨hy, hpy⟩
  match hl : l.filter p, h with
  | [], _ => rw [hl] at hx'; cases hx'
  | [z], _ =>
    rw [hl, List.mem_singleton] at hx' hy'
    exact hx'.trans hy'.symm

namespace Books

variable {isOpen : Bool} {b b' : Books} {t u : Ticket} {a a' : Arrival}

/-- How often a frame is found in the books. -/
def places (b : Books) (a : Arrival) : Nat :=
  b.delivered.countP (·.2 = a) + b.orphaned.countP (·.2 = a) + b.late.count a + b.unasked.count a +
    if b.hand.map Prod.fst = some a then 1 else 0

/-- Each frame that came in is in one place, and no other frame is anywhere. -/
def Accounted (b : Books) : Prop :=
  ∀ a, b.places a = if b.arrivals[a.number]? = some a.message then 1 else 0

/-- The frame that comes in takes the next number. -/
theorem getElem?_arrivals_concat (ms : List Message) (m : Message) (a : Arrival) :
    (if (ms ++ [m])[a.number]? = some a.message then 1 else 0) =
      (if ms[a.number]? = some a.message then 1 else 0) +
        if (⟨ms.length, m⟩ : Arrival) = a then 1 else 0 := by
  obtain ⟨n, m'⟩ := a
  simp only [Arrival.mk.injEq]
  rcases Nat.lt_trichotomy n ms.length with hn | rfl | hn
  · rw [List.getElem?_append_left hn, if_neg (c := ms.length = n ∧ m = m') (by omega)]
    omega
  · simp
  · rw [List.getElem?_eq_none (by simp only [List.length_append, List.length_singleton]; omega),
      List.getElem?_eq_none (by omega), if_neg (c := ms.length = n ∧ m = m') (by omega)]
    rfl

namespace Accounted

theorem step {e : ConnectionEvent} (h : b.Accounted) (hc : b.Coherent) (hs : b.Step isOpen e b') :
    b'.Accounted := by
  intro a
  have ha := h a
  cases hs with
  | aside => exact ha
  | send => exact ha
  | move => exact ha
  | register => exact ha
  | withdraw =>
    simp only [places, delivered_withdraw, orphaned_withdraw, late_withdraw, unasked_withdraw,
      hand_withdraw, arrivals_withdraw]
    exact ha
  | giveUp =>
    simp only [places, delivered_giveUp, orphaned_giveUp, late_giveUp, unasked_giveUp, hand_giveUp,
      arrivals_giveUp]
    exact ha
  | @arrive m hh =>
    change _ = if (b.arrivals ++ [m])[a.number]? = some a.message then 1 else 0
    rw [getElem?_arrivals_concat, ← ha]
    simp [places, arrive, hh]
  | deliver hh hr ho =>
    simp only [places, setRequest, hh, Option.map_some, Option.map_none, Option.some.injEq,
      List.countP_append, List.countP_singleton, decide_eq_true_eq] at ha ⊢
    simp only [reduceCtorEq, if_false]
    omega
  | orphan hh hr ho =>
    simp only [places, hh, Option.map_some, Option.map_none, Option.some.injEq,
      List.countP_append, List.countP_singleton, decide_eq_true_eq] at ha ⊢
    simp only [reduceCtorEq, if_false]
    omega
  | stray hh hr =>
    obtain ⟨⟨r, hr', -⟩, -⟩ := hc.claimed _ _ hh
    cases hr.symm.trans hr'
  | late hh he =>
    simp only [places, hh, Option.map_some, Option.map_none, Option.some.injEq,
      List.count_append, List.count_singleton, beq_iff_eq] at ha ⊢
    simp only [reduceCtorEq, if_false]
    omega
  | pass hh he =>
    simp only [places, hh, Option.map_some, Option.map_none, Option.some.injEq,
      List.count_append, List.count_singleton, beq_iff_eq] at ha ⊢
    simp only [reduceCtorEq, if_false]
    omega

theorem places_le_one (h : b.Accounted) (a : Arrival) : b.places a ≤ 1 := by
  rw [h a]
  split <;> omega

theorem arrived_of_places (h : b.Accounted) (ha : 0 < b.places a) :
    b.arrivals[a.number]? = some a.message := by
  rw [h a] at ha
  split at ha
  · assumption
  · omega

end Accounted

theorem places_pos_of_delivered (h : (t, a) ∈ b.delivered) : 0 < b.places a := by
  have : 0 < b.delivered.countP (·.2 = a) := List.countP_pos_iff.2 ⟨_, h, by simp⟩
  unfold places
  omega

theorem places_pos_of_unasked (h : a ∈ b.unasked) : 0 < b.places a := by
  have : 0 < b.unasked.count a := List.count_pos_iff.2 h
  unfold places
  omega

namespace Accounted

/-- Two frames with one number are the same frame. -/
theorem eq_of_number (h : b.Accounted) (ha : 0 < b.places a) (ha' : 0 < b.places a')
    (hn : a.number = a'.number) : a = a' := by
  have h₁ := h.arrived_of_places ha
  have h₂ := h.arrived_of_places ha'
  rw [hn, h₂] at h₁
  obtain ⟨n, m⟩ := a
  obtain ⟨n', m'⟩ := a'
  cases hn
  cases h₁
  rfl

/-- A frame is put into the slot of one request. -/
theorem delivered_once (h : b.Accounted) (ha : (t, a) ∈ b.delivered) (ha' : (u, a) ∈ b.delivered) :
    t = u := by
  have hle := h.places_le_one a
  unfold places at hle
  have hone : b.delivered.countP (·.2 = a) ≤ 1 := by omega
  exact congrArg Prod.fst (eq_of_countP_le_one hone ha (by simp) ha' (by simp))

/-- A frame in a slot is not one that nobody asked for. -/
theorem not_unasked_of_delivered (h : b.Accounted) (ha : (t, a) ∈ b.delivered) :
    a ∉ b.unasked := by
  intro hu
  have hle := h.places_le_one a
  have h₁ : 0 < b.delivered.countP (·.2 = a) := List.countP_pos_iff.2 ⟨_, ha, by simp⟩
  have h₂ : 0 < b.unasked.count a := List.count_pos_iff.2 hu
  unfold places at hle
  omega

/-- Every frame that came in went one of the ways, or is in the reader's hand. -/
theorem place_of_arrived (h : b.Accounted) (ha : b.arrivals[a.number]? = some a.message) :
    (∃ t, (t, a) ∈ b.delivered) ∨ (∃ t, (t, a) ∈ b.orphaned) ∨ a ∈ b.late ∨ a ∈ b.unasked ∨
      b.hand.map Prod.fst = some a := by
  have hp := h a
  rw [if_pos ha] at hp
  unfold places at hp
  rcases Nat.eq_zero_or_pos (b.delivered.countP (·.2 = a)) with h₁ | h₁
  · rcases Nat.eq_zero_or_pos (b.orphaned.countP (·.2 = a)) with h₂ | h₂
    · rcases Nat.eq_zero_or_pos (b.late.count a) with h₃ | h₃
      · rcases Nat.eq_zero_or_pos (b.unasked.count a) with h₄ | h₄
        · refine Or.inr (Or.inr (Or.inr (Or.inr ?_)))
          split at hp
          · assumption
          · omega
        · exact Or.inr (Or.inr (Or.inr (Or.inl (List.count_pos_iff.1 h₄))))
      · exact Or.inr (Or.inr (Or.inl (List.count_pos_iff.1 h₃)))
    · obtain ⟨⟨t, a'⟩, hmem, ha'⟩ := List.countP_pos_iff.1 h₂
      obtain rfl : a' = a := by simpa using ha'
      exact Or.inr (Or.inl ⟨t, hmem⟩)
  · obtain ⟨⟨t, a'⟩, hmem, ha'⟩ := List.countP_pos_iff.1 h₁
    obtain rfl : a' = a := by simpa using ha'
    exact Or.inl ⟨t, hmem⟩

end Accounted

/-- The frame in the reader's hand, if it took no slot. -/
def strayInHand (b : Books) : List Arrival :=
  match b.hand with
  | some (a, none) => [a]
  | _ => []

theorem strayInHand_of_none (h : b.hand = none) : b.strayInHand = [] := by
  simp [strayInHand, h]

theorem strayInHand_of_some (h : b.hand = some (a, some t)) : b.strayInHand = [] := by
  simp [strayInHand, h]

theorem strayInHand_of_stray (h : b.hand = some (a, none)) : b.strayInHand = [a] := by
  simp [strayInHand, h]

theorem strayInHand_withdraw (b : Books) (id : MessageId) :
    (b.withdraw id).strayInHand = b.strayInHand := by
  simp [strayInHand]

end Books

/-- Whether the reader has been started. -/
def Reader.isStarted : Reader → Bool
  | notStarted => false
  | _ => true

namespace Connection

variable {options : ConnectionOptions} {c d : Connection}

/-- Each frame is in exactly one place in every reachable state. -/
theorem accounted (h : (machine options).Reachable c) : c.books.Accounted := by
  induction h with
  | start => intro a; simp [Books.places, books, machine, new, Reader.hand]
  | step hr hs ih => exact ih.step (coherent hr) (step_books hs)

/-! ## The callback -/

/-- The frame that the callback is handed by a step from one connection to the other. -/
def call? (c d : Connection) : Option Arrival :=
  match c.reader, d.reader with
  | .calling _, _ => none
  | _, .calling a => some a
  | _, _ => none

/-- The frames that the callback is handed in the course of some events. -/
def handed (c : Connection) : List ConnectionEvent → List Arrival
  | [] => []
  | e :: later =>
    match c.step e with
    | some d => (call? c d).toList ++ handed d later
    | none => []

/-- What a step makes of the frames that nobody asked for: it adds the `passed` ones, and the
callback is handed them if there is one. -/
structure Passes (c d : Connection) (passed : List Arrival) : Prop where
  unasked : d.history.unasked = c.history.unasked ++ passed
  call : (call? c d).toList = if d.hasCallback then passed else []
  started : c.reader.isStarted = true → d.reader.isStarted = true ∧ d.hasCallback = c.hasCallback
  nothing : c.reader.isStarted = false → passed = []

theorem call?_eq_none (h : ∀ a, d.reader ≠ .calling a) : call? c d = none := by
  unfold call?
  split
  · rfl
  · next ha _ => exact absurd ha (h _)
  · rfl

theorem call?_of_reader_eq (h : d.reader = c.reader) : call? c d = none := by
  unfold call?
  rw [h]
  split
  · rfl
  · next ha hc => exact absurd ha (hc _)
  · rfl

/-- The reader and the frames that nobody asked for are as they were. -/
theorem passes_nothing (hr : d.reader = c.reader) (hb : d.hasCallback = c.hasCallback)
    (hu : d.history.unasked = c.history.unasked) : Passes c d [] where
  unasked := by rw [hu, List.append_nil]
  call := by rw [call?_of_reader_eq hr, ite_self]; rfl
  started h := by rw [hr]; exact ⟨h, hb⟩
  nothing _ := rfl

theorem Untouched.passes (h : Untouched c d) : Passes c d [] :=
  passes_nothing h.reader h.hasCallback h.unasked

theorem beginClose_reader (c : Connection) (closer : Closer) :
    (c.beginClose closer).reader = c.reader ∧ (c.beginClose closer).hasCallback = c.hasCallback ∧
      (c.beginClose closer).history.unasked = c.history.unasked := by
  unfold beginClose
  split <;> exact ⟨rfl, rfl, rfl⟩

theorem stepClosing_passes {e : ClosingEvent} (h : c.stepClosing e = some d) : Passes c d [] := by
  unfold stepClosing at h
  split at h <;> cases h <;> exact passes_nothing rfl rfl rfl

theorem beginClose_passes (c : Connection) (closer : Closer) (w : Writer) :
    Passes c { c.beginClose closer with writer := w } [] := by
  obtain ⟨h₁, h₂, h₃⟩ := c.beginClose_reader closer
  exact passes_nothing h₁ h₂ h₃

theorem stepWriter_passes {e : WriterEvent} (h : c.stepWriter e = some d) : Passes c d [] := by
  unfold stepWriter at h
  split at h
  all_goals first
    | (cases h; done)
    | (cases h; exact beginClose_passes c .writer _)
    | (cases h; exact passes_nothing rfl rfl rfl)
    | (split at h <;> cases h; exact passes_nothing rfl rfl rfl)

theorem stepReader_passes {e : ReaderEvent} (h : c.stepReader e = some d) :
    ∃ passed, Passes c d passed := by
  unfold stepReader at h
  split at h
  · next hc =>
    cases h
    exact ⟨[], by simp, by simp [call?, hc], by simp [hc, Reader.isStarted], by simp⟩
  · next m hc =>
    cases h
    exact ⟨[], by simp [arrive, unregister], by simp [call?, hc, arrive, unregister],
      by simp [arrive, unregister, Reader.isStarted], by simp⟩
  · next a t hc =>
    cases h
    refine ⟨[], ?_, ?_, ?_, fun _ => rfl⟩
    · unfold fill
      split
      · simp
      · split <;> simp
    · rw [call?_eq_none (fun a h => by cases h)]
      simp
    · unfold fill
      split
      · simp [Reader.isStarted]
      · split <;> simp [setRequest, Reader.isStarted]
  · next a hc =>
    cases h
    unfold dispatchUnclaimed
    split
    · exact ⟨[], by simp, by simp [call?, hc], by simp [Reader.isStarted], by simp⟩
    · refine ⟨[a], rfl, ?_, ?_, by simp [hc, Reader.isStarted]⟩
      · cases hb : c.hasCallback <;> simp [call?, hc]
      · cases hb : c.hasCallback <;> simp [Reader.isStarted]
  · next hc => cases h; exact ⟨[], by simp, by simp [call?, hc], by simp [Reader.isStarted], by simp⟩
  · next hc => cases h; exact ⟨[], by simp, by simp [call?, hc], by simp [Reader.isStarted], by simp⟩
  · next hc => cases h; exact ⟨[], by simp, by simp [call?, hc], by simp [Reader.isStarted], by simp⟩
  · next result hc =>
    cases h
    obtain ⟨h₁, h₂, h₃⟩ := c.beginClose_reader .reader
    refine ⟨[], by simp [h₃], ?_, ?_, by simp⟩
    · rw [call?_eq_none (fun a h => by cases hcl : c.isClosed <;> simp [hcl] at h)]
      simp
    · cases hcl : c.isClosed <;> simp [Reader.isStarted, h₂]
  · next hc =>
    split at h <;> cases h
    exact ⟨[], by simp, by simp [call?, hc], by simp [Reader.isStarted], by simp⟩
  · cases h

theorem step_passes {e : ConnectionEvent} (h : c.step e = some d) : ∃ passed, Passes c d passed := by
  cases e with
  | send m => cases h; exact ⟨[], passes_nothing rfl rfl rfl⟩
  | request t e =>
    obtain ⟨r, -, hs⟩ := Option.bind_eq_some_iff.1 h
    exact ⟨[], (stepRequest_untouched hs).passes⟩
  | write bytes => cases h; exact ⟨[], passes_nothing rfl rfl rfl⟩
  | writing n e =>
    obtain ⟨w, -, hs⟩ := Option.bind_eq_some_iff.1 h
    exact ⟨[], (stepWrite_untouched hs).passes⟩
  | close =>
    cases h
    obtain ⟨h₁, h₂, h₃⟩ := c.beginClose_reader .caller
    exact ⟨[], passes_nothing h₁ h₂ h₃⟩
  | closing e => exact ⟨[], stepClosing_passes h⟩
  | writer e => exact ⟨[], stepWriter_passes h⟩
  | reader e => exact stepReader_passes h

/-- **The callback is handed the frames that nobody asked for, in their order.** -/
theorem run_handed {events : List ConnectionEvent} (h : c.run events = some d) :
    ∃ passed, d.history.unasked = c.history.unasked ++ passed ∧
      c.handed events = (if d.hasCallback then passed else []) ∧
      (c.reader.isStarted = true → d.reader.isStarted = true ∧ d.hasCallback = c.hasCallback) := by
  induction events generalizing c with
  | nil =>
    cases h
    exact ⟨[], by simp, by simp [handed], fun hs => ⟨hs, rfl⟩⟩
  | cons e later ih =>
    rw [run_cons] at h
    obtain ⟨u, hs, hrun⟩ := Option.bind_eq_some_iff.1 h
    obtain ⟨passed, hp⟩ := step_passes hs
    obtain ⟨rest, hrest, hhanded, hstarted⟩ := ih hrun
    refine ⟨passed ++ rest, by rw [hrest, hp.unasked, List.append_assoc], ?_, fun hc => ?_⟩
    · simp only [handed, hs, hp.call, hhanded]
      cases hc : c.reader.isStarted with
      | false => simp [hp.nothing hc]
      | true =>
        rw [(hstarted (hp.started hc).1).2]
        cases u.hasCallback <;> simp
    · obtain ⟨hu, hcall⟩ := hp.started hc
      exact ⟨(hstarted hu).1, (hstarted hu).2.trans hcall⟩

end Connection

end ClusterLink
