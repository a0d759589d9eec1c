import WorkBroker.Proofs.Hub.Sound
/-!
What becomes of a delivery that was found for a call, whatever the call does in the meantime.  The
caller gets it, or it is put back as if it had not been found, or the caller drops it and it stays
out until its owner is released; it is one of the three, and never two of them.
-/

set_option autoImplicit false
set_option relaxedAutoImplicit false

namespace WorkBroker.Race

/-- How a delivery that was found for a call can end. -/
inductive Fate
  | returned
  | putBack
  | dropped
  deriving DecidableEq, Repr

variable {settings : QueueSettings} {before later : List Deed} {x : Look} {d : Delivery}
  {xs : List Departure} {c : Call}

def queueBefore (settings : QueueSettings) (before : List Deed) : Queue :=
  (Queue.ofSettings settings).after (operationsOf before)

/-- What it means that a delivery has ended in some way.  One that was returned or dropped is out
under its token from then on, until it is settled or counted as a failed attempt; whoever gets it
finds it even if the time is over by then.  One that was put back leaves the queue as it was, for a
caller that had turned away; and it is dropped by a caller that was cancelled or has gone. -/
def Meets (settings : QueueSettings) (before : List Deed) (x : Look) (later : List Deed)
    (d : Delivery) (xs : List Departure) (c : Call) : Fate → Prop
  | .returned =>
    ((queueBefore settings before).after x.operations).LeftOut
        ⟨d.id, d.token, x.waiter.owner, x.now⟩ (operationsOf later) ∧
      c.collect.state = .finished (.ok (.delivery (some d))) ∧
      c.giveUp.state = .finished (.ok (.delivery (some d)))
  | .putBack =>
    (queueBefore settings before).PutBack d.id ((queueBefore settings before).after x.operations) ∧
      c.Away xs
  | .dropped =>
    ((queueBefore settings before).after x.operations).LeftOut
        ⟨d.id, d.token, x.waiter.owner, x.now⟩ (operationsOf later) ∧
      c.Abandoned xs

private theorem collect_of_got (got : c.Got d) :
    c.collect.state = .finished (.ok (.delivery (some d))) ∧
      c.giveUp.state = .finished (.ok (.delivery (some d))) := by
  rcases got with state | state <;> simp [Call.collect, Call.giveUp, state, Call.resultOf]

private theorem got_of_collect (h : c.collect.state = .finished (.ok (.delivery (some d)))) :
    c.Got d := by
  cases state : c.state with
  | offered a =>
    rw [Call.collect, state] at h
    have same : a = .delivery (some d) := by
      cases a <;> simp_all [Call.resultOf]
    exact .inl (same ▸ state)
  | finished result =>
    rw [Call.collect, state] at h
    exact .inr (state.trans (state.symm.trans h))
  | _ =>
    rw [Call.collect, state] at h
    simp [state] at h

private theorem not_leftOut_of_putBack {q q' : Queue} {l : Loan} {ops : List Operation}
    (back : q.PutBack l.id q') : ¬q'.LeftOut l ops := by
  obtain ⟨-, m, hm, ready, -⟩ := back
  intro out
  simp [out.runs.state_eq hm] at ready

section Sound

variable {s : Race} (o : Sound settings s)
include o

/-- A delivery that was found for a call ends in exactly one way. -/
theorem Sound.fate (split : s.deeds = before ++ .look x :: later) (found : x.found = some d) :
    ∃ c, s.desk.find? x.waiter.call = some c ∧
      (∃ stays, c.request.asker? = some (x.waiter.owner, stays)) ∧
      ∃! fate, Meets settings before x later d s.departures c fate := by
  have hq := Queue.coherent_ofSettings settings
  have f := o.faithful
  have hx : x ∈ looksOf s.deeds := mem_looksOf_iff.mpr (split ▸ by simp)
  rw [split] at f
  obtain ⟨c, hc, asker, fate⟩ := o.fates x hx d found
  refine ⟨c, hc, asker, ?_⟩
  -- A message that is out does not stand ready, and what was abandoned is not held.
  cases taken : x.taken with
  | true =>
    have out := Queue.leftOut_of_taken hq f found taken
    rw [taken, if_pos rfl] at fate
    rcases fate with got | gone
    · refine ⟨.returned, ⟨out, collect_of_got got⟩, fun fate' meets => ?_⟩
      cases fate' with
      | returned => rfl
      | putBack => exact absurd out (not_leftOut_of_putBack meets.1)
      | dropped => exact absurd got (meets.2.not_got d)
    · refine ⟨.dropped, ⟨out, gone⟩, fun fate' meets => ?_⟩
      cases fate' with
      | returned => exact absurd (got_of_collect meets.2.1) (gone.not_got d)
      | putBack => exact absurd out (not_leftOut_of_putBack meets.1)
      | dropped => rfl
  | false =>
    have back := Queue.putBack_of_untaken hq f found taken
    rw [taken, if_neg Bool.false_ne_true] at fate
    refine ⟨.putBack, ⟨back, fate⟩, fun fate' meets => ?_⟩
    cases fate' with
    | returned => exact absurd meets.1 (not_leftOut_of_putBack back)
    | putBack => rfl
    | dropped => exact absurd meets.1 (not_leftOut_of_putBack back)

private theorem Sound.nothing (hc : c ∈ s.desk.calls)
    (state : c.state = .finished (.ok (.delivery none))) :
    match c.wait with
    | some wait => ∃ since now, c.since = some since ∧ since.afterWait wait ≤ now ∧
        .expire c.number now ∈ s.departures
    | none => ∃ before x later, s.deeds = before ++ .look x :: later ∧ x.waiter.call = c.number ∧
        ∀ m ∈ (queueBefore settings before).messages, m.state ≠ .queued := by
  rcases (o.justified c hc).finished state with late | none
  · obtain ⟨wait, since, now, hwait, hsince, past, hx⟩ := late
    rw [hwait]
    exact ⟨since, now, hsince, past, hx⟩
  · obtain ⟨hwait, x, hx, call, nothing⟩ := none
    rw [hwait]
    obtain ⟨before, later, split⟩ := List.append_of_mem (mem_looksOf_iff.mp hx)
    exact ⟨before, x, later, split, call, Queue.not_ready_of_nothing
      (Queue.coherent_ofSettings settings) (split ▸ o.faithful) nothing⟩

end Sound

/-- In every run in which calls race with the hub: the record of the hub's deeds tells what happened
to the queue, and each delivery that the queue gave out is found by one look in it.  Such a delivery
ends in exactly one way: the call that it was found for gets it, it is put back, or a caller that
was cancelled or went away has dropped it; and whatever is out is taken back when its owner is
released.  A call gets no delivery but one that was found for it.  A waiting call is told that
nothing is ready when its time is over and not before, any other call only if no message was ready
when the hub looked. -/
theorem no_delivery_is_lost (settings : QueueSettings) (events : List Event) :
    ((life settings events).desk.hub.queue = queueBefore settings (life settings events).deeds ∧
      ((Queue.ofSettings settings).history (operationsOf (life settings events).deeds)).filterMap
        QueueEvent.loan? = (looksOf (life settings events).deeds).filterMap Look.loan?) ∧
    (∀ before x later d, (life settings events).deeds = before ++ .look x :: later →
      x.found = some d →
        ∃ c, (life settings events).desk.find? x.waiter.call = some c ∧
          (∃ stays, c.request.asker? = some (x.waiter.owner, stays)) ∧
          ∃! fate, Meets settings before x later d (life settings events).departures c fate) ∧
    (∀ l, (life settings events).desk.hub.queue.Runs l → ∀ m call,
      ((life settings events).desk.hub.handle m call (.release l.owner)).2.queue.find? l.id =
        ((life settings events).desk.hub.queue.find? l.id).map
          ((life settings events).desk.hub.queue.struck · m.now)) ∧
    (∀ c ∈ (life settings events).desk.calls, ∀ d,
      c.state = .finished (.ok (.delivery (some d))) →
        ∃ x ∈ looksOf (life settings events).deeds, x.waiter.call = c.number ∧ x.found = some d) ∧
    ∀ c ∈ (life settings events).desk.calls, c.state = .finished (.ok (.delivery none)) →
      match c.wait with
      | some wait => ∃ since now, c.since = some since ∧ since.afterWait wait ≤ now ∧
          .expire c.number now ∈ (life settings events).departures
      | none => ∃ before x later, (life settings events).deeds = before ++ .look x :: later ∧
          x.waiter.call = c.number ∧
          ∀ m ∈ (queueBefore settings before).messages, m.state ≠ .queued := by
  have o := sound_life settings events
  refine ⟨⟨o.queue_eq, Queue.loans_of_faithful o.faithful⟩, ?_, ?_, ?_, ?_⟩
  · intro before x later d split found
    exact o.fate split found
  · intro l runs m call
    exact Queue.find?_releaseIn o.coherent m.order m.now runs
  · intro c hc d state
    obtain ⟨x, hx, call, found, -⟩ := (o.justified c hc).got d (.inr state)
    exact ⟨x, hx, call, found⟩
  · intro c hc state
    exact o.nothing hc state

/-- Three consumers ask in turn.  The time of the first is over just when it is to be served; that
of the second is over just after; and the third is cancelled just after. -/
def threeTooLate : List Event :=
  let nobody : List Departure := []
  let work now departures : Event := .work now (fun _ => now) .arrival nobody nobody departures
  [.submit (.pop 1 true) (some (.ofMillis 1000)) .start, work .start nobody,
    .submit (.push 9 "a" [] 0 .zero) none .start, work .start [.expire 0 (.ofMillis 1000)],
    .submit (.pop 2 true) (some (.ofMillis 1000)) .start, work .start nobody,
    .depart (.expire 2 (.ofMillis 1000)),
    .submit (.push 9 "b" [] 0 .zero) none .start, work .start nobody,
    .submit (.pop 3 true) (some (.ofMillis 1000)) .start, work .start nobody, .depart (.cancel 4)]

theorem three_too_late_settled :
    (life .standard threeTooLate).desk.result? 0 = some (.ok (.delivery none)) ∧
    (life .standard threeTooLate).desk.result? 2 = some (.ok (.delivery (some ⟨"a", 2, 1, []⟩))) ∧
    (life .standard threeTooLate).desk.result? 4 = some (.error .shuttingDown) ∧
    ∃ c, (life .standard threeTooLate).desk.find? 0 = some c ∧
      (∃ stays, c.request.asker? = some (1, stays)) ∧
      ∃! fate, Meets .standard ((life .standard threeTooLate).deeds.take 2)
        ⟨⟨1, 0⟩, .start, true, some ⟨"a", 1, 1, []⟩, false⟩
        ((life .standard threeTooLate).deeds.drop 3) ⟨"a", 1, 1, []⟩
        (life .standard threeTooLate).departures c fate := by
  have split : (life .standard threeTooLate).deeds =
      (life .standard threeTooLate).deeds.take 2 ++
        .look ⟨⟨1, 0⟩, .start, true, some ⟨"a", 1, 1, []⟩, false⟩ ::
          (life .standard threeTooLate).deeds.drop 3 := rfl
  exact ⟨rfl, rfl, rfl, (no_delivery_is_lost .standard threeTooLate).2.1 _ _ _ _ split rfl⟩

end WorkBroker.Race
