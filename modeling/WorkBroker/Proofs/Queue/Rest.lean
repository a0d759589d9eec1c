import WorkBroker.Proofs.Queue.Sweep
/-!
A queue at rest.  A sweep leaves nothing behind that is due, late or starving, and what is not due,
late or starving at one moment was not so at an earlier one.  A sweep of a queue at rest changes
nothing, so it does not matter how many timers call for a sweep at the same time.
-/

set_option autoImplicit false
set_option relaxedAutoImplicit false

namespace WorkBroker.Queue

variable {q : Queue} {id : String} {now earlier : Instant}

/-- Whether a sweep has nothing to do. -/
structure Rests (q : Queue) (now : Instant) : Prop where
  not_due : ∀ id, ¬q.IsDue now id
  not_late : ∀ id, ¬q.IsLate now id
  not_starving : ∀ id, ¬q.Starves now id

section Earlier

variable (le : earlier ≤ now)

include le

private theorem since_mono (start : Instant) :
    (earlier.since start).nanos ≤ (now.since start).nanos :=
  Nat.sub_le_sub_right le start.nanos

private theorem IsDue.mono (due : q.IsDue earlier id) : q.IsDue now id := by
  obtain ⟨m, a, hm, state, ha, same, early⟩ := due
  exact ⟨m, a, hm, state, ha, same, Nat.le_trans early le⟩

private theorem IsLate.mono (late : q.IsLate earlier id) : q.IsLate now id := by
  obtain ⟨timeout, m, token, owner, since, set, hm, state, out⟩ := late
  exact ⟨timeout, m, token, owner, since, set, hm, state, Nat.le_trans out (since_mono le since)⟩

private theorem Starves.mono (starves : q.Starves earlier id) : q.Starves now id := by
  obtain ⟨timeout, m, set, hm, ready, outside, waited⟩ := starves
  exact ⟨timeout, m, set, hm, ready, outside, Nat.le_trans waited (since_mono le m.queuedAt)⟩

private theorem Rests.mono (rests : q.Rests now) : q.Rests earlier where
  not_due id due := rests.not_due id (due.mono le)
  not_late id late := rests.not_late id (late.mono le)
  not_starving id starves := rests.not_starving id (starves.mono le)

end Earlier

private theorem Lists.eq_nil {p : String → Prop} {ids : List String} (lists : Lists p ids)
    (none : ∀ id, ¬p id) : ids = [] :=
  List.eq_nil_iff_forall_not_mem.mpr fun id hid => none id ((lists.2 id).mp hid)

private theorem promoteDue_of_not_due (hq : q.Coherent) (not_due : ∀ id, ¬q.IsDue now id) :
    q.promoteDue now = (0, q) := by
  have later : ∀ a ∈ q.delayed, now < a.due := by
    intro a ha
    obtain ⟨m, hm, state⟩ := (hq.mem_delayed_iff a.id).mp (List.mem_map_of_mem ha)
    exact Nat.lt_of_not_le fun due => not_due a.id ⟨m, a, hm, state, ha, rfl, due⟩
  obtain ⟨due, rest⟩ := split_due hq.sorted_delayed now
  have none : q.delayed.filter (fun a => decide (a.due ≤ now)) = [] :=
    List.filter_eq_nil_iff.mpr fun a ha due =>
      Nat.not_le.mpr (later a ha) (of_decide_eq_true due)
  have all : q.delayed.filter (fun a => decide (now < a.due)) = q.delayed := by
    simpa [List.filter_eq_self] using later
  rw [promoteDue, due, rest, none, all]
  rfl

/-- A sweep of a queue at rest reports nothing and changes nothing. -/
theorem Rests.sweepIn (rests : q.Rests now) (hq : q.Coherent) (order : VisitOrder) :
    q.sweepIn order now = ({}, q) := by
  have due := promoteDue_of_not_due hq rests.not_due
  have late : order.arrange (q.expired now) = [] :=
    (hq.lists_expired order now).eq_nil rests.not_late
  have hungry : q.starving now = [] := (hq.lists_starving now).eq_nil rests.not_starving
  simp only [Queue.sweepIn, due, late, hungry, tally, List.foldl_nil, List.length_nil]

private theorem Phases.rests {due late hungry : List String} {q₁ q₂ : Queue}
    {r : SweepReport × Queue} (phases : Phases now due late hungry q q₁ q₂ r) : r.2.Rests now :=
  ⟨phases.not_isDue, phases.not_isLate, phases.not_starves⟩

theorem Coherent.coherent_sweepIn (hq : q.Coherent) (order : VisitOrder) (now : Instant) :
    (q.sweepIn order now).2.Coherent :=
  (moves_sweepIn hq order now).coherent hq

private theorem Coherent.lt_nextDue (hq : q.Coherent) (order : VisitOrder) (now : Instant)
    {due : Instant} (next : (q.sweepIn order now).2.nextDue? = some due) : now < due := by
  obtain ⟨a, first, rfl⟩ := Option.map_eq_some_iff.mp next
  have ha := List.mem_of_mem_head? first
  obtain ⟨m, hm, state⟩ :=
    ((hq.coherent_sweepIn order now).mem_delayed_iff a.id).mp (List.mem_map_of_mem ha)
  have rests := (hq.phases_sweepIn order now).rests
  exact Nat.lt_of_not_le fun early => rests.not_due a.id ⟨m, a, hm, state, ha, rfl, early⟩

/-- After a sweep of a queue in any state that it can reach, the next message falls due strictly
later, if any does, and a second sweep at the same moment or an earlier one has nothing to report
and leaves the whole queue as it is. -/
theorem sweep_leaves_at_rest (settings : QueueSettings) (ops : List Operation)
    (order again : VisitOrder) {earlier now : Instant} (le : earlier ≤ now) :
    let q := (((ofSettings settings).after ops).sweepIn order now).2
    (∀ due, q.nextDue? = some due → now < due) ∧
      q.sweepIn again earlier = ({}, q) := by
  intro q
  have before := coherent_after settings ops
  have rests : q.Rests earlier := (before.phases_sweepIn order now).rests.mono le
  have after := before.coherent_sweepIn order now
  exact ⟨fun due next => before.lt_nextDue order now next, rests.sweepIn after again⟩

/-- A message that is out, one that is ready in the last lane, and two that fall due one after the
other. -/
def hurried : List Operation :=
  [.push "out" [] 1 .zero .start, .pop 1 .start, .push "low" [] 2 .zero .start,
    .push "later" [] 2 (.ofMillis 3) .start, .push "last" [] 0 (.ofMillis 9) .start]

def impatient : QueueSettings :=
  { QueueSettings.standard with ackTimeout := some .zero, boostTimeout := some .zero }

theorem hurried_rests_after_one_sweep :
    let before := (ofSettings impatient).after hurried
    let q := (before.sweepIn .arrival (.ofMillis 5)).2
    before.IsDue (.ofMillis 5) "later" ∧ before.IsLate (.ofMillis 5) "out" ∧
      before.Starves (.ofMillis 5) "low" ∧
      (∀ due, q.nextDue? = some due → Instant.ofMillis 5 < due) ∧
      q.sweepIn .arrival (.ofMillis 4) = ({}, q) := by
  intro before q
  have due : before.IsDue (.ofMillis 5) "later" :=
    ⟨_, ⟨.ofMillis 3, 0, "later"⟩, rfl, rfl, by decide, rfl, by decide⟩
  have late : before.IsLate (.ofMillis 5) "out" := ⟨.zero, _, _, _, _, rfl, rfl, rfl, by decide⟩
  have starves : before.Starves (.ofMillis 5) "low" :=
    ⟨.zero, _, rfl, rfl, rfl, by decide, by decide⟩
  have le : Instant.ofMillis 4 ≤ Instant.ofMillis 5 := by decide
  exact ⟨due, late, starves, sweep_leaves_at_rest impatient hurried .arrival .arrival le⟩

end WorkBroker.Queue
