import WorkBroker.Proofs.Queue.Order
/-!
What a sweep does.  It goes through three phases, and each of them deals with a group of messages:
those that have fallen due, those whose delivery has been out for too long, and those that starve.
`Promotes`, `TakesBack` and `Boosts` say what a phase does to the messages, the lanes and the
counters.  A message of no group stays as it is and where it stands (`Spares`), and afterwards every
group is empty.
-/

set_option autoImplicit false
set_option relaxedAutoImplicit false

namespace WorkBroker.Queue

variable {q q₁ q₂ q' : Queue} {id : String} {m : Message} {now : Instant} {ids : List String}

/-- Whether the message of an id is delayed and has fallen due. -/
def IsDue (q : Queue) (now : Instant) (id : String) : Prop :=
  ∃ m a, q.find? id = some m ∧ m.state = .delayed ∧ a ∈ q.delayed ∧ a.id = id ∧ a.due ≤ now

/-- Whether the delivery of a message has been out for as long as it may be. -/
def IsLate (q : Queue) (now : Instant) (id : String) : Prop :=
  ∃ timeout m token owner since, q.settings.ackTimeout = some timeout ∧ q.find? id = some m ∧
    m.state = .running token owner since ∧ timeout.nanos ≤ (now.since since).nanos

/-- Whether a message has been ready outside the first lane for as long as it may be. -/
def Starves (q : Queue) (now : Instant) (id : String) : Prop :=
  ∃ timeout m, q.settings.boostTimeout = some timeout ∧ q.find? id = some m ∧
    m.state = .queued ∧ 0 < m.lane ∧ timeout.nanos ≤ (now.since m.queuedAt).nanos

/-- Whether a list names everything that has a property, each once. -/
def Lists (p : String → Prop) (ids : List String) : Prop := ids.Nodup ∧ ∀ id, id ∈ ids ↔ p id

/-- Whether ids stand in the order in which their messages became ready, and those that became ready
together in the order of their bytes. -/
def InTurn (q : Queue) (ids : List String) : Prop :=
  ids.Pairwise fun a b => ∀ m n, q.find? a = some m → q.find? b = some n →
    m.queuedAt < n.queuedAt ∨ m.queuedAt = n.queuedAt ∧ Bytes.textLe a b

def standsIn (q : Queue) (i : Nat) (id : String) : Bool :=
  (q.find? id).any fun m => m.state == .queued && m.lane == i

private theorem standsIn_congr (same : q'.find? id = q.find? id) (i : Nat) :
    q'.standsIn i id = q.standsIn i id := by
  rw [standsIn, same, standsIn]

private theorem isFailed_congr (same : q'.find? id = q.find? id) :
    q'.isFailed id = q.isFailed id := by
  rw [isFailed, same, isFailed]

/-- Some messages become ready now, each in front of its lane when its turn comes.  What comes of it
is how many they are, and the queue. -/
structure Promotes (now : Instant) (due : List String) (q : Queue) (r : Nat × Queue) : Prop where
  count : r.1 = due.length
  found : ∀ id, r.2.find? id =
    if id ∈ due then (q.find? id).map fun m => { m with state := .queued, queuedAt := now }
    else q.find? id
  lane : ∀ i, r.2.lane i = (due.filter (r.2.standsIn i)).reverse ++ q.lane i
  settings : r.2.settings = q.settings
  stats : r.2.stats = q.stats

/-- Some messages suffer one more failed attempt.  Those that have attempts left become ready at the
end of the lane of their priority, in turn.  What comes of it is how many of them have failed for
good, and the queue. -/
structure TakesBack (now : Instant) (late : List String) (q : Queue) (r : Nat × Queue) : Prop where
  count : r.1 = late.countP r.2.isFailed
  found : ∀ id, r.2.find? id =
    if id ∈ late then (q.find? id).map fun m =>
      if q.settings.maxRetries < m.failures + 1 then
        { m with failures := m.failures + 1, state := .failed }
      else
        { m with failures := m.failures + 1, lane := m.priority, state := .queued, queuedAt := now }
    else q.find? id
  lane : ∀ i, r.2.lane i = q.lane i ++ late.filter (r.2.standsIn i)
  settings : r.2.settings = q.settings
  delayed : r.2.delayed = q.delayed
  stats : r.2.stats = { q.stats with
    redelivered := q.stats.redelivered + late.countP fun id => !r.2.isFailed id
    failed := q.stats.failed + late.countP r.2.isFailed }

/-- Some messages move to the end of the first lane, in turn.  What comes of it is how many they
are, and the queue. -/
structure Boosts (hungry : List String) (q : Queue) (r : Nat × Queue) : Prop where
  count : r.1 = hungry.length
  found : ∀ id, r.2.find? id =
    if id ∈ hungry then (q.find? id).map fun m => { m with lane := 0 } else q.find? id
  first : r.2.lane 0 = q.lane 0 ++ hungry
  others : ∀ i, 0 < i → r.2.lane i = (q.lane i).filter (· ∉ hungry)
  settings : r.2.settings = q.settings
  delayed : r.2.delayed = q.delayed
  stats : r.2.stats = { q.stats with boosted := q.stats.boosted + hungry.length }

/-- The messages that are left out keep everything, and in the lanes their order. -/
structure Spares (touched : List String) (q q' : Queue) : Prop where
  found : ∀ id ∉ touched, q'.find? id = q.find? id
  lane : ∀ i, (q'.lane i).filter (· ∉ touched) = (q.lane i).filter (· ∉ touched)

/-- The phases of a sweep, one after the other, with the groups that they deal with and the queues
between them. -/
structure Phases (now : Instant) (due late hungry : List String) (q q₁ q₂ : Queue)
    (r : SweepReport × Queue) : Prop where
  lists_due : Lists (q.IsDue now) due
  promotes : Promotes now due q (r.1.promoted, q₁)
  delayed : q₁.delayed = q.delayed.filter fun a => decide (now < a.due)
  lists_late : Lists (q₁.IsLate now) late
  takesBack : TakesBack now late q₁ (r.1.failed, q₂)
  redelivered : r.1.redelivered = late.countP fun id => !q₂.isFailed id
  lists_hungry : Lists (q₂.Starves now) hungry
  inTurn : q₂.InTurn hungry
  boosts : Boosts hungry q₂ (r.1.boosted, r.2)

/-- An operation that treats one message in some way treats each of some messages in that way, if
ways can be put together and no message is spoilt for its turn by those before it. -/
theorem tally_treats {f : Queue → String → Bool × Queue}
    {treats : List String → Queue → Nat × Queue → Prop} (fit : Queue → String → Prop)
    (refl : ∀ q, treats [] q (0, q))
    (step : ∀ q id, fit q id → treats [id] q (if (f q id).1 then 1 else 0, (f q id).2))
    (cons : ∀ {id ids q k q₁ r}, treats [id] q (k, q₁) → treats ids q₁ r → id ∉ ids →
      treats (id :: ids) q (k + r.1, r.2))
    (keep : ∀ q id other, fit q id → other ≠ id → fit q other → fit (f q id).2 other)
    (hids : ids.Nodup) (q : Queue) (all : ∀ id ∈ ids, fit q id) :
    treats ids q (tally f ids q) := by
  induction ids generalizing q with
  | nil => exact refl q
  | cons id ids ih =>
    obtain ⟨new, hids⟩ := List.nodup_cons.mp hids
    have here := all id List.mem_cons_self
    have others : ∀ other ∈ ids, fit (f q id).2 other := by
      intro other ho
      have ne : other ≠ id := fun same => new (same ▸ ho)
      exact keep q id other here ne (all other (List.mem_cons_of_mem id ho))
    rw [tally_cons]
    exact cons (step q id here) (ih hids _ others) new

section Promotion

private theorem Promotes.refl (now : Instant) (q : Queue) : Promotes now [] q (0, q) where
  count := rfl
  found id := by simp
  lane i := by simp
  settings := rfl
  stats := rfl

private theorem Promotes.cons {k : Nat} {r : Nat × Queue} (one : Promotes now [id] q (k, q₁))
    (rest : Promotes now ids q₁ r) (new : id ∉ ids) :
    Promotes now (id :: ids) q (k + r.1, r.2) where
  count := by
    have first : k = 1 := one.count
    show k + r.1 = _
    rw [first, rest.count, List.length_cons, Nat.add_comm]
  found other := by
    rw [rest.found, one.found]
    by_cases here : other = id
    · simp [here, new]
    · simp [here]
  lane i := by
    have same : r.2.standsIn i id = q₁.standsIn i id :=
      standsIn_congr ((rest.found id).trans (if_neg new)) i
    rw [rest.lane, one.lane, List.filter_cons, List.filter_cons, same]
    cases q₁.standsIn i id <;> simp
  settings := rest.settings.trans one.settings
  stats := rest.stats.trans one.stats

private def Waits (q : Queue) (id : String) : Prop :=
  ∃ m, q.find? id = some m ∧ m.state = .delayed ∧ m.lane < q.lanes.length

private theorem promotes_promote (now : Instant) (waits : q.Waits id) :
    Promotes now [id] q (if (q.promote id now).1 then 1 else 0, (q.promote id now).2) := by
  obtain ⟨m, hm, state, lane_lt⟩ := waits
  have promoted := promote_eq hm state now
  have messages := congrArg (·.2.messages) promoted
  have views := find?_of_modified hm messages fun _ => rfl
  have lanes : (q.promote id now).2.lanes = q.lanes.modify m.lane (id :: ·) :=
    congrArg (·.2.lanes) promoted
  have stands : ∀ i, (q.promote id now).2.standsIn i id = (m.lane == i) := by
    intro i
    simp [standsIn, views]
  constructor
  · simp [promoted]
  · intro other
    rw [views]
    by_cases here : other = id
    · simp [here, hm]
    · simp [here]
  · intro i
    rw [lane, lanes, lane]
    by_cases here : m.lane = i
    · subst here
      rw [getD_modify_of_lt _ lane_lt]
      simp [stands]
    · rw [getD_modify_of_ne _ here]
      simp [stands, here]
  · exact settings_promote
  · exact congrArg (·.2.stats) promoted

private theorem waits_promote {other : String} (waits : q.Waits id) (ne : other ≠ id)
    (still : q.Waits other) (now : Instant) : (q.promote id now).2.Waits other := by
  obtain ⟨m, hm, state, -⟩ := waits
  obtain ⟨n, hn, later, lt⟩ := still
  have promoted := promote_eq hm state now
  have messages := congrArg (·.2.messages) promoted
  have views := find?_of_modified hm messages fun _ => rfl
  refine ⟨n, ?_, later, ?_⟩
  · rw [views, if_neg ne, hn]
  · rw [promoted]
    exact (List.length_modify ..).symm ▸ lt

theorem split_due {delayed : List Appointment} (sorted : delayed.Pairwise fun a b => a.before b)
    (now : Instant) :
    (delayed.takeWhile fun a => decide (a.due ≤ now)) =
        delayed.filter (fun a => decide (a.due ≤ now)) ∧
      (delayed.dropWhile fun a => decide (a.due ≤ now)) =
        delayed.filter (fun a => decide (now < a.due)) := by
  induction delayed with
  | nil => exact ⟨rfl, rfl⟩
  | cons a rest ih =>
    obtain ⟨first, sorted⟩ := List.pairwise_cons.mp sorted
    by_cases due : a.due ≤ now
    · have early : ¬now < a.due := Nat.not_lt.mpr due
      simp [due, early, ih sorted]
    · have late : now < a.due := Nat.lt_of_not_le due
      have later : ∀ b ∈ rest, now < b.due := by
        intro b hb
        have before := first b hb
        simp only [Appointment.before, Bool.or_eq_true, decide_eq_true_eq, Bool.and_eq_true,
          beq_iff_eq] at before
        have : now.nanos < a.due.nanos := late
        exact show now.nanos < b.due.nanos by omega
      have none : ∀ b ∈ rest, ¬b.due ≤ now := fun b hb => Nat.not_le.mpr (later b hb)
      have gone : rest.filter (fun b => decide (b.due ≤ now)) = [] := by
        simpa [List.filter_eq_nil_iff] using none
      have all : rest.filter (fun b => decide (now < b.due)) = rest := by
        simpa [List.filter_eq_self] using later
      simp [due, late, gone, all]

def dueIds (q : Queue) (now : Instant) : List String :=
  (q.delayed.filter fun a => decide (a.due ≤ now)).map (·.id)

private theorem Coherent.lists_dueIds (hq : q.Coherent) (now : Instant) :
    Lists (q.IsDue now) (q.dueIds now) := by
  refine ⟨hq.nodup_delayed.sublist (List.filter_sublist.map _), fun id => ?_⟩
  simp only [dueIds, List.mem_map, List.mem_filter, decide_eq_true_eq]
  constructor
  · rintro ⟨a, ⟨ha, due⟩, rfl⟩
    obtain ⟨m, hm, state⟩ := (hq.mem_delayed_iff a.id).mp (List.mem_map_of_mem ha)
    exact ⟨m, a, hm, state, ha, rfl, due⟩
  · rintro ⟨-, a, -, -, ha, rfl, due⟩
    exact ⟨a, ⟨ha, due⟩, rfl⟩

/-- A promotion strikes out the appointments that have fallen due and no other. -/
theorem Coherent.delayed_promoteDue (hq : q.Coherent) (now : Instant) :
    (q.promoteDue now).2.delayed = q.delayed.filter fun a => decide (now < a.due) := by
  have keep : ∀ (ids : List String) (q : Queue),
      (tally (fun q id => q.promote id now) ids q).2.delayed = q.delayed := by
    intro ids
    induction ids with
    | nil => exact fun q => rfl
    | cons id ids ih =>
      intro q
      rw [tally_cons, ih, promote]
      split
      · rfl
      · split_ifs <;> rfl
  exact (keep _ _).trans (split_due hq.sorted_delayed now).2

private theorem Coherent.promotes_promoteDue (hq : q.Coherent) (now : Instant) :
    Promotes now (q.dueIds now) q (q.promoteDue now) := by
  have waits : ∀ id ∈ q.dueIds now,
      Waits { q with delayed := q.delayed.dropWhile fun a => decide (a.due ≤ now) } id := by
    intro id hid
    obtain ⟨m, -, hm, state, -⟩ := ((hq.lists_dueIds now).2 id).mp hid
    exact ⟨m, hm, state, hq.lane_lt (mem_of_find? hm)⟩
  have promotes : Promotes now (q.dueIds now)
      { q with delayed := q.delayed.dropWhile fun a => decide (a.due ≤ now) }
      (tally (fun q id => q.promote id now) (q.dueIds now)
        { q with delayed := q.delayed.dropWhile fun a => decide (a.due ≤ now) }) :=
    tally_treats Waits (Promotes.refl now) (fun q id => promotes_promote now) Promotes.cons
      (fun q id other waits ne still => waits_promote waits ne still now)
      (hq.lists_dueIds now).1 _ waits
  rw [promoteDue, (split_due hq.sorted_delayed now).1]
  exact ⟨promotes.count, promotes.found, promotes.lane, promotes.settings, promotes.stats⟩

end Promotion

section Failure

private theorem TakesBack.refl (now : Instant) (q : Queue) : TakesBack now [] q (0, q) where
  count := rfl
  found id := by simp
  lane i := by simp
  settings := rfl
  delayed := rfl
  stats := rfl

private theorem TakesBack.cons {k : Nat} {r : Nat × Queue} (one : TakesBack now [id] q (k, q₁))
    (rest : TakesBack now ids q₁ r) (new : id ∉ ids) :
    TakesBack now (id :: ids) q (k + r.1, r.2) := by
  have settings : q₁.settings = q.settings := one.settings
  have same : r.2.find? id = q₁.find? id := (rest.found id).trans (if_neg new)
  have failed : q₁.isFailed id = r.2.isFailed id := (isFailed_congr same).symm
  constructor
  · have first : k = [id].countP q₁.isFailed := one.count
    show k + r.1 = _
    rw [first, rest.count, List.countP_cons, List.countP_cons, failed]
    simp [Nat.add_comm]
  · intro other
    rw [rest.found, one.found, settings]
    by_cases here : other = id
    · simp [here, new]
    · simp [here]
  · intro i
    rw [rest.lane, one.lane, List.filter_cons, List.filter_cons, standsIn_congr same]
    cases q₁.standsIn i id <;> simp
  · exact rest.settings.trans settings
  · exact rest.delayed.trans one.delayed
  · rw [rest.stats, one.stats]
    simp only [List.countP_cons, List.countP_nil, failed]
    cases r.2.isFailed id <;> simp [Nat.add_assoc, Nat.add_comm]

private theorem recordFailure_beside_last (hm : q.find? id = some m)
    (spent : q.settings.maxRetries < m.failures + 1) (now : Instant) :
    (q.recordFailure id now).1 = true ∧ (q.recordFailure id now).2.lanes = q.lanes ∧
      (q.recordFailure id now).2.delayed = q.delayed ∧
      (q.recordFailure id now).2.stats = { q.stats with failed := q.stats.failed + 1 } := by
  rw [recordFailure_last hm spent]
  exact ⟨rfl, rfl, rfl, rfl⟩

private theorem recordFailure_beside_retry (hm : q.find? id = some m)
    (left : ¬q.settings.maxRetries < m.failures + 1) (now : Instant) :
    (q.recordFailure id now).1 = false ∧
      (q.recordFailure id now).2.lanes = q.lanes.modify m.priority (· ++ [id]) ∧
      (q.recordFailure id now).2.delayed = q.delayed ∧
      (q.recordFailure id now).2.stats =
        { q.stats with redelivered := q.stats.redelivered + 1 } := by
  have moved : ∀ other, ((q.modify id fun n =>
        { n with failures := n.failures + 1, lane := n.priority }).count
      fun s => { s with redelivered := s.redelivered + 1 }).find? other =
      if other = id then some { m with failures := m.failures + 1, lane := m.priority }
      else q.find? other := find?_of_modified hm rfl fun _ => rfl
  rw [recordFailure_retry hm left, enqueue_eq ((moved id).trans (if_pos rfl))]
  exact ⟨rfl, rfl, rfl, rfl⟩

private theorem takesBack_recordFailure (hq : q.Coherent) (out : q.IsOut id) (now : Instant) :
    TakesBack now [id] q
      (if (q.recordFailure id now).1 then 1 else 0, (q.recordFailure id now).2) := by
  obtain ⟨m, token, owner, since, hm, state⟩ := out
  have views := find?_recordFailure hm now
  have here := (views id).trans (if_pos rfl)
  have found : ∀ other, (q.recordFailure id now).2.find? other =
      if other ∈ [id] then (q.find? other).map (q.struck · now) else q.find? other := by
    intro other
    rw [views]
    by_cases e : other = id
    · simp [e, hm]
    · simp [e]
  by_cases spent : q.settings.maxRetries < m.failures + 1
  · obtain ⟨yes, lanes, delayed, stats⟩ := recordFailure_beside_last hm spent now
    rw [struck, if_pos spent] at here
    have failed : (q.recordFailure id now).2.isFailed id = true := by simp [isFailed, here]
    have stands : ∀ i, (q.recordFailure id now).2.standsIn i id = false := by simp [standsIn, here]
    refine ⟨?_, found, fun i => ?_, settings_recordFailure, delayed, ?_⟩
    · simp [yes, failed]
    · simp [lane, lanes, stands]
    · simp [stats, failed]
  · obtain ⟨no, lanes, delayed, stats⟩ := recordFailure_beside_retry hm spent now
    rw [struck, if_neg spent] at here
    have failed : (q.recordFailure id now).2.isFailed id = false := by simp [isFailed, here]
    have stands : ∀ i, (q.recordFailure id now).2.standsIn i id = (m.priority == i) := by
      simp [standsIn, here]
    refine ⟨?_, found, fun i => ?_, settings_recordFailure, delayed, ?_⟩
    · simp [no, failed]
    · rw [lane, lanes, lane]
      by_cases home : m.priority = i
      · subst home
        rw [getD_modify_of_lt _ (hq.priority_lt m (mem_of_find? hm))]
        simp [stands]
      · rw [getD_modify_of_ne _ home]
        simp [stands, home]
    · simp [stats, failed]

private theorem takesBack_tally (hq : q.Coherent) (hids : ids.Nodup) (all : ∀ id ∈ ids, q.IsOut id)
    (now : Instant) : TakesBack now ids q (tally (fun q id => q.recordFailure id now) ids q) := by
  refine tally_treats (fun q id => q.Coherent ∧ q.IsOut id) (TakesBack.refl now) ?_
    TakesBack.cons ?_ hids q fun id hid => ⟨hq, all id hid⟩
  · rintro q id ⟨hq, out⟩
    exact takesBack_recordFailure hq out now
  · rintro q id other ⟨hq, m, token, owner, since, hm, out⟩ ne ⟨-, n, t, o, s, hn, out'⟩
    refine ⟨hq.recordFailure hm out now, n, t, o, s, ?_, out'⟩
    rw [find?_recordFailure hm, if_neg ne, hn]

theorem Coherent.lists_expired (hq : q.Coherent) (order : VisitOrder) (now : Instant) :
    Lists (q.IsLate now) (order.arrange (q.expired now)) := by
  have same := order.arrange_perm (q.expired now)
  refine ⟨same.nodup_iff.mpr (nodup_expired hq.nodup_ids now), fun id => ?_⟩
  rw [same.mem_iff, mem_expired_iff hq.nodup_ids]
  constructor
  · rintro ⟨timeout, m, set, hm, expired⟩
    cases state : m.state with
    | running token owner since =>
      rw [state, MessageState.isExpired, decide_eq_true_eq] at expired
      exact ⟨timeout, m, token, owner, since, set, hm, state, expired⟩
    | queued => simp [state, MessageState.isExpired] at expired
    | delayed => simp [state, MessageState.isExpired] at expired
    | failed => simp [state, MessageState.isExpired] at expired
  · rintro ⟨timeout, m, token, owner, since, set, hm, state, expired⟩
    exact ⟨timeout, m, set, hm, by simpa [state, MessageState.isExpired] using expired⟩

end Failure

section Boost

private theorem Boosts.refl (q : Queue) : Boosts [] q (0, q) where
  count := rfl
  found id := by simp
  first := by simp
  others i _ := by simp
  settings := rfl
  delayed := rfl
  stats := rfl

private theorem Boosts.cons {k : Nat} {r : Nat × Queue} (one : Boosts [id] q (k, q₁))
    (rest : Boosts ids q₁ r) (new : id ∉ ids) : Boosts (id :: ids) q (k + r.1, r.2) where
  count := by
    have first : k = 1 := one.count
    show k + r.1 = _
    rw [first, rest.count, List.length_cons, Nat.add_comm]
  found other := by
    rw [rest.found, one.found]
    by_cases here : other = id
    · simp [here, new]
    · simp [here]
  first := by
    rw [rest.first, one.first, List.append_assoc, List.singleton_append]
  others i outside := by
    rw [rest.others i outside, one.others i outside, List.filter_filter]
    refine List.filter_congr fun other _ => ?_
    simp [Bool.and_comm]
  settings := rest.settings.trans one.settings
  delayed := rest.delayed.trans one.delayed
  stats := by
    rw [rest.stats, one.stats]
    simp [Nat.add_assoc, Nat.add_comm 1]

private def Climbs (q : Queue) (id : String) : Prop :=
  ∃ m, q.find? id = some m ∧ m.state = .queued ∧ 0 < m.lane

private theorem boosts_boost (hq : q.Coherent) (climbs : q.Climbs id) :
    Boosts [id] q (if (q.boost id).1 then 1 else 0, (q.boost id).2) := by
  obtain ⟨m, hm, state, outside⟩ := climbs
  have boosted := boost_eq hm ((hq.mem_lane_iff m.lane id).mpr ⟨m, hm, state, rfl⟩)
  have messages := congrArg (·.2.messages) boosted
  have views := find?_of_modified hm messages fun _ => rfl
  have lanes : (q.boost id).2.lanes =
      (q.lanes.modify m.lane (·.erase id)).modify 0 (· ++ [id]) := congrArg (·.2.lanes) boosted
  have lane_lt := hq.lane_lt (mem_of_find? hm)
  constructor
  · simp [boosted]
  · intro other
    rw [views]
    by_cases here : other = id
    · simp [here, hm]
    · simp [here]
  · have some_lane : 0 < (q.lanes.modify m.lane (·.erase id)).length := by
      rw [List.length_modify]
      omega
    rw [lane, lanes, getD_modify_of_lt _ some_lane, getD_modify_of_ne _ (Nat.ne_of_gt outside)]
    rfl
  · intro i above
    rw [lane, lanes, getD_modify_of_ne _ (Nat.ne_of_lt above)]
    by_cases here : m.lane = i
    · subst here
      rw [getD_modify_of_lt _ lane_lt]
      exact ((hq.nodup_lane m.lane).erase_eq_filter id).trans
        (List.filter_congr fun other _ => by by_cases e : other = id <;> simp [e])
    · rw [getD_modify_of_ne _ here]
      refine (List.filter_eq_self.mpr fun other ho => ?_).symm
      obtain ⟨n, hn, -, level⟩ := (hq.mem_lane_iff i other).mp ho
      have ne : other ≠ id := by
        rintro rfl
        exact here (Option.some.inj (hn.symm.trans hm) ▸ level)
      simpa using ne
  · exact settings_boost
  · exact congrArg (·.2.delayed) boosted
  · exact congrArg (·.2.stats) boosted

private theorem boosts_tally (hq : q.Coherent) (hids : ids.Nodup) (all : ∀ id ∈ ids, q.Climbs id) :
    Boosts ids q (tally boost ids q) := by
  refine tally_treats (fun q id => q.Coherent ∧ q.Climbs id) Boosts.refl ?_
    Boosts.cons ?_ hids q fun id hid => ⟨hq, all id hid⟩
  · rintro q id ⟨hq, climbs⟩
    exact boosts_boost hq climbs
  · rintro q id other ⟨hq, m, hm, ready, -⟩ ne ⟨-, n, hn, climbs⟩
    exact ⟨hq.boost hm ready, n, (find?_boost_of_ne ne).trans hn, climbs⟩

theorem Coherent.lists_starving (hq : q.Coherent) (now : Instant) :
    Lists (q.Starves now) (q.starving now) := by
  refine ⟨nodup_starving hq.nodup_ids now, fun id => ?_⟩
  simp only [mem_starving_iff hq.nodup_ids, isStarving_iff]
  rfl

private theorem Coherent.inTurn_starving (hq : q.Coherent) (now : Instant) :
    q.InTurn (q.starving now) := by
  rw [starving, InTurn]
  cases q.settings.boostTimeout with
  | none => exact .nil
  | some timeout =>
    have trans : ∀ a b c : Message, starvingLe a b → starvingLe b c → starvingLe a c :=
      fun _ _ _ => starvingLe_trans
    have sorted := List.pairwise_mergeSort trans starvingLe_total
      (q.messages.filter (isStarving timeout now))
    have held : ∀ m ∈ (q.messages.filter (isStarving timeout now)).mergeSort starvingLe,
        q.find? m.id = some m := fun m hm =>
      find?_id hq.nodup_ids (List.mem_filter.mp ((List.mergeSort_perm _ _).mem_iff.mp hm)).1
    refine List.pairwise_map.mpr (sorted.imp_of_mem fun {a b} ha hb le m n hm hn => ?_)
    obtain rfl := Option.some.inj ((held a ha).symm.trans hm)
    obtain rfl := Option.some.inj ((held b hb).symm.trans hn)
    simp only [starvingLe, Bool.or_eq_true, decide_eq_true_eq, Bool.and_eq_true,
      beq_iff_eq] at le
    exact le.imp id fun h => ⟨congrArg Instant.mk h.1, h.2⟩

end Boost

section Whole

variable {due late hungry touched : List String} {r : SweepReport × Queue}

private theorem filter_notMem_of_subset (sub : ids ⊆ touched) : ids.filter (· ∉ touched) = [] :=
  List.filter_eq_nil_iff.mpr fun id hid => by simpa using sub hid

private theorem Promotes.spares {s : Nat × Queue} (promotes : Promotes now due q s)
    (sub : due ⊆ touched) : Spares touched q s.2 where
  found id out := (promotes.found id).trans (if_neg fun hid => out (sub hid))
  lane i := by
    have gone : (due.filter (s.2.standsIn i)).reverse.filter (· ∉ touched) = [] :=
      filter_notMem_of_subset fun id hid => sub (List.mem_filter.mp (List.mem_reverse.mp hid)).1
    rw [promotes.lane, List.filter_append, gone, List.nil_append]

private theorem TakesBack.spares {s : Nat × Queue} (takesBack : TakesBack now late q s)
    (sub : late ⊆ touched) : Spares touched q s.2 where
  found id out := (takesBack.found id).trans (if_neg fun hid => out (sub hid))
  lane i := by
    have gone : (late.filter (s.2.standsIn i)).filter (· ∉ touched) = [] :=
      filter_notMem_of_subset fun id hid => sub (List.mem_filter.mp hid).1
    rw [takesBack.lane, List.filter_append, gone, List.append_nil]

private theorem Boosts.spares {s : Nat × Queue} (boosts : Boosts hungry q s)
    (sub : hungry ⊆ touched) :
    Spares touched q s.2 where
  found id out := (boosts.found id).trans (if_neg fun hid => out (sub hid))
  lane i := by
    obtain rfl | above := Nat.eq_zero_or_pos i
    · rw [boosts.first, List.filter_append, filter_notMem_of_subset sub, List.append_nil]
    · rw [boosts.others i above, List.filter_filter]
      refine List.filter_congr fun id _ => ?_
      by_cases hid : id ∈ hungry
      · simp [hid, sub hid]
      · simp [hid]

private theorem Spares.trans (first : Spares touched q q₁) (rest : Spares touched q₁ q') :
    Spares touched q q' where
  found id out := (rest.found id out).trans (first.found id out)
  lane i := (rest.lane i).trans (first.lane i)

namespace Phases

private theorem spares (h : Phases now due late hungry q q₁ q₂ r) :
    Spares (due ++ late ++ hungry) q r.2 :=
  have promoted : Spares (due ++ late ++ hungry) q q₁ :=
    h.promotes.spares fun id hid => by simp [hid]
  have struck : Spares (due ++ late ++ hungry) q₁ q₂ :=
    h.takesBack.spares fun id hid => by simp [hid]
  have boosted : Spares (due ++ late ++ hungry) q₂ r.2 :=
    h.boosts.spares fun id hid => by simp [hid]
  (promoted.trans struck).trans boosted

private theorem stats (h : Phases now due late hungry q q₁ q₂ r) :
    r.2.stats = { q.stats with
      redelivered := q.stats.redelivered + r.1.redelivered
      failed := q.stats.failed + r.1.failed
      boosted := q.stats.boosted + r.1.boosted } := by
  have promoted : q₁.stats = q.stats := h.promotes.stats
  have struck := h.takesBack.stats
  have count := h.takesBack.count
  have hungry_count := h.boosts.count
  simp only at struck count hungry_count
  rw [h.boosts.stats, struck, promoted, h.redelivered, count, hungry_count]

theorem not_isDue (h : Phases now due late hungry q q₁ q₂ r) (id : String) :
    ¬r.2.IsDue now id := by
  rintro ⟨-, a, -, -, ha, -, early⟩
  have delayed : r.2.delayed = q.delayed.filter fun a => decide (now < a.due) :=
    (h.boosts.delayed.trans h.takesBack.delayed).trans h.delayed
  have later : now < a.due := by
    rw [delayed, List.mem_filter, decide_eq_true_eq] at ha
    exact ha.2
  exact Nat.not_le.mpr later early

theorem not_isLate (h : Phases now due late hungry q q₁ q₂ r) (id : String) :
    ¬r.2.IsLate now id := by
  rintro ⟨timeout, m, token, owner, since, set, hm, state, expired⟩
  obtain ⟨n, hn, out⟩ : ∃ n, q₂.find? id = some n ∧ n.state = .running token owner since := by
    have found := (h.boosts.found id).symm.trans hm
    split_ifs at found
    · obtain ⟨n, hn, rfl⟩ := Option.map_eq_some_iff.mp found
      exact ⟨n, hn, state⟩
    · exact ⟨m, found, state⟩
  have found := (h.takesBack.found id).symm.trans hn
  by_cases hid : id ∈ late
  · -- Nobody who was taken back is out.
    rw [if_pos hid] at found
    obtain ⟨k, -, rfl⟩ := Option.map_eq_some_iff.mp found
    split_ifs at out
  · rw [if_neg hid] at found
    have same : r.2.settings = q₁.settings := h.boosts.settings.trans h.takesBack.settings
    have is_late : q₁.IsLate now id :=
      ⟨timeout, n, token, owner, since, same ▸ set, found, out, expired⟩
    exact hid ((h.lists_late.2 id).mpr is_late)

theorem not_starves (h : Phases now due late hungry q q₁ q₂ r) (id : String) :
    ¬r.2.Starves now id := by
  rintro ⟨timeout, m, set, hm, ready, outside, waited⟩
  have found := (h.boosts.found id).symm.trans hm
  by_cases hid : id ∈ hungry
  · rw [if_pos hid] at found
    obtain ⟨k, -, rfl⟩ := Option.map_eq_some_iff.mp found
    exact Nat.lt_irrefl 0 outside
  · rw [if_neg hid] at found
    have same : r.2.settings = q₂.settings := h.boosts.settings
    have starves : q₂.Starves now id := ⟨timeout, m, same ▸ set, found, ready, outside, waited⟩
    exact hid ((h.lists_hungry.2 id).mpr starves)

end Phases

private theorem redelivered_sweepIn (order : VisitOrder) (q : Queue) (now : Instant) :
    (q.sweepIn order now).1.redelivered =
      (order.arrange ((q.promoteDue now).2.expired now)).length -
        (tally (fun q id => q.recordFailure id now)
          (order.arrange ((q.promoteDue now).2.expired now)) (q.promoteDue now).2).1 := rfl

theorem Coherent.phases_sweepIn (hq : q.Coherent) (order : VisitOrder) (now : Instant) :
    Phases now (q.dueIds now) (order.arrange ((q.promoteDue now).2.expired now))
      ((q.struckLate order now).starving now) q (q.promoteDue now).2 (q.struckLate order now)
      (q.sweepIn order now) := by
  have hdue := (moves_promoteDue q now).coherent hq
  have hstruck := coherent_struckLate hq order now
  have late := hdue.lists_expired order now
  have hungry := hstruck.lists_starving now
  have takesBack := takesBack_tally hdue late.1 (fun id hid => by
    obtain ⟨-, m, token, owner, since, -, hm, state, -⟩ := (late.2 id).mp hid
    exact ⟨m, token, owner, since, hm, state⟩) now
  have boosts := boosts_tally hstruck hungry.1 fun id hid => by
    obtain ⟨-, m, -, hm, state, outside, -⟩ := (hungry.2 id).mp hid
    exact ⟨m, hm, state, outside⟩
  refine ⟨hq.lists_dueIds now, hq.promotes_promoteDue now, hq.delayed_promoteDue now, late,
    takesBack, ?_, hungry, hstruck.inTurn_starving now, boosts⟩
  rw [redelivered_sweepIn, takesBack.count, List.length_eq_countP_add_countP
    (q.struckLate order now).isFailed, struckLate, Nat.add_sub_cancel_left]
  simp

end Whole

/-- What a sweep of a queue in any state that it can reach does. -/
theorem sweep_goes_through_phases (settings : QueueSettings) (ops : List Operation)
    (order : VisitOrder) (now : Instant) :
    let q := (ofSettings settings).after ops
    let r := q.sweepIn order now
    ∃ due late hungry q₁ q₂, Phases now due late hungry q q₁ q₂ r ∧
      Spares (due ++ late ++ hungry) q r.2 ∧
      r.2.stats = { q.stats with
        redelivered := q.stats.redelivered + r.1.redelivered
        failed := q.stats.failed + r.1.failed
        boosted := q.stats.boosted + r.1.boosted } ∧
      ∀ id, ¬r.2.IsDue now id ∧ ¬r.2.IsLate now id ∧ ¬r.2.Starves now id := by
  intro q r
  have phases := (coherent_after settings ops).phases_sweepIn order now
  exact ⟨_, _, _, _, _, phases, phases.spares, phases.stats, fun id =>
    ⟨phases.not_isDue id, phases.not_isLate id, phases.not_starves id⟩⟩

end WorkBroker.Queue
