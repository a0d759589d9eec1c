import WorkBroker.Proofs.Queue.Coherence
/-!
What the operations of a queue come to, as equations.  A refused operation leaves the queue as it
was; an accepted one is a change of one message with the matching change of the structures beside
it.  The main statement is `pop_cases`: a pop of a coherent queue takes the front of the first lane
that is not empty, and skips nothing.
-/

set_option autoImplicit false
set_option relaxedAutoImplicit false

namespace WorkBroker.Queue

variable {q q' : Queue} {id : String} {m : Message} {now : Instant} {owner token : Nat}

theorem enqueue_eq (hm : q.find? id = some m) (now : Instant) :
    q.enqueue id now =
      { q.modify id fun n => { n with state := .queued, queuedAt := now } with
        lanes := q.lanes.modify m.lane (· ++ [id]), queued := q.queued + 1 } := by
  simp only [enqueue, hm, pushBack, modify]

theorem park_eq (hm : q.find? id = some m) (due : Instant) :
    q.park id due =
      { q.modify id fun n => { n with state := .delayed } with
        delayed := insertAppointment ⟨due, q.nextNumber, id⟩ q.delayed
        nextNumber := q.nextNumber + 1 } := by
  simp only [park, hm, modify]

section Frames

@[simp] theorem settings_enqueue : (q.enqueue id now).settings = q.settings := by
  rw [enqueue]
  split <;> rfl

@[simp] theorem stats_enqueue : (q.enqueue id now).stats = q.stats := by
  rw [enqueue]
  split <;> rfl

@[simp] theorem nextToken_enqueue : (q.enqueue id now).nextToken = q.nextToken := by
  rw [enqueue]
  split <;> rfl

@[simp] theorem settings_park : (q.park id now).settings = q.settings := by
  rw [park]
  split <;> rfl

@[simp] theorem stats_park : (q.park id now).stats = q.stats := by
  rw [park]
  split <;> rfl

@[simp] theorem nextToken_park : (q.park id now).nextToken = q.nextToken := by
  rw [park]
  split <;> rfl

@[simp] theorem settings_enqueueAfter {delay : Duration} :
    (q.enqueueAfter id delay now).settings = q.settings := by
  rw [enqueueAfter]
  split_ifs <;> simp

@[simp] theorem stats_enqueueAfter {delay : Duration} :
    (q.enqueueAfter id delay now).stats = q.stats := by
  rw [enqueueAfter]
  split_ifs <;> simp

@[simp] theorem nextToken_enqueueAfter {delay : Duration} :
    (q.enqueueAfter id delay now).nextToken = q.nextToken := by
  rw [enqueueAfter]
  split_ifs <;> simp

@[simp] theorem settings_recordFailure : (q.recordFailure id now).2.settings = q.settings := by
  rw [recordFailure]
  split
  · rfl
  · split_ifs
    · rfl
    · exact settings_enqueue

@[simp] theorem nextToken_recordFailure :
    (q.recordFailure id now).2.nextToken = q.nextToken := by
  rw [recordFailure]
  split
  · rfl
  · split_ifs
    · rfl
    · exact nextToken_enqueue

@[simp] theorem settings_promote : (q.promote id now).2.settings = q.settings := by
  rw [promote]
  split
  · rfl
  · split_ifs <;> rfl

@[simp] theorem nextToken_promote : (q.promote id now).2.nextToken = q.nextToken := by
  rw [promote]
  split
  · rfl
  · split_ifs <;> rfl

@[simp] theorem settings_boost : (q.boost id).2.settings = q.settings := by
  rw [boost]
  split
  · rfl
  · split_ifs <;> rfl

@[simp] theorem nextToken_boost : (q.boost id).2.nextToken = q.nextToken := by
  rw [boost]
  split
  · rfl
  · split_ifs <;> rfl

end Frames

theorem push_cases (q : Queue) (id : String) (payload : Bytes) (priority : Nat) (delay : Duration)
    (now : Instant) :
    (∃ e, q.push id payload priority delay now = (.error e, q)) ∨
      priority < q.lanes.length ∧ q.find? id = none ∧ q.size < q.settings.capacity ∧
        q.push id payload priority delay now =
          (.ok (), (count { q with
              messages := q.messages ++ [⟨id, priority, priority, payload, .queued, now, 0⟩] }
            fun s => { s with accepted := s.accepted + 1 }).enqueueAfter id delay now) := by
  rw [push]
  split_ifs with hp hd hf
  · exact .inl ⟨_, rfl⟩
  · exact .inl ⟨_, rfl⟩
  · exact .inl ⟨_, rfl⟩
  · exact .inr ⟨Nat.lt_of_not_le hp, by simpa using hd, Nat.lt_of_not_le hf, rfl⟩

theorem unpop_cases (q : Queue) (id : String) (token : Nat) :
    q.unpop id token = (false, q) ∨
      ∃ m owner since, q.find? id = some m ∧ m.state = .running token owner since ∧
        q.unpop id token =
          (true, count { q.modify id fun n => { n with state := .queued } with
              lanes := q.lanes.modify m.lane (id :: ·), queued := q.queued + 1 }
            fun s => { s with delivered := s.delivered - 1 }) := by
  cases hm : q.find? id with
  | none => exact .inl (by simp only [unpop, hm])
  | some m =>
    cases hs : m.state with
    | running current owner since =>
      by_cases ht : current = token
      · subst ht
        exact .inr ⟨m, owner, since, rfl, hs, by simp only [unpop, hm, hs]; rfl⟩
      · exact .inl (by simp only [unpop, hm, hs, if_neg ht])
    | queued => exact .inl (by simp only [unpop, hm, hs])
    | delayed => exact .inl (by simp only [unpop, hm, hs])
    | failed => exact .inl (by simp only [unpop, hm, hs])

def settle (q : Queue) (id : String) (requeue : Bool) (delay : Duration) (now : Instant) : Queue :=
  if requeue then
    ((q.modify id fun n => { n with lane := n.priority }).count
      fun s => { s with requeued := s.requeued + 1 }).enqueueAfter id delay now
  else (q.remove id).count fun s => { s with completed := s.completed + 1 }

theorem settle_done (q : Queue) (id : String) (delay : Duration) (now : Instant) :
    q.settle id false delay now =
      (q.remove id).count fun s => { s with completed := s.completed + 1 } := rfl

theorem settle_requeue (q : Queue) (id : String) (delay : Duration) (now : Instant) :
    q.settle id true delay now =
      ((q.modify id fun n => { n with lane := n.priority }).count
        fun s => { s with requeued := s.requeued + 1 }).enqueueAfter id delay now := rfl

theorem ack_eq (hm : q.find? id = some m) {since : Instant}
    (state : m.state = .running token owner since) (requeue : Bool) (delay : Duration)
    (now : Instant) :
    q.ack id token requeue delay now = (.ok (), q.settle id requeue delay now) := by
  cases requeue <;> simp [ack, hm, state, settle]

theorem ack_cases (q : Queue) (id : String) (token : Nat) (requeue : Bool) (delay : Duration)
    (now : Instant) :
    (∃ e, q.ack id token requeue delay now = (.error e, q)) ∨
      ∃ m owner since, q.find? id = some m ∧ m.state = .running token owner since ∧
        q.ack id token requeue delay now = (.ok (), q.settle id requeue delay now) := by
  cases hm : q.find? id with
  | none => exact .inl ⟨.unknownMessage id, by simp only [ack, hm]⟩
  | some m =>
    cases hs : m.state with
    | running current owner since =>
      by_cases ht : current = token
      · subst ht
        exact .inr ⟨m, owner, since, rfl, hs, ack_eq hm hs requeue delay now⟩
      · refine .inl ⟨.invalidToken id, ?_⟩
        simp only [ack, hm, hs, ne_eq, ht, not_false_eq_true, if_true]
    | queued => exact .inl ⟨.invalidState id, by simp only [ack, hm, hs]⟩
    | delayed => exact .inl ⟨.invalidState id, by simp only [ack, hm, hs]⟩
    | failed => exact .inl ⟨.invalidState id, by simp only [ack, hm, hs]⟩

theorem recordFailure_last (hm : q.find? id = some m)
    (spent : q.settings.maxRetries < m.failures + 1) (now : Instant) :
    q.recordFailure id now =
      (true, count
        { q.modify id fun n => { n with failures := n.failures + 1, state := .failed } with
          failed := q.failed + 1 } fun s => { s with failed := s.failed + 1 }) := by
  simp only [recordFailure, hm, if_pos spent]
  rfl

theorem recordFailure_retry (hm : q.find? id = some m)
    (left : ¬q.settings.maxRetries < m.failures + 1) (now : Instant) :
    q.recordFailure id now =
      (false, ((q.modify id fun n =>
          { n with failures := n.failures + 1, lane := n.priority }).count
        fun s => { s with redelivered := s.redelivered + 1 }).enqueue id now) := by
  simp only [recordFailure, hm, if_neg left]

theorem promote_eq (hm : q.find? id = some m) (state : m.state = .delayed) (now : Instant) :
    q.promote id now =
      (true, { q.modify id fun n => { n with state := .queued, queuedAt := now } with
        lanes := q.lanes.modify m.lane (id :: ·), queued := q.queued + 1 }) := by
  simp only [promote, hm, state, beq_self_eq_true, if_true]
  rfl

theorem boost_eq (hm : q.find? id = some m) (stands : id ∈ q.lane m.lane) :
    q.boost id =
      (true, count { q.modify id fun n => { n with lane := 0 } with
          lanes := (q.lanes.modify m.lane (·.erase id)).modify 0 (· ++ [id]) }
        fun s => { s with boosted := s.boosted + 1 }) := by
  have h : (q.lanes.getD m.lane []).contains id = true := by simpa [lane] using stands
  simp only [boost, hm, h, if_true]
  rfl

theorem eraseOne_eq (hm : q.find? id = some m) (state : m.state = .failed) :
    q.eraseOne id =
      (true, count { q.remove id with failed := q.failed - 1 }
        fun s => { s with erased := s.erased + 1 }) := by
  simp only [eraseOne, isFailed, hm, state, beq_self_eq_true, if_true]

theorem eraseOne_cases (q : Queue) (id : String) :
    q.eraseOne id = (false, q) ∨ ∃ m, q.find? id = some m ∧ m.state = .failed := by
  cases hm : q.find? id with
  | none => exact .inl (by simp [eraseOne, isFailed, hm])
  | some m =>
    by_cases hs : m.state = .failed
    · exact .inr ⟨m, rfl, hs⟩
    · exact .inl (by simp [eraseOne, isFailed, hm, hs])

theorem eraseFailed_cons (q : Queue) (id : String) (rest : List String) :
    q.eraseFailed (id :: rest) =
      (if (q.eraseOne id).1 then id :: ((q.eraseOne id).2.eraseFailed rest).1
        else ((q.eraseOne id).2.eraseFailed rest).1,
        ((q.eraseOne id).2.eraseFailed rest).2) := by
  rw [eraseFailed]
  cases q.eraseOne id with
  | mk yes q' => cases yes <;> rfl

private theorem tally_eq_foldl (f : Queue → String → Bool × Queue) (ids : List String) (q : Queue) :
    tally f ids q =
      ids.foldl (fun p id => (if (f p.2 id).1 then p.1 + 1 else p.1, (f p.2 id).2)) (0, q) := rfl

theorem tally_cons (f : Queue → String → Bool × Queue) (id : String) (ids : List String)
    (q : Queue) :
    tally f (id :: ids) q =
      ((if (f q id).1 then 1 else 0) + (tally f ids (f q id).2).1, (tally f ids (f q id).2).2) := by
  -- A count that starts at `n` is `n` ahead of one that starts at zero.
  have ahead : ∀ (ids : List String) (p : Nat × Queue),
      ids.foldl (fun p id => (if (f p.2 id).1 then p.1 + 1 else p.1, (f p.2 id).2)) p =
        (p.1 + (tally f ids p.2).1, (tally f ids p.2).2) := by
    intro ids
    induction ids with
    | nil => exact fun p => rfl
    | cons id ids ih =>
      intro p
      rw [List.foldl_cons, ih, tally_eq_foldl f (id :: ids), List.foldl_cons, ih]
      split_ifs <;> simp [Nat.add_assoc]
  rw [tally_eq_foldl, List.foldl_cons, ahead]

section Views

theorem find?_enqueue (hm : q.find? id = some m) (now : Instant) (other : String) :
    (q.enqueue id now).find? other =
      if other = id then some { m with state := .queued, queuedAt := now } else q.find? other := by
  have h := congrArg messages (enqueue_eq hm now)
  exact find?_of_modified hm h (fun _ => rfl) other

theorem find?_park (hm : q.find? id = some m) (due : Instant) (other : String) :
    (q.park id due).find? other =
      if other = id then some { m with state := .delayed } else q.find? other := by
  have h := congrArg messages (park_eq hm due)
  exact find?_of_modified hm h (fun _ => rfl) other

/-- A message that has suffered one more failed attempt. -/
def struck (q : Queue) (m : Message) (now : Instant) : Message :=
  if q.settings.maxRetries < m.failures + 1 then
    { m with failures := m.failures + 1, state := .failed }
  else
    { m with failures := m.failures + 1, lane := m.priority, state := .queued, queuedAt := now }

theorem find?_recordFailure (hm : q.find? id = some m) (now : Instant) (other : String) :
    (q.recordFailure id now).2.find? other =
      if other = id then some (q.struck m now) else q.find? other := by
  by_cases spent : q.settings.maxRetries < m.failures + 1
  · rw [struck, if_pos spent]
    have h := congrArg (·.2.messages) (recordFailure_last hm spent now)
    exact find?_of_modified hm h (fun _ => rfl) other
  · rw [struck, if_neg spent, recordFailure_retry hm spent]
    have h : ∀ other, ((q.modify id fun n =>
        { n with failures := n.failures + 1, lane := n.priority }).count
          fun s => { s with redelivered := s.redelivered + 1 }).find? other =
        if other = id then some { m with failures := m.failures + 1, lane := m.priority }
        else q.find? other :=
      find?_of_modified hm rfl fun _ => rfl
    rw [find?_enqueue ((h id).trans (if_pos rfl)), h]
    split_ifs <;> rfl

private theorem struck_congr (same : q'.settings = q.settings) (m : Message) (now : Instant) :
    q'.struck m now = q.struck m now := by
  rw [struck, same, struck]

theorem find?_strike {ids : List String} (hids : ids.Nodup) (q : Queue) (now : Instant)
    (other : String) :
    (tally (fun q id => q.recordFailure id now) ids q).2.find? other =
      if other ∈ ids then (q.find? other).map (q.struck · now) else q.find? other := by
  induction ids generalizing q with
  | nil => simp [tally]
  | cons id ids ih =>
    obtain ⟨new, hids⟩ := List.nodup_cons.mp hids
    have struck_eq : ∀ m, (q.recordFailure id now).2.struck m now = q.struck m now :=
      fun m => struck_congr settings_recordFailure m now
    rw [tally_cons, ih hids]
    simp only [struck_eq]
    cases hm : q.find? id with
    | none =>
      have same : (q.recordFailure id now).2 = q := by simp only [recordFailure, hm]
      rw [same]
      by_cases e : other = id
      · simp [e, new, hm]
      · simp [e]
    | some m =>
      rw [find?_recordFailure hm]
      by_cases e : other = id
      · simp [e, new, hm]
      · simp [e]

theorem find?_boost_of_ne {other : String} (ne : other ≠ id) :
    (q.boost id).2.find? other = q.find? other := by
  cases hm : q.find? id with
  | none => simp only [boost, hm]
  | some m =>
    by_cases stands : id ∈ q.lane m.lane
    · have h := congrArg (·.2.messages) (boost_eq hm stands)
      exact (find?_of_modified hm h (fun _ => rfl) other).trans (if_neg ne)
    · have h : (q.lanes.getD m.lane []).contains id = false := by simpa [lane] using stands
      simp only [boost, hm, h, Bool.false_eq_true, if_false]

end Views

section Lists

theorem mem_expired_iff (hq : q.ids.Nodup) :
    id ∈ q.expired now ↔ ∃ timeout m, q.settings.ackTimeout = some timeout ∧
      q.find? id = some m ∧ m.state.isExpired timeout now := by
  rw [expired]
  cases q.settings.ackTimeout with
  | none => simp
  | some timeout => simpa using mem_map_filter_iff hq _

theorem nodup_expired (hq : q.ids.Nodup) (now : Instant) : (q.expired now).Nodup := by
  rw [expired]
  cases q.settings.ackTimeout with
  | none => exact List.nodup_nil
  | some timeout => exact nodup_map_filter hq _

theorem mem_heldBy_iff (hq : q.ids.Nodup) :
    id ∈ q.heldBy owner ↔ ∃ m, q.find? id = some m ∧ m.state.isHeldBy owner :=
  mem_map_filter_iff hq _

theorem nodup_heldBy (hq : q.ids.Nodup) (owner : Nat) : (q.heldBy owner).Nodup :=
  nodup_map_filter hq _

theorem mem_starving_iff (hq : q.ids.Nodup) :
    id ∈ q.starving now ↔ ∃ timeout m, q.settings.boostTimeout = some timeout ∧
      q.find? id = some m ∧ isStarving timeout now m := by
  rw [starving]
  cases q.settings.boostTimeout with
  | none => simp
  | some timeout =>
    rw [((List.mergeSort_perm _ starvingLe).map _).mem_iff, mem_map_filter_iff hq]
    simp

theorem nodup_starving (hq : q.ids.Nodup) (now : Instant) : (q.starving now).Nodup := by
  rw [starving]
  cases q.settings.boostTimeout with
  | none => exact List.nodup_nil
  | some timeout =>
    exact ((List.mergeSort_perm _ starvingLe).map _).nodup_iff.mpr (nodup_map_filter hq _)

end Lists

section Pop

private theorem ready?_eq (hm : q.find? id = some m) (state : m.state = .queued) :
    q.ready? id = some m := by
  simp [ready?, hm, state]

private theorem takeFromLanes_cases (q : Queue) (lanes : List (List String))
    (ready : ∀ lane ∈ lanes, ∀ id ∈ lane, (q.ready? id).isSome) :
    (∀ i, lanes.getD i [] = []) ∧ q.takeFromLanes lanes = (none, lanes) ∨
      ∃ i m, (∃ id, (lanes.getD i []).head? = some id ∧ q.ready? id = some m) ∧
        (∀ j < i, lanes.getD j [] = []) ∧
        q.takeFromLanes lanes = (some m, lanes.modify i List.tail) := by
  induction lanes with
  | nil => exact .inl ⟨fun i => by simp, rfl⟩
  | cons l rest ih =>
    have hrest := ih fun lane hlane => ready lane (List.mem_cons_of_mem l hlane)
    cases l with
    | nil =>
      rcases hrest with ⟨empty, h⟩ | ⟨i, m, front, before, h⟩
      · refine .inl ⟨fun i => ?_, by simp [takeFromLanes, takeFromLane, h]⟩
        cases i with
        | zero => rfl
        | succ i => exact empty i
      · refine .inr ⟨i + 1, m, front, fun j hj => ?_, by simp [takeFromLanes, takeFromLane, h]⟩
        cases j with
        | zero => rfl
        | succ j => exact before j (by omega)
    | cons id l =>
      obtain ⟨m, hm⟩ := Option.isSome_iff_exists.mp
        (ready (id :: l) List.mem_cons_self id List.mem_cons_self)
      exact .inr ⟨0, m, ⟨id, rfl, hm⟩, fun j hj => by omega,
        by simp [takeFromLanes, takeFromLane, hm]⟩

def taken (q : Queue) (m : Message) (owner : Nat) (now : Instant) : Queue :=
  count { q.modify m.id fun n => { n with state := .running q.nextToken owner now } with
      lanes := q.lanes.modify m.lane List.tail
      queued := q.queued - 1
      nextToken := q.nextToken + 1 }
    fun s => { s with delivered := s.delivered + 1 }

theorem find?_taken (hm : q.find? m.id = some m) (owner : Nat) (now : Instant) (other : String) :
    (q.taken m owner now).find? other =
      if other = m.id then some { m with state := .running q.nextToken owner now }
      else q.find? other :=
  find?_of_modified (f := fun n => { n with state := .running q.nextToken owner now }) hm rfl
    (fun _ => rfl) other

namespace Coherent

private theorem ready?_isSome (hq : q.Coherent) {lane : List String} (hl : lane ∈ q.lanes)
    (hid : id ∈ lane) : (q.ready? id).isSome := by
  obtain ⟨i, hi, rfl⟩ := List.getElem_of_mem hl
  have stands : id ∈ q.lane i := by simpa [Queue.lane, hi] using hid
  obtain ⟨m, hm, state, _⟩ := (hq.mem_lane_iff i id).mp stands
  simp [ready?_eq hm state]

private theorem queued_eq_zero (hq : q.Coherent) (empty : ∀ i, q.lane i = []) : q.queued = 0 := by
  rw [hq.queued_eq]
  refine List.countP_eq_zero.mpr fun m hm state => ?_
  have stands : m.id ∈ q.lane m.lane :=
    (hq.mem_lane_iff _ _).mpr ⟨m, find?_id hq.nodup_ids hm, by simpa using state, rfl⟩
  simp [empty] at stands

/-- A pop takes the front of the first lane that is not empty. -/
theorem pop_cases (hq : q.Coherent) (owner : Nat) (now : Instant) :
    (∀ i, q.lane i = []) ∧ q.queued = 0 ∧ q.pop owner now = (none, q) ∨
      ∃ m, q.find? m.id = some m ∧ m.state = .queued ∧ (q.lane m.lane).head? = some m.id ∧
        (∀ j < m.lane, q.lane j = []) ∧
        q.pop owner now =
          (some ⟨m.id, q.nextToken, m.failures + 1, m.payload⟩, q.taken m owner now) := by
  obtain ⟨empty, h⟩ | ⟨i, m, ⟨id, front, ready⟩, before, h⟩ :=
    takeFromLanes_cases q q.lanes fun _ hl _ hid => hq.ready?_isSome hl hid
  · exact .inl ⟨empty, hq.queued_eq_zero empty, by simp only [pop, h]⟩
  · have hid : id ∈ q.lane i := List.mem_of_mem_head? front
    obtain ⟨n, hn, state, rfl⟩ := (hq.mem_lane_iff i id).mp hid
    obtain rfl : n = m := by simpa [ready?_eq hn state] using ready
    obtain rfl : n.id = id := id_of_find? hn
    exact .inr ⟨n, hn, state, front, before, by simp only [pop, h]; rfl⟩

theorem hasReady_iff (hq : q.Coherent) : q.hasReady ↔ ∃ m ∈ q.messages, m.state = .queued := by
  rw [hasReady, decide_eq_true_iff, hq.queued_eq, gt_iff_lt, List.countP_pos_iff]
  simp only [beq_iff_eq]

theorem pop_of_hasReady (hq : q.Coherent) (ready : q.hasReady) (owner : Nat) (now : Instant) :
    ∃ d q', q.pop owner now = (some d, q') := by
  rcases hq.pop_cases owner now with ⟨-, zero, -⟩ | ⟨m, -, -, -, -, h⟩
  · simp [hasReady, zero] at ready
  · exact ⟨_, _, h⟩

/-- A pop that is put back at once leaves the queue as it was, but for the token. -/
theorem unpop_taken (hq : q.Coherent) (hm : q.find? m.id = some m)
    (state : m.state = .queued) (front : (q.lane m.lane).head? = some m.id) (owner : Nat)
    (now : Instant) :
    (q.taken m owner now).unpop m.id q.nextToken =
      (true, { q with nextToken := q.nextToken + 1 }) := by
  have out := (find?_taken hm owner now m.id).trans (if_pos rfl)
  have messages :
      ((q.taken m owner now).modify m.id fun n => { n with state := .queued }).messages =
      q.messages := by
    show (q.messages.map _).map _ = _
    rw [List.map_map]
    refine (List.map_congr_left fun n hn => ?_).trans (List.map_id _)
    by_cases e : n.id = m.id
    · obtain rfl : n = m := Option.some.inj ((find?_id hq.nodup_ids hn).symm.trans (e ▸ hm))
      simp [← state]
    · simp [e]
  -- The front of the lane is put where it was.
  have lanes : (q.lanes.modify m.lane List.tail).modify m.lane (m.id :: ·) = q.lanes := by
    obtain ⟨rest, hrest⟩ := List.head?_eq_some_iff.mp front
    have hl := hq.lane_lt (mem_of_find? hm)
    refine List.ext_getElem? fun i => ?_
    rw [List.getElem?_modify, List.getElem?_modify]
    by_cases e : m.lane = i
    · subst e
      simp only [lane, List.getD_eq_getElem?_getD, List.getElem?_eq_getElem hl,
        Option.getD_some] at hrest
      simp [hl, hrest]
    · simp [e]
  have ready : 0 < q.queued := by
    have := hq.hasReady_iff.mpr ⟨m, mem_of_find? hm, state⟩
    simpa [hasReady] using this
  have queued : q.queued - 1 + 1 = q.queued := by omega
  rcases unpop_cases (q.taken m owner now) m.id q.nextToken with h | ⟨n, _, _, hn, -, h⟩
  · simp [unpop, out] at h
  · obtain rfl := Option.some.inj (out.symm.trans hn)
    rw [h]
    show (true, Queue.mk q.settings ((q.lanes.modify m.lane List.tail).modify m.lane (m.id :: ·))
      ((q.taken m owner now).modify m.id fun n => { n with state := .queued }).messages q.delayed
      (q.queued - 1 + 1) q.failed (q.nextToken + 1) q.nextNumber q.stats) = _
    rw [lanes, messages, queued]

end Coherent

end Pop

end WorkBroker.Queue
