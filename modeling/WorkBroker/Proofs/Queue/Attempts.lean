import WorkBroker.Proofs.Queue.Dossier
/-!
What a delivery carries, and how often a message can fail.  The standing of a message is what its
deliveries depend on: the payload, the failed attempts, and whether it has failed for good.  Pushes
set it, failed attempts change it, and everything else leaves it alone; so it agrees with the
dossier that a history keeps of the id.
-/

set_option autoImplicit false
set_option relaxedAutoImplicit false

namespace WorkBroker

/-- What the deliveries of a message depend on. -/
structure Standing where
  payload : Bytes
  failures : Nat
  failed : Bool
  deriving DecidableEq, Repr

private def Standing.struck (maxRetries : Nat) (s : Standing) : Standing :=
  { s with failures := s.failures + 1, failed := maxRetries < s.failures + 1 }

def Message.standing (m : Message) : Standing := ⟨m.payload, m.failures, m.state == .failed⟩

/-- A dossier says the same as a standing; a message has failed for good when no retry is left. -/
structure Dossier.Describes (r : Dossier) (maxRetries : Nat) (s : Standing) : Prop where
  payload : r.payload = some s.payload
  failures : s.failures = r.strikes
  failed : s.failed ↔ r.strikes = maxRetries + 1

/-- A delivery carries the payload that a dossier has, and counts one attempt more than have
failed. -/
structure Dossier.Vouches (r : Dossier) (maxRetries : Nat) (d : Delivery) : Prop where
  payload : r.payload = some d.payload
  attempt : d.attempt = r.strikes + 1
  attempt_le : d.attempt ≤ maxRetries + 1

namespace Queue

variable {q q' : Queue} {id other : String} {m : Message} {l : Loan} {now : Instant}

/-- The standing of the message with an id. -/
def standing? (q : Queue) (id : String) : Option Standing := (q.find? id).map (·.standing)

private theorem standing?_of_find? (hm : q.find? id = some m) :
    q.standing? id = some m.standing := by
  rw [standing?, hm, Option.map_some]

theorem isFailed_eq (q : Queue) (id : String) :
    q.isFailed id = (q.standing? id).any (·.failed) := by
  rw [isFailed, standing?]
  cases q.find? id <;> rfl

theorem Runs.standing? (runs : q.Runs l) : ∃ s, q.standing? l.id = some s ∧ s.failed = false := by
  obtain ⟨m, hm, state⟩ := runs_iff.mp runs
  exact ⟨m.standing, standing?_of_find? hm, by simp [Message.standing, state]⟩

private theorem standing?_of_modified {f : Message → Message} (hm : q.find? id = some m)
    (h : q'.messages = (q.modify id f).messages) (hf : ∀ n, (f n).id = n.id)
    (same : (f m).standing = m.standing) (other : String) :
    q'.standing? other = q.standing? other := by
  rw [standing?, find?_of_modified hm h hf, standing?]
  split_ifs with e
  · rw [e, hm, Option.map_some, Option.map_some, same]
  · rfl

section Steps

private theorem standing?_enqueueAfter (hm : q.find? id = some m) (ready : m.state ≠ .failed)
    (delay : Duration) (now : Instant) (other : String) :
    (q.enqueueAfter id delay now).standing? other = q.standing? other := by
  rw [enqueueAfter]
  split_ifs
  · have h := congrArg messages (enqueue_eq hm now)
    exact standing?_of_modified hm h (fun _ => rfl) (by simp [Message.standing, ready]) other
  · have h := congrArg messages (park_eq hm (now.after delay))
    exact standing?_of_modified hm h (fun _ => rfl) (by simp [Message.standing, ready]) other

private theorem standing?_remove (q : Queue) (id other : String) :
    (q.remove id).standing? other = if other = id then none else q.standing? other := by
  rw [standing?, find?_remove, standing?]
  split_ifs <;> rfl

private theorem standing?_pop (hq : q.Coherent) (owner : Nat) (now : Instant) (other : String) :
    (q.pop owner now).2.standing? other = q.standing? other := by
  rcases hq.pop_cases owner now with ⟨-, -, h⟩ | ⟨m, hm, state, -, -, h⟩
  · rw [h]
  · rw [h]
    have messages : (q.taken m owner now).messages =
        (q.modify m.id fun n => { n with state := .running q.nextToken owner now }).messages := rfl
    exact standing?_of_modified hm messages (fun _ => rfl) (by simp [Message.standing, state]) other

private theorem standing?_unpop (q : Queue) (id : String) (token : Nat) (other : String) :
    (q.unpop id token).2.standing? other = q.standing? other := by
  rcases unpop_cases q id token with h | ⟨m, owner, since, hm, state, h⟩
  · rw [h]
  · have messages := congrArg (·.2.messages) h
    exact standing?_of_modified hm messages (fun _ => rfl) (by simp [Message.standing, state]) other

private theorem standing?_promote (q : Queue) (id : String) (now : Instant) (other : String) :
    (q.promote id now).2.standing? other = q.standing? other := by
  cases hm : q.find? id with
  | none => simp only [promote, hm]
  | some m =>
    by_cases state : m.state = .delayed
    · have messages := congrArg (·.2.messages) (promote_eq hm state now)
      have same : ({ m with state := .queued, queuedAt := now } : Message).standing =
          m.standing := by
        simp [Message.standing, state]
      exact standing?_of_modified hm messages (fun _ => rfl) same other
    · simp only [promote, hm, beq_eq_false_iff_ne.mpr state, Bool.false_eq_true, if_false]

private theorem standing?_boost (q : Queue) (id other : String) :
    (q.boost id).2.standing? other = q.standing? other := by
  by_cases e : other = id
  · subst e
    cases hm : q.find? other with
    | none => simp only [boost, hm]
    | some m =>
      by_cases stands : other ∈ q.lane m.lane
      · have messages := congrArg (·.2.messages) (boost_eq hm stands)
        exact standing?_of_modified hm messages (fun _ => rfl) rfl other
      · have h : (q.lanes.getD m.lane []).contains other = false := by simpa [lane] using stands
        simp only [boost, hm, h, Bool.false_eq_true, if_false]
  · rw [standing?, find?_boost_of_ne e, standing?]

private theorem standing?_tally {f : Queue → String → Bool × Queue}
    (step : ∀ q id other, (f q id).2.standing? other = q.standing? other) (ids : List String)
    (q : Queue) (other : String) : (tally f ids q).2.standing? other = q.standing? other := by
  induction ids generalizing q with
  | nil => rfl
  | cons id ids ih => rw [tally_cons, ih, step]

private theorem standing_struck (q : Queue) (m : Message) (now : Instant) :
    (q.struck m now).standing = m.standing.struck q.settings.maxRetries := by
  rw [struck]
  split_ifs with spent <;> simp [Message.standing, Standing.struck, spent]

private theorem standing?_strike {ids : List String} (hids : ids.Nodup) (q : Queue) (now : Instant)
    (other : String) :
    (tally (fun q id => q.recordFailure id now) ids q).2.standing? other =
      if other ∈ ids then (q.standing? other).map (·.struck q.settings.maxRetries)
      else q.standing? other := by
  rw [standing?, find?_strike hids, standing?]
  split_ifs
  · rw [Option.map_map, Option.map_map]
    exact congrArg (Option.map · _) (funext fun m => standing_struck q m now)
  · rfl

private theorem standing?_settle (hm : q.find? id = some m) {token owner : Nat} {since : Instant}
    (state : m.state = .running token owner since) (requeue : Bool) (delay : Duration)
    (now : Instant) (other : String) :
    (q.settle id requeue delay now).standing? other =
      if other = id ∧ requeue = false then none else q.standing? other := by
  cases requeue with
  | false =>
    have gone := standing?_remove q id other
    simpa [settle_done, standing?, find?, count] using gone
  | true =>
    have moved : ∀ other, ((q.modify id fun n => { n with lane := n.priority }).count
        fun s => { s with requeued := s.requeued + 1 }).find? other =
          if other = id then some { m with lane := m.priority } else q.find? other :=
      find?_of_modified hm rfl fun _ => rfl
    have ready : ({ m with lane := m.priority } : Message).state ≠ .failed := by simp [state]
    rw [settle_requeue, standing?_enqueueAfter ((moved id).trans (if_pos rfl)) ready]
    simp only [Bool.true_eq_false, and_false, if_false]
    exact standing?_of_modified (f := fun n => { n with lane := n.priority }) hm rfl (fun _ => rfl)
      rfl other

end Steps

section Operations

private theorem standing?_push (q : Queue) (id : String) (payload : Bytes) (priority : Nat)
    (delay : Duration) (now : Instant) (other : String) :
    (q.push id payload priority delay now).2.standing? other =
      if (q.push id payload priority delay now).1 = .ok () ∧ other = id then
        some ⟨payload, 0, false⟩
      else q.standing? other := by
  rcases push_cases q id payload priority delay now with ⟨e, h⟩ | ⟨-, fresh, -, h⟩
  · simp [h]
  · have views : ∀ other, find? (count { q with
        messages := q.messages ++ [⟨id, priority, priority, payload, .queued, now, 0⟩] }
          fun s => { s with accepted := s.accepted + 1 }) other =
        if other = id then some ⟨id, priority, priority, payload, .queued, now, 0⟩
        else q.find? other :=
      find?_append (m := ⟨id, priority, priority, payload, .queued, now, 0⟩) fresh rfl
    rw [h, standing?_enqueueAfter ((views id).trans (if_pos rfl)) (by simp), standing?, views]
    by_cases e : other = id <;> simp [e, Message.standing, standing?]

private theorem standing?_ack (q : Queue) (id : String) (token : Nat) (requeue : Bool)
    (delay : Duration) (now : Instant) (other : String) :
    (q.ack id token requeue delay now).2.standing? other =
      if (q.ack id token requeue delay now).1 = .ok () ∧ other = id ∧ requeue = false then none
      else q.standing? other := by
  rcases ack_cases q id token requeue delay now with ⟨e, h⟩ | ⟨m, owner, since, hm, state, h⟩
  · simp [h]
  · rw [h, standing?_settle hm state]
    simp

private theorem standing?_ackPop (hq : q.Coherent) (id : String) (token : Nat) (requeue : Bool)
    (delay : Duration) (owner : Nat) (now : Instant) (other : String) :
    (q.ackPop id token requeue delay owner now).2.standing? other =
      if (q.ack id token requeue delay now).1 = .ok () ∧ other = id ∧ requeue = false then none
      else q.standing? other := by
  have moves := moves_ack q id token requeue delay now
  have acked := standing?_ack q id token requeue delay now other
  rcases ackPop_cases q id token requeue delay owner now with ⟨e, h, h'⟩ | ⟨r, h, h'⟩
  · rw [h'] 
    simp [h]
  · rw [h] at moves acked
    rw [h', h, standing?_pop (Moves.coherent moves hq), acked]

/-- What a sweep makes of a queue before it boosts. -/
def struckLate (order : VisitOrder) (q : Queue) (now : Instant) : Queue :=
  (tally (fun q id => q.recordFailure id now) (order.arrange ((q.promoteDue now).2.expired now))
    (q.promoteDue now).2).2

theorem sweepIn_eq (order : VisitOrder) (q : Queue) (now : Instant) :
    (q.sweepIn order now).2 =
      (tally boost ((q.struckLate order now).starving now) (q.struckLate order now)).2 := rfl

private theorem standing?_sweepIn (hq : q.Coherent) (order : VisitOrder) (now : Instant)
    (other : String) :
    (q.sweepIn order now).2.standing? other =
      if other ∈ (q.promoteDue now).2.expired now then
        (q.standing? other).map (·.struck q.settings.maxRetries)
      else q.standing? other := by
  have moves := moves_promoteDue q now
  have hdue := moves.coherent hq
  have late := order.arrange_perm ((q.promoteDue now).2.expired now)
  have nodup := late.nodup_iff.mpr (nodup_expired hdue.nodup_ids now)
  have promoted : (q.promoteDue now).2.standing? other = q.standing? other :=
    standing?_tally (fun q id => standing?_promote q id now) _ _ other
  rw [sweepIn_eq, standing?_tally standing?_boost, struckLate, standing?_strike nodup, promoted,
    (moves.follows hq).settings_eq]
  simp only [late.mem_iff]

private theorem standing?_releaseIn (hq : q.Coherent) (order : VisitOrder) (owner : Nat)
    (now : Instant) (other : String) :
    (q.releaseIn order owner now).2.standing? other =
      if other ∈ q.heldBy owner then (q.standing? other).map (·.struck q.settings.maxRetries)
      else q.standing? other := by
  have held := order.arrange_perm (q.heldBy owner)
  have nodup := held.nodup_iff.mpr (nodup_heldBy hq.nodup_ids owner)
  refine (standing?_strike nodup q now other).trans ?_
  simp only [held.mem_iff]

theorem standing?_eraseOne (q : Queue) (id other : String) :
    (q.eraseOne id).2.standing? other =
      if other = id ∧ q.isFailed id then none else q.standing? other := by
  rcases eraseOne_cases q id with h | ⟨m, hm, state⟩
  · cases failed : q.isFailed id with
    | false => simp [h]
    | true => simp [eraseOne, failed] at h
  · have failed : q.isFailed id = true := by simp [isFailed, hm, state]
    rw [eraseOne_eq hm state]
    simpa [failed, standing?, find?, count] using standing?_remove q id other

private theorem isFailed_eq_of_standing? (h : q'.standing? id = q.standing? id) :
    q'.isFailed id = q.isFailed id := by
  rw [isFailed_eq, isFailed_eq, h]

theorem standing?_eraseFailed (q : Queue) (ids : List String) (other : String) :
    (q.eraseFailed ids).2.standing? other =
      if other ∈ ids ∧ q.isFailed other then none else q.standing? other := by
  induction ids generalizing q with
  | nil => simp [eraseFailed]
  | cons id ids ih =>
    have first := standing?_eraseOne q id other
    rw [eraseFailed_cons, ih]
    by_cases erased : other = id ∧ q.isFailed id
    · rw [if_pos erased] at first
      obtain ⟨rfl, failed⟩ := erased
      simp [first, failed]
    · rw [if_neg erased] at first
      rw [isFailed_eq_of_standing? first, first]
      by_cases e : other = id
      · have : ¬q.isFailed other := fun h => erased ⟨e, e ▸ h⟩
        simp [this]
      · simp [e]

end Operations

section Events

theorem mem_expired_promoteDue_iff (hq : q.Coherent) (now : Instant) (id : String) :
    id ∈ (q.promoteDue now).2.expired now ↔
      ∃ l, q.Runs l ∧ l.id = id ∧
        q.settings.ackTimeout.any fun timeout => timeout.nanos ≤ (now.since l.since).nanos := by
  have moves := moves_promoteDue q now
  rw [mem_expired_iff (moves.coherent hq).nodup_ids, (moves.follows hq).settings_eq]
  constructor
  · rintro ⟨timeout, m, set, hm, expired⟩
    cases state : m.state with
    | running token owner since =>
      refine ⟨⟨id, token, owner, since⟩, (runs_promoteDue q now _).mp (runs_of_find? hm state), rfl,
        ?_⟩
      simpa [set, state, MessageState.isExpired] using expired
    | queued => simp [state, MessageState.isExpired] at expired
    | delayed => simp [state, MessageState.isExpired] at expired
    | failed => simp [state, MessageState.isExpired] at expired
  · rintro ⟨l, runs, rfl, late⟩
    obtain ⟨m, hm, state⟩ := runs_iff.mp ((runs_promoteDue q now l).mpr runs)
    cases set : q.settings.ackTimeout with
    | none => simp [set] at late
    | some timeout =>
      rw [set, Option.any_some] at late
      exact ⟨timeout, m, rfl, hm, by simpa [state, MessageState.isExpired] using late⟩

theorem mem_heldBy_iff_runs (hq : q.Coherent) (owner : Nat) (id : String) :
    id ∈ q.heldBy owner ↔ ∃ l, q.Runs l ∧ l.id = id ∧ l.owner = owner := by
  rw [mem_heldBy_iff hq.nodup_ids]
  constructor
  · rintro ⟨m, hm, holds⟩
    cases state : m.state with
    | running token holder since =>
      refine ⟨⟨id, token, holder, since⟩, runs_of_find? hm state, rfl, ?_⟩
      simpa [state, MessageState.isHeldBy] using holds
    | queued => simp [state, MessageState.isHeldBy] at holds
    | delayed => simp [state, MessageState.isHeldBy] at holds
    | failed => simp [state, MessageState.isHeldBy] at holds
  · rintro ⟨l, runs, rfl, rfl⟩
    obtain ⟨m, hm, state⟩ := runs_iff.mp runs
    exact ⟨m, hm, by simp [state, MessageState.isHeldBy]⟩

private theorem standing?_of_accepted {op : Operation} {payload : Bytes}
    (h : QueueEvent.accepted? id (op, (q.apply op).1) = some payload) :
    (q.apply op).2.standing? id = some ⟨payload, 0, false⟩ := by
  cases op with
  | push id' payload' priority delay now =>
    have pushed := standing?_push q id' payload' priority delay now id
    cases result : (q.push id' payload' priority delay now).1 with
    | error e => simp [apply, result, QueueEvent.accepted?] at h
    | ok _ =>
      obtain ⟨rfl, rfl⟩ : id' = id ∧ payload' = payload := by
        simpa [apply, result, QueueEvent.accepted?] using h
      exact pushed.trans (if_pos ⟨result, rfl⟩)
  | _ => simp [QueueEvent.accepted?] at h

/-- Whether an operation counts a failed attempt of the message with an id. -/
def Strikes (q : Queue) (op : Operation) (id : String) : Prop :=
  ∃ l, q.Runs l ∧ l.id = id ∧ QueueEvent.strikes q.settings l (op, (q.apply op).1)

private theorem standing?_of_strikes (hq : q.Coherent) {op : Operation}
    (strikes : q.Strikes op id) :
    (q.apply op).2.standing? id = (q.standing? id).map (·.struck q.settings.maxRetries) := by
  obtain ⟨l, runs, here, strikes⟩ := strikes
  cases op with
  | sweep order now =>
    refine (standing?_sweepIn hq order now id).trans (if_pos ?_)
    exact (mem_expired_promoteDue_iff hq now id).mpr ⟨l, runs, here, strikes⟩
  | release order owner now =>
    refine (standing?_releaseIn hq order owner now id).trans (if_pos ?_)
    exact (mem_heldBy_iff_runs hq owner id).mpr
      ⟨l, runs, here, by simpa [QueueEvent.strikes] using strikes⟩
  | _ => simp [QueueEvent.strikes] at strikes

/-- A message that is neither taken in nor struck keeps its standing, or it is settled for good or
erased. -/
theorem standing?_of_not_strikes (hq : q.Coherent) {op : Operation}
    (accepted : QueueEvent.accepted? id (op, (q.apply op).1) = none)
    (spared : ¬q.Strikes op id) :
    (q.apply op).2.standing? id = q.standing? id ∨
      (q.apply op).2.standing? id = none ∧
        ((∃ l, q.Runs l ∧ l.id = id) ∨ ∃ ids, op = .eraseFailed ids ∧ id ∈ ids) := by
  cases op with
  | push id' payload priority delay now =>
    refine .inl ((standing?_push q id' payload priority delay now id).trans (if_neg ?_))
    rintro ⟨result, rfl⟩
    simp [apply, result, QueueEvent.accepted?] at accepted
  | pop owner now => exact .inl (standing?_pop hq owner now id)
  | unpop id' token => exact .inl (standing?_unpop q id' token id)
  | ack id' token requeue delay now =>
    have acked := standing?_ack q id' token requeue delay now id
    split_ifs at acked with done
    · obtain ⟨ok, rfl, -⟩ := done
      obtain ⟨l, runs, same, -⟩ := (ack_ok_iff q id token requeue delay now).mp ok
      exact .inr ⟨acked, .inl ⟨l, runs, same⟩⟩
    · exact .inl acked
  | ackPop id' token requeue delay owner now =>
    have acked := standing?_ackPop hq id' token requeue delay owner now id
    split_ifs at acked with done
    · obtain ⟨ok, rfl, -⟩ := done
      obtain ⟨l, runs, same, -⟩ := (ack_ok_iff q id token requeue delay now).mp ok
      exact .inr ⟨acked, .inl ⟨l, runs, same⟩⟩
    · exact .inl acked
  | sweep order now =>
    refine .inl ((standing?_sweepIn hq order now id).trans (if_neg ?_))
    rw [mem_expired_promoteDue_iff hq]
    exact spared
  | release order owner now =>
    refine .inl ((standing?_releaseIn hq order owner now id).trans (if_neg ?_))
    rw [mem_heldBy_iff_runs hq]
    rintro ⟨l, runs, here, held⟩
    exact spared ⟨l, runs, here, by simpa [QueueEvent.strikes] using held⟩
  | eraseFailed ids =>
    have erased := standing?_eraseFailed q ids id
    split_ifs at erased with listed
    · exact .inr ⟨erased, .inr ⟨ids, rfl, listed.1⟩⟩
    · exact .inl erased

theorem accepted?_of_held (op : Operation) (held : (q.standing? id).isSome) :
    QueueEvent.accepted? id (op, (q.apply op).1) = none := by
  rw [Option.eq_none_iff_forall_ne_some]
  intro payload h
  simp [standing?, find?_of_accepted h] at held

/-- A message that has failed for good stays so until it is erased. -/
theorem isFailed_apply (hq : q.Coherent) (failed : q.isFailed id) (op : Operation) :
    (q.apply op).2.isFailed id ∨
      ∃ ids, op = .eraseFailed ids ∧ id ∈ ids ∧ (q.apply op).2.find? id = none := by
  obtain ⟨s, hs, lost⟩ : ∃ s, q.standing? id = some s ∧ s.failed := by
    simpa [isFailed_eq, Option.any_eq_true] using failed
  have home : ∀ l, q.Runs l → l.id ≠ id := by
    rintro l runs rfl
    obtain ⟨s', hs', alive⟩ := runs.standing?
    obtain rfl : s' = s := Option.some.inj (hs'.symm.trans hs)
    simp [alive] at lost
  have spared : ¬q.Strikes op id := fun ⟨l, runs, here, _⟩ => home l runs here
  have kept := standing?_of_not_strikes hq (accepted?_of_held op (by simp [hs])) spared
  obtain same | ⟨gone, ⟨l, runs, here⟩ | ⟨ids, rfl, listed⟩⟩ := kept
  · exact .inl ((isFailed_eq_of_standing? same).trans failed)
  · exact absurd here (home l runs)
  · exact .inr ⟨ids, rfl, listed, Option.map_eq_none_iff.mp gone⟩

private theorem failures_apply (hq : q.Coherent) (op : Operation) {m m' : Message}
    (hm : q.find? id = some m) (hm' : (q.apply op).2.find? id = some m') :
    (q.Strikes op id → m'.failures = m.failures + 1) ∧
      (¬q.Strikes op id → m'.failures = m.failures) := by
  have before := standing?_of_find? hm
  have after := standing?_of_find? hm'
  constructor
  · intro strikes
    rw [standing?_of_strikes hq strikes, before, Option.map_some, Option.some.injEq] at after
    exact (congrArg Standing.failures after).symm
  · intro spared
    obtain kept | ⟨gone, -⟩ :=
      standing?_of_not_strikes hq (accepted?_of_held op (by simp [before])) spared
    · rw [kept, before, Option.some.injEq] at after
      exact (congrArg Standing.failures after).symm
    · simp [gone] at after

end Events

section Dossiers

/-- Whether a dossier is right about the message of an id, and counts no more failed attempts than
the retries allow. -/
structure Tells (q : Queue) (id : String) (r : Dossier) : Prop where
  bounded : r.strikes ≤ q.settings.maxRetries + 1
  describes : ∀ s, q.standing? id = some s → r.Describes q.settings.maxRetries s

section Steps

variable {r : Dossier} {op : Operation}

private theorem tells_of_accepted {payload : Bytes}
    (accepted : QueueEvent.accepted? id (op, (q.apply op).1) = some payload) :
    (q.apply op).2.Tells id (r.note q.settings id (op, (q.apply op).1)) := by
  rw [Dossier.note_of_accepted accepted]
  refine ⟨Nat.zero_le _, fun s hs => ?_⟩
  rw [standing?_of_accepted accepted, Option.some.injEq] at hs
  subst hs
  exact ⟨rfl, rfl, by simp⟩

private theorem Tells.struck (t : q.Tells id r) (hq : q.Coherent)
    (loan : ∀ l, r.loan = some l ↔ q.Runs l ∧ l.id = id)
    (accepted : QueueEvent.accepted? id (op, (q.apply op).1) = none) (struck : q.Strikes op id) :
    (q.apply op).2.Tells id (r.note q.settings id (op, (q.apply op).1)) := by
  have same := ((moves_apply hq op).follows hq).settings_eq
  have after := standing?_of_strikes hq struck
  obtain ⟨l, runs, rfl, strikes⟩ := struck
  -- What is out has not failed for good, so that a failed attempt is left to it.
  obtain ⟨s, hs, alive⟩ := runs.standing?
  have old := t.describes s hs
  have left : r.strikes < q.settings.maxRetries + 1 := by
    refine Nat.lt_of_le_of_ne t.bounded fun spent => ?_
    simp [old.failed.mpr spent] at alive
  have count : (r.note q.settings l.id (op, (q.apply op).1)).strikes = r.strikes + 1 := by
    rw [Dossier.strikes_note accepted, Dossier.close_of_strikes ((loan l).mpr ⟨runs, rfl⟩) strikes]
  constructor
  case bounded => rw [same, count]; exact left
  case describes =>
    intro s' hs'
    rw [after, hs, Option.map_some, Option.some.injEq] at hs'
    subst hs'
    rw [same]
    refine ⟨?_, ?_, ?_⟩
    · rw [Dossier.payload_note accepted, old.payload]
      rfl
    · rw [count, ← old.failures]
      rfl
    · rw [count, Standing.struck, decide_eq_true_iff, old.failures]
      omega

private theorem Tells.spared (t : q.Tells id r) (hq : q.Coherent)
    (loan : ∀ l, r.loan = some l ↔ q.Runs l ∧ l.id = id)
    (accepted : QueueEvent.accepted? id (op, (q.apply op).1) = none)
    (spared : ¬q.Strikes op id) :
    (q.apply op).2.Tells id (r.note q.settings id (op, (q.apply op).1)) := by
  have same := ((moves_apply hq op).follows hq).settings_eq
  have calm : ∀ l, r.loan = some l →
      ¬QueueEvent.strikes q.settings l (op, (q.apply op).1) := by
    intro l out strikes
    obtain ⟨runs, here⟩ := (loan l).mp out
    exact spared ⟨l, runs, here, strikes⟩
  have count : (r.note q.settings id (op, (q.apply op).1)).strikes = r.strikes := by
    rw [Dossier.strikes_note accepted, Dossier.strikes_close_of_not calm]
  constructor
  case bounded => rw [same, count]; exact t.bounded
  case describes =>
    intro s hs
    rw [same]
    obtain kept | ⟨gone, -⟩ := standing?_of_not_strikes hq accepted spared
    · have old := t.describes s (kept ▸ hs)
      exact ⟨(Dossier.payload_note accepted).trans old.payload, count ▸ old.failures,
        count ▸ old.failed⟩
    · simp [gone] at hs

/-- A dossier that is right before an operation is right after it. -/
theorem Tells.apply (t : q.Tells id r) (hq : q.Coherent)
    (loan : ∀ l, r.loan = some l ↔ q.Runs l ∧ l.id = id) (op : Operation) :
    (q.apply op).2.Tells id (r.note q.settings id (op, (q.apply op).1)) := by
  cases accepted : QueueEvent.accepted? id (op, (q.apply op).1) with
  | some payload => exact tells_of_accepted accepted
  | none =>
    by_cases struck : q.Strikes op id
    · exact t.struck hq loan accepted struck
    · exact t.spared hq loan accepted struck

end Steps

private theorem tells_ofHistory (settings : QueueSettings) (ops : List Operation) (id : String) :
    ((ofSettings settings).after ops).Tells id
      (Dossier.ofHistory settings id ((ofSettings settings).history ops)) := by
  induction ops using List.reverseRecOn with
  | nil =>
    refine ⟨Nat.zero_le _, fun s hs => ?_⟩
    simp [after, standing?, ofSettings, find?] at hs
  | append_singleton ops op ih =>
    have step := ih.apply (coherent_after settings ops) (loan_ofHistory_iff settings ops id) op
    rw [settings_after] at step
    rw [after_concat, history_concat, Dossier.ofHistory_concat]
    exact step

private theorem standing?_of_pop (hq : q.Coherent) {owner : Nat} {now : Instant} {d : Delivery}
    (popped : (q.pop owner now).1 = some d) :
    ∃ s, q.standing? d.id = some s ∧ s.failed = false ∧ d.payload = s.payload ∧
      d.attempt = s.failures + 1 := by
  rcases hq.pop_cases owner now with ⟨-, -, h⟩ | ⟨m, hm, state, -, -, h⟩
  · simp [h] at popped
  · rw [h, Option.some.injEq] at popped
    subst popped
    exact ⟨m.standing, standing?_of_find? hm, by simp [Message.standing, state], rfl, rfl⟩

private theorem standing?_of_delivery (hq : q.Coherent) {op : Operation} {d : Delivery}
    (handed : QueueEvent.delivery? (op, (q.apply op).1) = some d) :
    ∃ s, q.standing? d.id = some s ∧ s.failed = false ∧ d.payload = s.payload ∧
      d.attempt = s.failures + 1 := by
  cases op with
  | pop owner now => exact standing?_of_pop hq handed
  | ackPop id token requeue delay owner now =>
    have acked := standing?_ack q id token requeue delay now d.id
    have moves := moves_ack q id token requeue delay now
    rcases ackPop_cases q id token requeue delay owner now with ⟨e, -, h⟩ | ⟨r, h, h'⟩
    · simp [apply, h, QueueEvent.delivery?] at handed
    · rw [h] at acked moves
      have popped : (r.pop owner now).1 = some d := by
        simpa [apply, h', QueueEvent.delivery?] using handed
      obtain ⟨s, hs, rest⟩ := standing?_of_pop (Moves.coherent moves hq) popped
      rw [acked] at hs
      split_ifs at hs
      exact ⟨s, hs, rest⟩
  | _ => simp [QueueEvent.delivery?] at handed

private theorem vouches_ofHistory (settings : QueueSettings) (ops : List Operation) {op : Operation}
    {d : Delivery}
    (handed : QueueEvent.delivery? (op, (((ofSettings settings).after ops).apply op).1) = some d) :
    (Dossier.ofHistory settings d.id ((ofSettings settings).history ops)).Vouches
      settings.maxRetries d := by
  obtain ⟨s, hs, alive, payload, attempt⟩ :=
    standing?_of_delivery (coherent_after settings ops) handed
  have agrees := (tells_ofHistory settings ops d.id).describes s hs
  have le := (tells_ofHistory settings ops d.id).bounded
  rw [settings_after] at agrees le
  have left : s.failures ≠ settings.maxRetries + 1 := by
    intro spent
    rw [agrees.failures, ← agrees.failed, alive] at spent
    exact Bool.false_ne_true spent
  have count := agrees.failures
  refine ⟨?_, ?_, ?_⟩
  · rw [payload, agrees.payload]
  · rw [attempt, count]
  · omega

/-- Along every history, a delivery is of a message that is out under its token then; it carries the
payload that was last accepted under its id, and an attempt number that is one more than the failed
attempts since.  A message has failed for good exactly when all its attempts have failed; it is not
delivered then, and stays so until it is erased.  Only failed attempts are counted. -/
theorem deliveries_follow_history (settings : QueueSettings) (ops : List Operation) :
    (∀ op d, QueueEvent.delivery? (op, (((ofSettings settings).after ops).apply op).1) = some d →
      (∃ l, QueueEvent.loan? (op, (((ofSettings settings).after ops).apply op).1) = some l ∧
        l.id = d.id ∧ l.token = d.token ∧ (((ofSettings settings).after ops).apply op).2.Runs l) ∧
      (Dossier.ofHistory settings d.id ((ofSettings settings).history ops)).Vouches
        settings.maxRetries d ∧
      ((ofSettings settings).after ops).isFailed d.id = false) ∧
    (∀ id,
      (Dossier.ofHistory settings id ((ofSettings settings).history ops)).strikes ≤
          settings.maxRetries + 1 ∧
        ∀ m, ((ofSettings settings).after ops).find? id = some m →
          (Dossier.ofHistory settings id ((ofSettings settings).history ops)).Describes
            settings.maxRetries m.standing) ∧
    (∀ op id m m', ((ofSettings settings).after ops).find? id = some m →
      (((ofSettings settings).after ops).apply op).2.find? id = some m' →
        (((ofSettings settings).after ops).Strikes op id → m'.failures = m.failures + 1) ∧
        (¬((ofSettings settings).after ops).Strikes op id → m'.failures = m.failures)) ∧
    (∀ op id, ((ofSettings settings).after ops).isFailed id →
      (((ofSettings settings).after ops).apply op).2.isFailed id ∨
        ∃ ids, op = .eraseFailed ids ∧ id ∈ ids ∧
          (((ofSettings settings).after ops).apply op).2.find? id = none) := by
  have hq := coherent_after settings ops
  refine ⟨?_, ?_, ?_, ?_⟩
  · intro op d handed
    obtain ⟨l, opens, id, token⟩ := QueueEvent.loan?_of_delivery? handed
    obtain ⟨s, hs, alive, -, -⟩ := standing?_of_delivery hq handed
    have out := (runs_apply hq op l).mpr (.inl opens)
    refine ⟨⟨l, opens, id, token, out⟩, vouches_ofHistory settings ops handed, ?_⟩
    rw [isFailed_eq, hs, Option.any_some, alive]
  · intro id
    obtain ⟨le, describes⟩ := tells_ofHistory settings ops id
    rw [settings_after] at le describes
    exact ⟨le, fun m hm => describes _ (standing?_of_find? hm)⟩
  · intro op id m m' hm hm'
    exact failures_apply hq op hm hm'
  · intro op id failed
    exact isFailed_apply hq failed op

def pushedAgain : List Operation :=
  [.push "a" [1] 0 .zero .start, .pop 7 .start, .ack "a" 1 false .zero .start,
    .push "a" [2] 0 .zero .start, .pop 7 .start, .sweep .arrival (.ofMillis 1000)]

theorem second_attempt_follows_history :
    QueueEvent.delivery? (.pop 7 (.ofMillis 1000),
        (((ofSettings ⟨10, 1, 1, some (.ofMillis 1000), none⟩).after pushedAgain).apply
          (.pop 7 (.ofMillis 1000))).1) = some ⟨"a", 3, 2, [2]⟩ ∧
      (Dossier.ofHistory ⟨10, 1, 1, some (.ofMillis 1000), none⟩ "a"
        ((ofSettings ⟨10, 1, 1, some (.ofMillis 1000), none⟩).history pushedAgain)).Vouches 1
          ⟨"a", 3, 2, [2]⟩ := by
  have handed : QueueEvent.delivery? (.pop 7 (.ofMillis 1000),
      (((ofSettings ⟨10, 1, 1, some (.ofMillis 1000), none⟩).after pushedAgain).apply
        (.pop 7 (.ofMillis 1000))).1) = some ⟨"a", 3, 2, [2]⟩ := by decide
  exact ⟨handed, ((deliveries_follow_history _ pushedAgain).1 _ _ handed).2.1⟩

end Dossiers

end Queue
end WorkBroker
