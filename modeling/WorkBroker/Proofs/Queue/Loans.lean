import WorkBroker.Proofs.Queue.Moves
/-!
The deliveries that are out.  A loan is a delivery as the queue remembers it, and `q.Runs l` says
that it is still open.  Each operation is described by the loans it opens and the loans it closes: a
pop opens one, a settlement and a put-back close the one they name, a sweep and a release close
those that they strike, and nothing else touches them.
-/

set_option autoImplicit false
set_option relaxedAutoImplicit false

namespace WorkBroker

/-- A delivery as the queue remembers it: the message and the token, who took it and when. -/
structure Loan where
  id : String
  token : Nat
  owner : Nat
  since : Instant
  deriving DecidableEq, Repr

namespace Queue

variable {q q' : Queue} {id : String} {m n : Message} {l k : Loan}

/-- Whether a delivery is still out. -/
def Runs (q : Queue) (l : Loan) : Prop :=
  (q.find? l.id).map (·.state) = some (.running l.token l.owner l.since)

theorem runs_iff : q.Runs l ↔
    ∃ m, q.find? l.id = some m ∧ m.state = .running l.token l.owner l.since :=
  Option.map_eq_some_iff

theorem runs_of_find? {token owner : Nat} {since : Instant} (hm : q.find? id = some m)
    (state : m.state = .running token owner since) : q.Runs ⟨id, token, owner, since⟩ :=
  runs_iff.mpr ⟨m, hm, state⟩

theorem Runs.state_eq (h : q.Runs l) (hm : q.find? l.id = some m) :
    m.state = .running l.token l.owner l.since := by
  simpa [Runs, hm] using h

theorem Runs.eq_of_id (h : q.Runs l) (h' : q.Runs k) (same : l.id = k.id) : l = k := by
  rw [Runs, same] at h
  have both := Option.some.inj (h.symm.trans h')
  obtain ⟨token, owner, since⟩ := MessageState.running.inj both
  cases l
  congr

theorem Runs.mem_tokens (h : q.Runs l) : l.token ∈ q.tokens := by
  obtain ⟨m, hm, state⟩ := runs_iff.mp h
  exact List.mem_filterMap.mpr ⟨m, mem_of_find? hm, by rw [state, MessageState.token?]⟩

/-- A token is out for one delivery at a time. -/
theorem Coherent.loan_of_token (hq : q.Coherent) (h : q.Runs l) (h' : q.Runs k)
    (same : l.token = k.token) : l = k := by
  refine h.eq_of_id h' (by_contra fun ne => ?_)
  obtain ⟨m, hm, state⟩ := runs_iff.mp h
  have apart : q.tokens.Perm (l.token :: (q.remove l.id).tokens) := by
    have perm := (messages_perm hq.nodup_ids hm).filterMap (·.state.token?)
    rwa [List.filterMap_cons_some (b := l.token) (by rw [state, MessageState.token?])] at perm
  have fresh := (List.nodup_cons.mp (apart.nodup_iff.mp hq.nodup_tokens)).1
  have other : (q.remove l.id).Runs k := by
    rw [Runs, find?_remove, if_neg (Ne.symm ne)]
    exact h'
  exact fresh (same ▸ other.mem_tokens)

section Recall

/-- Only the message of an id has changed, and it is not out afterwards. -/
structure Recalls (id : String) (q q' : Queue) : Prop where
  others : ∀ other, other ≠ id → q'.find? other = q.find? other
  here : ∀ l, q'.Runs l → l.id ≠ id

def Idle (q : Queue) (id : String) : Prop := ∀ l, q.Runs l → l.id ≠ id

theorem idle_of_none (hm : q.find? id = none) : q.Idle id := by
  rintro l h rfl
  obtain ⟨m, found, -⟩ := runs_iff.mp h
  simp [hm] at found

theorem idle_of_state (hm : q.find? id = some m) (state : m.state.token? = none) : q.Idle id := by
  rintro l h rfl
  rw [h.state_eq hm, MessageState.token?] at state
  simp at state

private theorem Recalls.runs_iff (r : Recalls id q q') (l : Loan) :
    q'.Runs l ↔ q.Runs l ∧ l.id ≠ id := by
  constructor
  · intro h
    have ne := r.here l h
    refine ⟨?_, ne⟩
    rwa [Runs, ← r.others l.id ne]
  · rintro ⟨h, ne⟩
    rwa [Runs, r.others l.id ne]

private theorem Recalls.runs_iff_of_idle (r : Recalls id q q') (idle : q.Idle id) (l : Loan) :
    q'.Runs l ↔ q.Runs l := by
  rw [r.runs_iff]
  exact ⟨And.left, fun h => ⟨h, idle l h⟩⟩

private theorem recalls_of_find? (state : n.state.token? = none)
    (h : ∀ other, q'.find? other = if other = id then some n else q.find? other) :
    Recalls id q q' where
  others other ne := (h other).trans (if_neg ne)
  here := idle_of_state ((h id).trans (if_pos rfl)) state

private theorem recalls_enqueueAfter (hm : q.find? id = some m) (delay : Duration) (now : Instant) :
    Recalls id q (q.enqueueAfter id delay now) := by
  rw [enqueueAfter]
  split_ifs
  · exact recalls_of_find? rfl (find?_enqueue hm now)
  · exact recalls_of_find? rfl (find?_park hm _)

private theorem Recalls.after (r : Recalls id q' q) {p : Queue}
    (h : ∀ other, other ≠ id → q'.find? other = p.find? other) : Recalls id p q where
  others other ne := (r.others other ne).trans (h other ne)
  here := r.here

private theorem recalls_settle (hm : q.find? id = some m) (requeue : Bool) (delay : Duration)
    (now : Instant) : Recalls id q (q.settle id requeue delay now) := by
  cases requeue with
  | false =>
    have gone := find?_remove q id
    exact ⟨fun other ne => (gone other).trans (if_neg ne),
      idle_of_none ((gone id).trans (if_pos rfl))⟩
  | true =>
    have moved : ∀ other, ((q.modify id fun n => { n with lane := n.priority }).count
        fun s => { s with requeued := s.requeued + 1 }).find? other =
          if other = id then some { m with lane := m.priority } else q.find? other :=
      find?_of_modified hm rfl fun _ => rfl
    rw [settle_requeue]
    have home := recalls_enqueueAfter ((moved id).trans (if_pos rfl)) delay now
    exact home.after fun other ne => (moved other).trans (if_neg ne)

private theorem recalls_recordFailure (hm : q.find? id = some m) (now : Instant) :
    Recalls id q (q.recordFailure id now).2 := by
  refine recalls_of_find? ?_ (find?_recordFailure hm now)
  rw [struck]
  split_ifs <;> rfl

private theorem recalls_promote (hm : q.find? id = some m) (state : m.state = .delayed)
    (now : Instant) :
    Recalls id q (q.promote id now).2 := by
  have h := congrArg (·.2.messages) (promote_eq hm state now)
  exact recalls_of_find? rfl (find?_of_modified hm h fun _ => rfl)

end Recall

section Strikes

private theorem runs_recordFailure (q : Queue) (id : String) (now : Instant) (l : Loan) :
    (q.recordFailure id now).2.Runs l ↔ q.Runs l ∧ l.id ≠ id := by
  cases hm : q.find? id with
  | none =>
    simp only [recordFailure, hm]
    exact ⟨fun h => ⟨h, idle_of_none hm l h⟩, And.left⟩
  | some m => exact (recalls_recordFailure hm now).runs_iff l

private theorem runs_promote (q : Queue) (id : String) (now : Instant) (l : Loan) :
    (q.promote id now).2.Runs l ↔ q.Runs l := by
  cases hm : q.find? id with
  | none => simp only [promote, hm]
  | some m =>
    by_cases state : m.state = .delayed
    · have idle := idle_of_state hm (congrArg MessageState.token? state)
      exact (recalls_promote hm state now).runs_iff_of_idle idle l
    · simp only [promote, hm, beq_eq_false_iff_ne.mpr state, Bool.false_eq_true, if_false]

private theorem runs_boost (q : Queue) (id : String) (l : Loan) :
    (q.boost id).2.Runs l ↔ q.Runs l := by
  cases hm : q.find? id with
  | none => simp only [boost, hm]
  | some m =>
    by_cases stands : id ∈ q.lane m.lane
    · have h := congrArg (·.2.messages) (boost_eq hm stands)
      rw [Runs, find?_of_modified hm h (fun _ => rfl), Runs]
      split_ifs with e
      · rw [e, hm]
        rfl
      · rfl
    · have h : (q.lanes.getD m.lane []).contains id = false := by simpa [lane] using stands
      simp only [boost, hm, h, Bool.false_eq_true, if_false]

private theorem runs_eraseOne (q : Queue) (id : String) (l : Loan) :
    (q.eraseOne id).2.Runs l ↔ q.Runs l := by
  rcases eraseOne_cases q id with h | ⟨m, hm, state⟩
  · rw [h]
  · have gone : ∀ other, (q.eraseOne id).2.find? other =
        if other = id then none else q.find? other := by
      rw [eraseOne_eq hm state]
      exact find?_remove q id
    have r : Recalls id q (q.eraseOne id).2 :=
      ⟨fun other ne => (gone other).trans (if_neg ne),
        idle_of_none ((gone id).trans (if_pos rfl))⟩
    have idle := idle_of_state hm (congrArg MessageState.token? state)
    exact r.runs_iff_of_idle idle l

private theorem runs_tally {f : Queue → String → Bool × Queue}
    (step : ∀ q id l, (f q id).2.Runs l ↔ q.Runs l) (ids : List String) (q : Queue) (l : Loan) :
    (tally f ids q).2.Runs l ↔ q.Runs l := by
  induction ids generalizing q with
  | nil => rfl
  | cons id ids ih => rw [tally_cons, ih, step]

private theorem runs_strike (ids : List String) (q : Queue) (now : Instant) (l : Loan) :
    (tally (fun q id => q.recordFailure id now) ids q).2.Runs l ↔ q.Runs l ∧ l.id ∉ ids := by
  induction ids generalizing q with
  | nil => exact ⟨fun h => ⟨h, List.not_mem_nil⟩, And.left⟩
  | cons id ids ih =>
    rw [tally_cons, ih, runs_recordFailure, List.mem_cons, not_or, and_assoc]

end Strikes

section Operations

theorem runs_push (q : Queue) (id : String) (payload : Bytes) (priority : Nat) (delay : Duration)
    (now : Instant) (l : Loan) :
    (q.push id payload priority delay now).2.Runs l ↔ q.Runs l := by
  rcases push_cases q id payload priority delay now with ⟨e, h⟩ | ⟨-, fresh, -, h⟩
  · rw [h]
  · rw [h]
    -- Every look-up but that of the new id ends where it ended before.
    have grown : ∀ (m : Message) (other : String),
        find? { q with messages := q.messages ++ [m] } other =
          (q.find? other).or (if m.id == other then some m else none) := by
      intro m other
      rw [find?, List.find?_append, List.find?_singleton, find?]
    have home := recalls_enqueueAfter (m := ⟨id, priority, priority, payload, .queued, now, 0⟩)
      (q := count { q with
          messages := q.messages ++ [⟨id, priority, priority, payload, .queued, now, 0⟩] }
        fun s => { s with accepted := s.accepted + 1 })
      ((grown _ id).trans (by simp [fresh])) delay now
    have only : Recalls id q _ :=
      home.after fun other ne => (grown _ other).trans (by simp [Ne.symm ne])
    exact only.runs_iff_of_idle (idle_of_none fresh) l

private theorem runs_taken (hm : q.find? m.id = some m) (state : m.state = .queued) (owner : Nat)
    (now : Instant) (l : Loan) :
    (q.taken m owner now).Runs l ↔ l = ⟨m.id, q.nextToken, owner, now⟩ ∨ q.Runs l := by
  have h := find?_taken hm owner now
  have idle := idle_of_state hm (congrArg MessageState.token? state)
  have opened : (q.taken m owner now).Runs ⟨m.id, q.nextToken, owner, now⟩ :=
    runs_of_find? ((h m.id).trans (if_pos rfl)) rfl
  by_cases e : l.id = m.id
  · constructor
    · intro runs
      exact .inl (runs.eq_of_id opened e)
    · rintro (rfl | old)
      · exact opened
      · exact absurd e (idle l old)
  · rw [Runs, h, if_neg e]
    refine ⟨.inr, ?_⟩
    rintro (rfl | old)
    · exact absurd rfl e
    · exact old

theorem runs_pop (hq : q.Coherent) (owner : Nat) (now : Instant) (l : Loan) :
    (q.pop owner now).2.Runs l ↔
      (∃ d, (q.pop owner now).1 = some d ∧ l = ⟨d.id, d.token, owner, now⟩) ∨ q.Runs l := by
  rcases hq.pop_cases owner now with ⟨-, -, h⟩ | ⟨m, hm, state, -, -, h⟩
  · simp [h]
  · rw [h, runs_taken hm state]
    simp

private theorem Recalls.runs_iff_token {token owner : Nat} {since : Instant} (r : Recalls id q q')
    (out : q.Runs ⟨id, token, owner, since⟩) (l : Loan) :
    q'.Runs l ↔ q.Runs l ∧ ¬(l.id = id ∧ l.token = token) := by
  rw [r.runs_iff]
  refine and_congr_right fun h => not_congr ⟨fun e => ?_, And.left⟩
  rw [h.eq_of_id out e]
  exact ⟨rfl, rfl⟩

private theorem recalls_unpop {token owner : Nat} {since : Instant} (hm : q.find? id = some m)
    (state : m.state = .running token owner since) : Recalls id q (q.unpop id token).2 := by
  have h : (q.unpop id token).2.messages =
      (q.modify id fun n => { n with state := .queued }).messages := by
    simp only [unpop, hm, state, if_true]
    rfl
  exact recalls_of_find? rfl (find?_of_modified hm h fun _ => rfl)

theorem runs_unpop (q : Queue) (id : String) (token : Nat) (l : Loan) :
    (q.unpop id token).2.Runs l ↔
      q.Runs l ∧ ¬((q.unpop id token).1 = true ∧ l.id = id ∧ l.token = token) := by
  rcases unpop_cases q id token with h | ⟨m, owner, since, hm, state, h⟩
  · simp [h]
  · rw [(recalls_unpop hm state).runs_iff_token (runs_of_find? hm state), h]
    simp

theorem runs_ack (q : Queue) (id : String) (token : Nat) (requeue : Bool) (delay : Duration)
    (now : Instant) (l : Loan) :
    (q.ack id token requeue delay now).2.Runs l ↔
      q.Runs l ∧
        ¬((q.ack id token requeue delay now).1 = .ok () ∧ l.id = id ∧ l.token = token) := by
  rcases ack_cases q id token requeue delay now with ⟨e, h⟩ | ⟨m, owner, since, hm, state, h⟩
  · simp [h]
  · rw [h, (recalls_settle hm requeue delay now).runs_iff_token (runs_of_find? hm state)]
    simp

theorem runs_promoteDue (q : Queue) (now : Instant) (l : Loan) :
    (q.promoteDue now).2.Runs l ↔ q.Runs l :=
  runs_tally (fun q id => runs_promote q id now) _ _ l

theorem runs_sweepIn (hq : q.Coherent) (order : VisitOrder) (now : Instant) (l : Loan) :
    (q.sweepIn order now).2.Runs l ↔
      q.Runs l ∧ ¬∃ timeout, q.settings.ackTimeout = some timeout ∧
        timeout.nanos ≤ (now.since l.since).nanos := by
  have moves := moves_promoteDue q now
  have hdue := moves.coherent hq
  have late := (order.arrange_perm ((q.promoteDue now).2.expired now)).mem_iff (a := l.id)
  have struck := runs_strike (order.arrange ((q.promoteDue now).2.expired now))
    (q.promoteDue now).2 now l
  refine (runs_tally runs_boost _ _ l).trans (struck.trans ?_)
  rw [runs_promoteDue, late, mem_expired_iff hdue.nodup_ids, (moves.follows hq).settings_eq]
  refine and_congr_right fun h => not_congr (exists_congr fun timeout => ?_)
  obtain ⟨m, hm, state⟩ := runs_iff.mp ((runs_promoteDue q now l).mpr h)
  simp [hm, state, MessageState.isExpired]

theorem runs_releaseIn (hq : q.Coherent) (order : VisitOrder) (owner : Nat) (now : Instant)
    (l : Loan) : (q.releaseIn order owner now).2.Runs l ↔ q.Runs l ∧ l.owner ≠ owner := by
  have held := (order.arrange_perm (q.heldBy owner)).mem_iff (a := l.id)
  refine (runs_strike _ q now l).trans ?_
  rw [held, mem_heldBy_iff hq.nodup_ids]
  refine and_congr_right fun h => not_congr ?_
  obtain ⟨m, hm, state⟩ := runs_iff.mp h
  simp [hm, state, MessageState.isHeldBy]

theorem find?_releaseIn_eq (hq : q.Coherent) (order : VisitOrder) (owner : Nat) (now : Instant)
    (id : String) :
    (q.releaseIn order owner now).2.find? id =
      (q.find? id).map fun m => if m.state.isHeldBy owner then q.struck m now else m := by
  have held := order.arrange_perm (q.heldBy owner)
  have nodup := held.nodup_iff.mpr (nodup_heldBy hq.nodup_ids owner)
  refine (find?_strike nodup q now id).trans ?_
  simp only [held.mem_iff, mem_heldBy_iff hq.nodup_ids]
  cases hm : q.find? id with
  | none => simp
  | some m => by_cases holds : m.state.isHeldBy owner <;> simp [holds]

theorem find?_releaseIn (hq : q.Coherent) (order : VisitOrder) (now : Instant) (runs : q.Runs l) :
    (q.releaseIn order l.owner now).2.find? l.id = (q.find? l.id).map (q.struck · now) := by
  obtain ⟨m, hm, state⟩ := runs_iff.mp runs
  rw [find?_releaseIn_eq hq, hm]
  simp [state, MessageState.isHeldBy]

theorem runs_eraseFailed (q : Queue) (ids : List String) (l : Loan) :
    (q.eraseFailed ids).2.Runs l ↔ q.Runs l := by
  induction ids generalizing q with
  | nil => rfl
  | cons id ids ih => rw [eraseFailed_cons, ih, runs_eraseOne]

end Operations

end Queue
end WorkBroker
