import WorkBroker.Proofs.Queue.Detached
import WorkBroker.Proofs.Queue.Forms
import Mathlib.Logic.Relation
/-!
What can happen to a queue in one move: eight things, each to one message.  Every operation comes
down to a sequence of moves, so what each move keeps, every operation keeps.  Here it is coherence;
the operations themselves are taken apart in the second half.
-/

set_option autoImplicit false
set_option relaxedAutoImplicit false

namespace WorkBroker.Queue

/-- What can happen to one message of a queue. -/
inductive Move : Queue → Queue → Prop
  | accept {q q' : Queue} {id : String} {payload : Bytes} {priority : Nat} {delay : Duration}
      {now : Instant} (pushed : q.push id payload priority delay now = (.ok (), q')) : Move q q'
  | take {q q' : Queue} {owner : Nat} {now : Instant} {d : Delivery}
      (popped : q.pop owner now = (some d, q')) : Move q q'
  | putBack {q q' : Queue} {id : String} {token : Nat}
      (unpopped : q.unpop id token = (true, q')) : Move q q'
  | settle {q q' : Queue} {id : String} {token : Nat} {requeue : Bool} {delay : Duration}
      {now : Instant} (acked : q.ack id token requeue delay now = (.ok (), q')) : Move q q'
  | strike {q : Queue} {id : String} {m : Message} {token owner : Nat} {since : Instant}
      (found : q.find? id = some m) (out : m.state = .running token owner since) (now : Instant) :
      Move q (q.recordFailure id now).2
  | promote {q : Queue} {a : Appointment} {later : List Appointment}
      (first : q.delayed = a :: later) (now : Instant) :
      Move q (promote { q with delayed := later } a.id now).2
  | boost {q : Queue} {id : String} {m : Message} (found : q.find? id = some m)
      (ready : m.state = .queued) : Move q (q.boost id).2
  | erase {q : Queue} {id : String} {m : Message} (found : q.find? id = some m)
      (failed : m.state = .failed) : Move q (q.eraseOne id).2

abbrev Moves : Queue → Queue → Prop := Relation.ReflTransGen Move

section Coherence

variable {q q' : Queue} {id : String} {m : Message}

private theorem Detached.coherent_enqueue (d : Detached id m q) (now : Instant) :
    (q.enqueue id now).Coherent := by
  rw [enqueue_eq d.found]
  exact d.coherent_queued (fun n => { n with state := .queued, queuedAt := now }) (fun _ => rfl)
    d.home d.priority_lt rfl (.inl rfl)

private theorem Detached.coherent_park (d : Detached id m q) (due : Instant) :
    (q.park id due).Coherent := by
  rw [park_eq d.found]
  exact d.coherent_delayed (fun n => { n with state := .delayed }) (fun _ => rfl) d.home
    d.priority_lt rfl due

private theorem Detached.coherent_enqueueAfter (d : Detached id m q) (delay : Duration)
    (now : Instant) :
    (q.enqueueAfter id delay now).Coherent := by
  rw [enqueueAfter]
  split_ifs
  · exact d.coherent_enqueue now
  · exact d.coherent_park _

theorem Coherent.taken (hq : q.Coherent) (hm : q.find? m.id = some m) (state : m.state = .queued)
    (front : (q.lane m.lane).head? = some m.id) (owner : Nat) (now : Instant) :
    (q.taken m owner now).Coherent := by
  have d := hq.detached_of_lane hm state
  have same : q.lanes.modify m.lane (·.erase m.id) = q.lanes.modify m.lane List.tail := by
    refine List.ext_getElem? fun i => ?_
    rw [List.getElem?_modify, List.getElem?_modify]
    split_ifs with hi
    · subst hi
      have hl := hq.lane_lt (mem_of_find? hm)
      simp only [lane, List.getD_eq_getElem?_getD, List.getElem?_eq_getElem hl] at front ⊢
      cases h : q.lanes[m.lane] with
      | nil => simp [h] at front
      | cons id rest =>
        obtain rfl : id = m.id := by simpa [h] using front
        simp
    · rfl
  rw [same] at d
  exact (d.coherent_running (fun n => { n with state := .running q.nextToken owner now })
    (fun _ => rfl) d.home d.priority_lt rfl).count _

private theorem Coherent.settle (hq : q.Coherent) (hm : q.find? id = some m) {token owner : Nat}
    {since : Instant} (state : m.state = .running token owner since) (requeue : Bool)
    (delay : Duration) (now : Instant) : (q.settle id requeue delay now).Coherent := by
  have d := hq.detached hm state
  cases requeue with
  | false =>
    rw [settle_done]
    exact d.rest.count _
  | true =>
    rw [settle_requeue]
    have home := d.modify (fun n => { n with lane := n.priority }) (fun _ => rfl) (.inr rfl)
      d.priority_lt
    exact (home.count _).coherent_enqueueAfter delay now

theorem Coherent.recordFailure (hq : q.Coherent) (hm : q.find? id = some m) {token owner : Nat}
    {since : Instant} (state : m.state = .running token owner since) (now : Instant) :
    (q.recordFailure id now).2.Coherent := by
  have d := hq.detached hm state
  by_cases spent : q.settings.maxRetries < m.failures + 1
  · have lost := d.coherent_failed
      (fun n => { n with failures := n.failures + 1, state := .failed }) (fun _ => rfl) d.home
      d.priority_lt rfl
    rw [recordFailure_last hm spent]
    exact lost.count fun s => { s with failed := s.failed + 1 }
  · have home := d.modify (fun n => { n with failures := n.failures + 1, lane := n.priority })
      (fun _ => rfl) (.inr rfl) d.priority_lt
    rw [recordFailure_retry hm spent]
    exact (home.count _).coherent_enqueue now

theorem Coherent.boost (hq : q.Coherent) (hm : q.find? id = some m) (state : m.state = .queued) :
    (q.boost id).2.Coherent := by
  have d := hq.detached_of_lane hm state
  have stands := (hq.mem_lane_iff m.lane id).mpr ⟨m, hm, state, rfl⟩
  have pos := hq.queued_pos hm state
  have ready := d.coherent_queued (fun n => { n with lane := 0 }) (fun _ => rfl) (.inl rfl)
    d.priority_lt state (.inl rfl)
  simp only [Nat.sub_add_cancel pos] at ready
  rw [boost_eq hm stands]
  exact ready.count fun s => { s with boosted := s.boosted + 1 }

/-- No move disturbs the agreement of the structures. -/
theorem Move.coherent (move : Move q q') (hq : q.Coherent) : q'.Coherent := by
  cases move with
  | @accept _ id payload priority delay now pushed =>
    rcases push_cases q id payload priority delay now with ⟨e, h⟩ | ⟨priority_lt, fresh, -, h⟩
    · simp [h] at pushed
    · obtain rfl := (Prod.mk.inj (h.symm.trans pushed)).2
      exact ((hq.detached_append fresh rfl priority_lt).count _).coherent_enqueueAfter delay now
  | @take _ owner now d popped =>
    rcases hq.pop_cases owner now with ⟨-, -, h⟩ | ⟨m, hm, state, front, -, h⟩
    · simp [h] at popped
    · obtain rfl := (Prod.mk.inj (h.symm.trans popped)).2
      exact hq.taken hm state front owner now
  | @putBack _ id token unpopped =>
    rcases unpop_cases q id token with h | ⟨m, owner, since, hm, state, h⟩
    · simp [h] at unpopped
    · obtain rfl := (Prod.mk.inj (h.symm.trans unpopped)).2
      have d := hq.detached hm state
      exact (d.coherent_queued (fun n => { n with state := .queued }) (fun _ => rfl) d.home
        d.priority_lt rfl (.inr rfl)).count _
  | @settle _ id token requeue delay now acked =>
    rcases ack_cases q id token requeue delay now with ⟨e, h⟩ | ⟨m, owner, since, hm, state, h⟩
    · simp [h] at acked
    · obtain rfl := (Prod.mk.inj (h.symm.trans acked)).2
      exact hq.settle hm state requeue delay now
  | strike hm state now => exact hq.recordFailure hm state now
  | promote first now =>
    obtain ⟨m, state, d⟩ := hq.detached_of_due first
    rw [promote_eq d.found state]
    exact d.coherent_queued (fun n => { n with state := .queued, queuedAt := now })
      (fun _ => rfl) d.home d.priority_lt rfl (.inr rfl)
  | boost hm state => exact hq.boost hm state
  | erase hm state =>
    rw [eraseOne_eq hm state]
    dsimp only
    exact (hq.remove_failed hm state).count _

theorem Moves.coherent (moves : Moves q q') (hq : q.Coherent) : q'.Coherent := by
  induction moves with
  | refl => exact hq
  | tail _ move ih => exact move.coherent ih

/-- The settings stay, and tokens are only ever counted up. -/
structure Follows (q q' : Queue) : Prop where
  settings_eq : q'.settings = q.settings
  nextToken_le : q.nextToken ≤ q'.nextToken

private theorem Follows.of_eq (settings : q'.settings = q.settings)
    (token : q'.nextToken = q.nextToken) :
    Follows q q' := ⟨settings, Nat.le_of_eq token.symm⟩

private theorem Move.follows (move : Move q q') (hq : q.Coherent) : Follows q q' := by
  cases move with
  | @accept _ id payload priority delay now pushed =>
    rcases push_cases q id payload priority delay now with ⟨e, h⟩ | ⟨-, -, -, h⟩
    · simp [h] at pushed
    · obtain rfl := (Prod.mk.inj (h.symm.trans pushed)).2
      exact .of_eq settings_enqueueAfter nextToken_enqueueAfter
  | @take _ owner now d popped =>
    rcases hq.pop_cases owner now with ⟨-, -, h⟩ | ⟨m, -, -, -, -, h⟩
    · simp [h] at popped
    · obtain rfl := (Prod.mk.inj (h.symm.trans popped)).2
      exact ⟨rfl, Nat.le_succ _⟩
  | @putBack _ id token unpopped =>
    rcases unpop_cases q id token with h | ⟨m, owner, since, -, -, h⟩
    · simp [h] at unpopped
    · obtain rfl := (Prod.mk.inj (h.symm.trans unpopped)).2
      exact .of_eq rfl rfl
  | @settle _ id token requeue delay now acked =>
    rcases ack_cases q id token requeue delay now with ⟨e, h⟩ | ⟨m, owner, since, -, -, h⟩
    · simp [h] at acked
    · obtain rfl := (Prod.mk.inj (h.symm.trans acked)).2
      rw [Queue.settle]
      split_ifs
      · exact .of_eq settings_enqueueAfter nextToken_enqueueAfter
      · exact .of_eq rfl rfl
  | strike _ _ now => exact .of_eq settings_recordFailure nextToken_recordFailure
  | promote _ now => exact .of_eq settings_promote nextToken_promote
  | boost _ _ => exact .of_eq settings_boost nextToken_boost
  | erase hm state =>
    rw [eraseOne_eq hm state]
    exact .of_eq rfl rfl

theorem Moves.follows (moves : Moves q q') (hq : q.Coherent) : Follows q q' := by
  induction moves with
  | refl => exact .of_eq rfl rfl
  | tail moves move ih =>
    have last := move.follows (Moves.coherent moves hq)
    exact ⟨last.settings_eq.trans ih.settings_eq, Nat.le_trans ih.nextToken_le last.nextToken_le⟩

end Coherence

section Operations

variable {q : Queue} {id : String} {m : Message}

/-- An operation that makes a move with each of some messages makes moves with all of them, if no
move spoils the next. -/
theorem moves_tally {f : Queue → String → Bool × Queue} (fit : Queue → String → Prop)
    (step : ∀ q id, fit q id → Move q (f q id).2)
    (keep : ∀ q id other, fit q id → other ≠ id → fit q other → fit (f q id).2 other)
    {ids : List String} (hids : ids.Nodup) (q : Queue) (all : ∀ id ∈ ids, fit q id) :
    Moves q (tally f ids q).2 := by
  induction ids generalizing q with
  | nil => exact .refl
  | cons id ids ih =>
    obtain ⟨new, hids⟩ := List.nodup_cons.mp hids
    have first := all id List.mem_cons_self
    rw [tally_cons]
    refine .head (step q id first) (ih hids _ fun other ho => ?_)
    have ne : other ≠ id := fun e => new (e ▸ ho)
    exact keep q id other first ne (all other (List.mem_cons_of_mem id ho))

def IsOut (q : Queue) (id : String) : Prop :=
  ∃ m token owner since, q.find? id = some m ∧ m.state = .running token owner since

private def IsReady (q : Queue) (id : String) : Prop :=
  ∃ m, q.find? id = some m ∧ m.state = .queued

theorem moves_strike {ids : List String} (hids : ids.Nodup) (all : ∀ id ∈ ids, q.IsOut id)
    (now : Instant) : Moves q (tally (fun q id => q.recordFailure id now) ids q).2 := by
  refine moves_tally IsOut ?_ ?_ hids q all
  · rintro q id ⟨m, token, owner, since, hm, out⟩
    exact .strike hm out now
  · rintro q id other ⟨m, _, _, _, hm, -⟩ ne ⟨n, token, owner, since, hn, out⟩
    refine ⟨n, token, owner, since, ?_, out⟩
    rw [find?_recordFailure hm, if_neg ne, hn]

private theorem moves_boost {ids : List String} (hids : ids.Nodup)
    (all : ∀ id ∈ ids, q.IsReady id) :
    Moves q (tally boost ids q).2 := by
  refine moves_tally IsReady ?_ ?_ hids q all
  · rintro q id ⟨m, hm, ready⟩
    exact .boost hm ready
  · rintro q id other - ne ⟨n, hn, ready⟩
    exact ⟨n, by rw [find?_boost_of_ne ne, hn], ready⟩

private theorem promote_delayed (q : Queue) (id : String) (delayed : List Appointment)
    (now : Instant) :
    promote { q with delayed } id now =
      ((q.promote id now).1, { (q.promote id now).2 with delayed }) := by
  have same : find? { q with delayed } id = q.find? id := rfl
  cases hm : q.find? id with
  | none => simp only [promote, same, hm]
  | some m =>
    by_cases state : m.state = .delayed
    · rw [promote_eq hm state, promote_eq (same.trans hm) state]
      rfl
    · simp only [promote, same, hm, beq_eq_false_iff_ne.mpr state, Bool.false_eq_true, if_false]

/-- Striking out all due appointments at once is as good as one after the other. -/
theorem moves_promote {due later : List Appointment} (q : Queue) (hd : q.delayed = due ++ later)
    (now : Instant) :
    Moves q
      (tally (fun q id => q.promote id now) (due.map (·.id)) { q with delayed := later }).2 := by
  induction due generalizing q with
  | nil =>
    have same : { q with delayed := later } = q := by rw [← List.nil_append later, ← hd]
    rw [same]
    exact .refl
  | cons a due ih =>
    have first : Move q (promote { q with delayed := due ++ later } a.id now).2 := .promote hd now
    have rest := ih (promote { q with delayed := due ++ later } a.id now).2
      (by rw [promote_delayed])
    have same : { (promote { q with delayed := due ++ later } a.id now).2 with delayed := later } =
        (promote { q with delayed := later } a.id now).2 := by
      rw [promote_delayed q a.id (due ++ later), promote_delayed q a.id later]
    rw [same] at rest
    rw [List.map_cons, tally_cons]
    exact .head first rest

theorem moves_promoteDue (q : Queue) (now : Instant) : Moves q (q.promoteDue now).2 :=
  moves_promote q (List.takeWhile_append_dropWhile).symm now

theorem moves_sweepIn (hq : q.Coherent) (order : VisitOrder) (now : Instant) :
    Moves q (q.sweepIn order now).2 := by
  have due := moves_promoteDue q now
  have hdue := due.coherent hq
  have late := order.arrange_perm ((q.promoteDue now).2.expired now)
  have struck : Moves (q.promoteDue now).2 _ :=
    moves_strike (late.nodup_iff.mpr (nodup_expired hdue.nodup_ids now)) (fun id hid => by
      obtain ⟨timeout, m, -, hm, expired⟩ :=
        (mem_expired_iff hdue.nodup_ids).mp (late.mem_iff.mp hid)
      cases state : m.state with
      | running token owner since => exact ⟨m, token, owner, since, hm, state⟩
      | queued => simp [state, MessageState.isExpired] at expired
      | delayed => simp [state, MessageState.isExpired] at expired
      | failed => simp [state, MessageState.isExpired] at expired) now
  have hstruck := struck.coherent hdue
  have boosted := moves_boost (nodup_starving hstruck.nodup_ids now) fun id hid => by
    obtain ⟨timeout, m, -, hm, starving⟩ := (mem_starving_iff hstruck.nodup_ids).mp hid
    simp only [isStarving, Bool.and_eq_true, beq_iff_eq] at starving
    exact ⟨m, hm, starving.1.1⟩
  exact (due.trans struck).trans boosted

theorem moves_releaseIn (hq : q.Coherent) (order : VisitOrder) (owner : Nat) (now : Instant) :
    Moves q (q.releaseIn order owner now).2 := by
  have held := order.arrange_perm (q.heldBy owner)
  refine moves_strike (held.nodup_iff.mpr (nodup_heldBy hq.nodup_ids owner)) (fun id hid => ?_) now
  obtain ⟨m, hm, holds⟩ := (mem_heldBy_iff hq.nodup_ids).mp (held.mem_iff.mp hid)
  cases state : m.state with
  | running token owner since => exact ⟨m, token, owner, since, hm, state⟩
  | queued => simp [state, MessageState.isHeldBy] at holds
  | delayed => simp [state, MessageState.isHeldBy] at holds
  | failed => simp [state, MessageState.isHeldBy] at holds

theorem moves_push (q : Queue) (id : String) (payload : Bytes) (priority : Nat) (delay : Duration)
    (now : Instant) : Moves q (q.push id payload priority delay now).2 := by
  cases h : q.push id payload priority delay now with
  | mk result q' =>
    cases result with
    | ok _ => exact .single (.accept h)
    | error e =>
      rcases push_cases q id payload priority delay now with ⟨_, same⟩ | ⟨-, -, -, other⟩
      · rw [(Prod.mk.inj (h.symm.trans same)).2]
      · simp [h] at other

theorem moves_pop (hq : q.Coherent) (owner : Nat) (now : Instant) :
    Moves q (q.pop owner now).2 := by
  rcases hq.pop_cases owner now with ⟨-, -, h⟩ | ⟨m, -, -, -, -, h⟩
  · rw [h]
  · rw [h]
    exact .single (.take h)

theorem moves_unpop (q : Queue) (id : String) (token : Nat) : Moves q (q.unpop id token).2 := by
  rcases unpop_cases q id token with h | ⟨m, owner, since, -, -, h⟩
  · rw [h]
  · rw [h]
    exact .single (.putBack h)

theorem moves_ack (q : Queue) (id : String) (token : Nat) (requeue : Bool) (delay : Duration)
    (now : Instant) : Moves q (q.ack id token requeue delay now).2 := by
  rcases ack_cases q id token requeue delay now with ⟨e, h⟩ | ⟨m, owner, since, -, -, h⟩
  · rw [h]
  · rw [h]
    exact .single (.settle h)

theorem moves_ackPop (hq : q.Coherent) (id : String) (token : Nat) (requeue : Bool)
    (delay : Duration) (owner : Nat) (now : Instant) :
    Moves q (q.ackPop id token requeue delay owner now).2 := by
  have acked := moves_ack q id token requeue delay now
  rw [ackPop]
  cases h : q.ack id token requeue delay now with
  | mk result q' =>
    rw [h] at acked
    cases result with
    | error e => exact acked
    | ok _ => exact acked.trans (moves_pop (acked.coherent hq) owner now)

theorem moves_eraseOne (q : Queue) (id : String) : Moves q (q.eraseOne id).2 := by
  rcases eraseOne_cases q id with h | ⟨m, hm, failed⟩
  · rw [h]
  · exact .single (.erase hm failed)

theorem moves_eraseFailed (q : Queue) (ids : List String) : Moves q (q.eraseFailed ids).2 := by
  induction ids generalizing q with
  | nil => exact .refl
  | cons id rest ih =>
    rw [eraseFailed_cons]
    exact (moves_eraseOne q id).trans (ih _)

end Operations

end WorkBroker.Queue
