import WorkBroker.Proofs.Queue.History
/-!
The books of a queue.  Every accepted message is done, erased or still held; every delivery ended in
one of four ways or is still out; every failed message is still held or erased; and there are never
more messages than the capacity allows.
-/

set_option autoImplicit false
set_option relaxedAutoImplicit false

namespace WorkBroker.Queue

def countState (q : Queue) (p : MessageState → Bool) : Nat := q.messages.countP (p ·.state)

/-- The counters over the life of a queue agree with what it holds. -/
structure Balanced (q : Queue) : Prop where
  accepted : q.stats.accepted = q.stats.completed + q.stats.erased + q.size
  delivered : q.stats.delivered =
    q.stats.completed + q.stats.requeued + q.stats.redelivered + q.stats.failed +
      q.countState MessageState.isRunning
  failed : q.stats.failed = q.countState (· == .failed) + q.stats.erased
  room : q.size ≤ q.settings.capacity

/-- One queue differs from another one in the state of one message, as far as counting goes. -/
structure Swaps (q q' : Queue) (old new : MessageState) : Prop where
  settings : q'.settings = q.settings
  size : q'.size = q.size
  count : ∀ p : MessageState → Bool,
    q'.countState p + (if p old then 1 else 0) = q.countState p + if p new then 1 else 0

namespace Swaps

variable {q q' q'' : Queue} {id : String} {m : Message} {a b c : MessageState}

private theorem trans (h : Swaps q q' a b) (h' : Swaps q' q'' b c) : Swaps q q'' a c where
  settings := h'.settings.trans h.settings
  size := h'.size.trans h.size
  count p := by
    have first := h.count p
    have second := h'.count p
    omega

private theorem of_modified (f : Message → Message) (hq : q.ids.Nodup) (hm : q.find? id = some m)
    (messages : q'.messages = (q.modify id f).messages) (hf : ∀ n, (f n).id = n.id)
    (settings : q'.settings = q.settings) : Swaps q q' m.state (f m).state where
  settings := settings
  size := by simp [Queue.size, messages, modify]
  count p := by
    have old := countP_remove hq hm (p ·.state)
    have new := countP_modify hq hm hf (p ·.state)
    rw [← messages] at new
    simp only [countState]
    omega

end Swaps

private theorem Detached.swaps_enqueue {q : Queue} {id : String} {m : Message} (d : Detached id m q)
    (now : Instant) : Swaps q (q.enqueue id now) m.state .queued := by
  have messages := congrArg messages (enqueue_eq d.found now)
  exact .of_modified _ d.nodup_ids d.found messages (fun _ => rfl) settings_enqueue

private theorem Detached.swaps_enqueueAfter {q : Queue} {id : String} {m : Message}
    (d : Detached id m q) (delay : Duration) (now : Instant) :
    ∃ s, (s = .queued ∨ s = .delayed) ∧ Swaps q (q.enqueueAfter id delay now) m.state s := by
  rw [enqueueAfter]
  split_ifs
  · exact ⟨.queued, .inl rfl, d.swaps_enqueue now⟩
  · have messages := congrArg messages (park_eq d.found (now.after delay))
    exact ⟨.delayed, .inr rfl,
      .of_modified _ d.nodup_ids d.found messages (fun _ => rfl) settings_park⟩

section Balance

variable {q q' : Queue} {id : String} {m : Message}

private theorem Balanced.swap (hb : q.Balanced) {old new : MessageState}
    (swaps : Swaps q q' old new)
    (accepted : q'.stats.accepted + q.stats.completed + q.stats.erased =
      q.stats.accepted + q'.stats.completed + q'.stats.erased)
    (delivered : q'.stats.delivered + q.stats.completed + q.stats.requeued + q.stats.redelivered +
        q.stats.failed + (if old.isRunning then 1 else 0) =
      q.stats.delivered + q'.stats.completed + q'.stats.requeued + q'.stats.redelivered +
        q'.stats.failed + if new.isRunning then 1 else 0)
    (failed : q'.stats.failed + q.stats.erased + (if old == .failed then 1 else 0) =
      q.stats.failed + q'.stats.erased + if new == .failed then 1 else 0) : q'.Balanced where
  accepted := by
    have h := hb.accepted
    have size := swaps.size
    omega
  delivered := by
    have h := hb.delivered
    have running := swaps.count MessageState.isRunning
    omega
  failed := by
    have h := hb.failed
    have lost := swaps.count (· == .failed)
    omega
  room := by
    rw [swaps.size, swaps.settings]
    exact hb.room

private theorem Balanced.leave (hb : q.Balanced) (hq : q.Coherent) (hm : q.find? id = some m)
    (messages : q'.messages = (q.remove id).messages) (settings : q'.settings = q.settings)
    (accepted : q'.stats.accepted + q.stats.completed + q.stats.erased + 1 =
      q.stats.accepted + q'.stats.completed + q'.stats.erased)
    (delivered : q'.stats.delivered + q.stats.completed + q.stats.requeued + q.stats.redelivered +
        q.stats.failed + (if m.state.isRunning then 1 else 0) =
      q.stats.delivered + q'.stats.completed + q'.stats.requeued + q'.stats.redelivered +
        q'.stats.failed)
    (failed : q'.stats.failed + q.stats.erased + (if m.state == .failed then 1 else 0) =
      q.stats.failed + q'.stats.erased) : q'.Balanced where
  accepted := by
    have h := hb.accepted
    have size := length_remove hq.nodup_ids hm
    simp only [size, Queue.size, messages] at h ⊢
    omega
  delivered := by
    have h := hb.delivered
    have running := countP_remove hq.nodup_ids hm (·.state.isRunning)
    simp only [countState, messages, running] at h ⊢
    omega
  failed := by
    have h := hb.failed
    have lost := countP_remove hq.nodup_ids hm (·.state == .failed)
    simp only [countState, messages, lost] at h ⊢
    omega
  room := by
    have h := hb.room
    have size := length_remove hq.nodup_ids hm
    rw [settings]
    simp only [size, Queue.size, messages] at h ⊢
    omega

private theorem Balanced.append (hb : q.Balanced) (ready : m.state = .queued)
    (room : q.size < q.settings.capacity) :
    Balanced (count { q with messages := q.messages ++ [m] }
      fun s => { s with accepted := s.accepted + 1 }) where
  accepted := by
    have h := hb.accepted
    simp only [Queue.count, Queue.size, List.length_append, List.length_singleton] at h ⊢
    omega
  delivered := by
    simpa [Queue.count, countState, ready, MessageState.isRunning] using hb.delivered
  failed := by
    simpa [Queue.count, countState, ready] using hb.failed
  room := by
    simp only [Queue.count, Queue.size, List.length_append, List.length_singleton] at room ⊢
    omega

private theorem countState_pos (hm : q.find? id = some m) {p : MessageState → Bool}
    (hp : p m.state) :
    0 < q.countState p :=
  List.countP_pos_iff.mpr ⟨m, mem_of_find? hm, hp⟩

end Balance

namespace Balanced

variable {q : Queue} {id : String} {m : Message}

private theorem accept (hb : q.Balanced) (hq : q.Coherent) {payload : Bytes} {priority : Nat}
    {now : Instant} (priority_lt : priority < q.lanes.length) (fresh : q.find? id = none)
    (room : q.size < q.settings.capacity) (delay : Duration) :
    Balanced ((count { q with
        messages := q.messages ++ [⟨id, priority, priority, payload, .queued, now, 0⟩] }
      fun s => { s with accepted := s.accepted + 1 }).enqueueAfter id delay now) := by
  have d := (hq.detached_append (m := ⟨id, priority, priority, payload, .queued, now, 0⟩)
    fresh rfl priority_lt).count fun s => { s with accepted := s.accepted + 1 }
  have taken := hb.append (m := ⟨id, priority, priority, payload, .queued, now, 0⟩) rfl room
  obtain ⟨s, hs, swaps⟩ := d.swaps_enqueueAfter delay now
  refine taken.swap swaps ?_ ?_ ?_
  all_goals rw [stats_enqueueAfter]
  · rcases hs with rfl | rfl <;> rfl
  · rcases hs with rfl | rfl <;> rfl

private theorem taken (hb : q.Balanced) (hq : q.Coherent) (hm : q.find? m.id = some m)
    (state : m.state = .queued) (owner : Nat) (now : Instant) : (q.taken m owner now).Balanced := by
  have swaps : Swaps q (q.taken m owner now) m.state (.running q.nextToken owner now) :=
    .of_modified (fun n => { n with state := .running q.nextToken owner now }) hq.nodup_ids hm
      rfl (fun _ => rfl) rfl
  refine hb.swap swaps rfl ?_ ?_
  · simp [Queue.taken, Queue.count, modify, state, MessageState.isRunning]
    omega
  · simp [Queue.taken, Queue.count, modify, state]

private theorem delivered_pos (hb : q.Balanced) (hm : q.find? id = some m) {token owner : Nat}
    {since : Instant} (state : m.state = .running token owner since) : 0 < q.stats.delivered := by
  have out := countState_pos hm (p := MessageState.isRunning) (by rw [state]; rfl)
  have delivered := hb.delivered
  omega

private theorem unpop (hb : q.Balanced) (hq : q.Coherent) (hm : q.find? id = some m)
    {token owner : Nat}
    {since : Instant} (state : m.state = .running token owner since) {lanes : List (List String)} :
    Balanced (Queue.count
      { q.modify id fun n => { n with state := .queued } with lanes, queued := q.queued + 1 }
      fun s => { s with delivered := s.delivered - 1 }) := by
  have pos := hb.delivered_pos hm state
  refine hb.swap (.of_modified (fun n => { n with state := .queued }) hq.nodup_ids hm rfl
    (fun _ => rfl) rfl) rfl ?_ ?_
  · simp [Queue.count, modify, state, MessageState.isRunning]
    omega
  · simp [Queue.count, modify, state]

private theorem settle (hb : q.Balanced) (hq : q.Coherent) (hm : q.find? id = some m)
    {token owner : Nat}
    {since : Instant} (state : m.state = .running token owner since) (requeue : Bool)
    (delay : Duration) (now : Instant) : (q.settle id requeue delay now).Balanced := by
  cases requeue with
  | false =>
    rw [settle_done]
    refine hb.leave hq hm rfl rfl ?_ ?_ ?_
    · simp [Queue.count, remove]
      omega
    · simp [Queue.count, remove, state, MessageState.isRunning]
      omega
    · simp [Queue.count, remove, state]
  | true =>
    rw [settle_requeue]
    have d := ((hq.detached hm state).modify (fun n => { n with lane := n.priority })
      (fun _ => rfl) (.inr rfl) (hq.detached hm state).priority_lt).count
        fun s => { s with requeued := s.requeued + 1 }
    have home : Swaps q ((q.modify id fun n => { n with lane := n.priority }).count
        fun s => { s with requeued := s.requeued + 1 }) m.state m.state :=
      .of_modified (fun n => { n with lane := n.priority }) hq.nodup_ids hm rfl (fun _ => rfl) rfl
    obtain ⟨s, hs, swaps⟩ := d.swaps_enqueueAfter delay now
    refine hb.swap (home.trans swaps) ?_ ?_ ?_
    all_goals rw [stats_enqueueAfter]
    · rfl
    · rcases hs with rfl | rfl
      all_goals simp [Queue.count, modify, state, MessageState.isRunning]
      all_goals omega
    · rcases hs with rfl | rfl
      all_goals simp [Queue.count, modify, state]

private theorem recordFailure (hb : q.Balanced) (hq : q.Coherent) (hm : q.find? id = some m)
    {token owner : Nat} {since : Instant} (state : m.state = .running token owner since)
    (now : Instant) : (q.recordFailure id now).2.Balanced := by
  by_cases spent : q.settings.maxRetries < m.failures + 1
  · rw [recordFailure_last hm spent]
    refine hb.swap (.of_modified (fun n => { n with failures := n.failures + 1, state := .failed })
      hq.nodup_ids hm rfl (fun _ => rfl) rfl) rfl ?_ ?_
    · simp [Queue.count, modify, state, MessageState.isRunning]
      omega
    · simp [Queue.count, modify, state]
      omega
  · rw [recordFailure_retry hm spent]
    have d := ((hq.detached hm state).modify
      (fun n => { n with failures := n.failures + 1, lane := n.priority }) (fun _ => rfl) (.inr rfl)
      (hq.detached hm state).priority_lt).count fun s => { s with redelivered := s.redelivered + 1 }
    have home : Swaps q ((q.modify id fun n =>
        { n with failures := n.failures + 1, lane := n.priority }).count
          fun s => { s with redelivered := s.redelivered + 1 }) m.state m.state :=
      .of_modified (fun n => { n with failures := n.failures + 1, lane := n.priority })
        hq.nodup_ids hm rfl (fun _ => rfl) rfl
    refine hb.swap (home.trans (d.swaps_enqueue now)) ?_ ?_ ?_
    all_goals dsimp only
    all_goals rw [stats_enqueue]
    · rfl
    · simp [Queue.count, modify, state, MessageState.isRunning]
      omega
    · simp [Queue.count, modify, state]

private theorem eraseOne (hb : q.Balanced) (hq : q.Coherent) (hm : q.find? id = some m)
    (state : m.state = .failed) : (q.eraseOne id).2.Balanced := by
  rw [eraseOne_eq hm state]
  refine hb.leave hq hm rfl rfl ?_ ?_ ?_
  · simp [Queue.count, remove]
    omega
  · simp [Queue.count, remove, state, MessageState.isRunning]
  · simp [Queue.count, remove, state]
    omega

end Balanced

section Balance

variable {q q' : Queue}

/-- No move brings the books out of balance. -/
theorem Move.balanced (move : Move q q') (hq : q.Coherent) (hb : q.Balanced) : q'.Balanced := by
  cases move with
  | @accept _ id payload priority delay now pushed =>
    rcases push_cases q id payload priority delay now with ⟨e, h⟩ | ⟨priority_lt, fresh, room, h⟩
    · simp [h] at pushed
    · obtain rfl := (Prod.mk.inj (h.symm.trans pushed)).2
      exact hb.accept hq priority_lt fresh room delay
  | @take _ owner now d popped =>
    rcases hq.pop_cases owner now with ⟨-, -, h⟩ | ⟨m, hm, state, front, -, h⟩
    · simp [h] at popped
    · obtain rfl := (Prod.mk.inj (h.symm.trans popped)).2
      exact hb.taken hq hm state owner now
  | @putBack _ id token unpopped =>
    rcases unpop_cases q id token with h | ⟨m, owner, since, hm, state, h⟩
    · simp [h] at unpopped
    · obtain rfl := (Prod.mk.inj (h.symm.trans unpopped)).2
      exact hb.unpop hq hm state
  | @settle _ id token requeue delay now acked =>
    rcases ack_cases q id token requeue delay now with ⟨e, h⟩ | ⟨m, owner, since, hm, state, h⟩
    · simp [h] at acked
    · obtain rfl := (Prod.mk.inj (h.symm.trans acked)).2
      exact hb.settle hq hm state requeue delay now
  | strike hm state now => exact hb.recordFailure hq hm state now
  | promote first now =>
    obtain ⟨m, state, d⟩ := hq.detached_of_due first
    rw [promote_eq d.found state]
    refine hb.swap (.of_modified (fun n => { n with state := .queued, queuedAt := now })
      hq.nodup_ids d.found rfl (fun _ => rfl) rfl) rfl ?_ ?_
    · simp [modify, state, MessageState.isRunning]
    · simp [modify, state]
  | @boost id m hm state =>
    rw [boost_eq hm ((hq.mem_lane_iff m.lane id).mpr ⟨m, hm, state, rfl⟩)]
    exact hb.swap (.of_modified (fun n => { n with lane := 0 }) hq.nodup_ids hm rfl
      (fun _ => rfl) rfl) rfl rfl rfl
  | erase hm state => exact hb.eraseOne hq hm state

private theorem Moves.balanced (moves : Moves q q') (hq : q.Coherent) (hb : q.Balanced) :
    q'.Balanced := by
  induction moves with
  | refl => exact hb
  | tail moves move ih => exact move.balanced (Moves.coherent moves hq) ih

private theorem balanced_ofSettings (settings : QueueSettings) : (ofSettings settings).Balanced :=
  ⟨rfl, rfl, rfl, Nat.zero_le _⟩

/-- In every state that a queue can reach its books are in balance. -/
theorem balanced_after (settings : QueueSettings) (ops : List Operation) :
    ((ofSettings settings).after ops).Balanced :=
  (moves_after (coherent_ofSettings settings) ops).balanced (coherent_ofSettings settings)
    (balanced_ofSettings settings)

end Balance

section Counters

variable {q q' : Queue} {id : String}

private theorem Coherent.failed_le_size (hq : q.Coherent) : q.failed ≤ q.size := by
  rw [hq.failed_eq]
  exact List.countP_le_length

private theorem Coherent.queued_pop (hq : q.Coherent) {owner : Nat} {now : Instant} {d : Delivery}
    (popped : q.pop owner now = (some d, q')) : q'.queued + 1 = q.queued := by
  rcases hq.pop_cases owner now with ⟨-, -, h⟩ | ⟨m, hm, state, front, -, h⟩
  · simp [h] at popped
  · obtain rfl := (Prod.mk.inj (h.symm.trans popped)).2
    exact Nat.sub_add_cancel (hq.queued_pos hm state)

private theorem Balanced.delivered_unpop (hb : q.Balanced) {token : Nat}
    (unpopped : q.unpop id token = (true, q')) : q'.stats.delivered + 1 = q.stats.delivered := by
  rcases unpop_cases q id token with h | ⟨m, owner, since, hm, state, h⟩
  · simp [h] at unpopped
  · obtain rfl := (Prod.mk.inj (h.symm.trans unpopped)).2
    exact Nat.sub_add_cancel (hb.delivered_pos hm state)

theorem Coherent.failed_eraseFailed (hq : q.Coherent) (ids : List String) :
    (q.eraseFailed ids).2.failed + (q.eraseFailed ids).1.length = q.failed := by
  induction ids generalizing q with
  | nil => rfl
  | cons id rest ih =>
    rw [eraseFailed_cons]
    rcases eraseOne_cases q id with h | ⟨m, hm, state⟩
    · simpa [h] using ih hq
    · have pos := hq.failed_pos hm state
      have later := ih ((Move.erase hm state).coherent hq)
      have yes : (q.eraseOne id).1 = true := by rw [eraseOne_eq hm state]
      have left : (q.eraseOne id).2.failed = q.failed - 1 := by
        rw [eraseOne_eq hm state]
        rfl
      simp only [yes, if_true, List.length_cons]
      omega

end Counters

/-- The four laws of conservation hold in every state that a queue can reach, and nothing that an
operation takes off a counter is missing there. -/
theorem books_balance (settings : QueueSettings) (ops : List Operation) :
    let q := (ofSettings settings).after ops
    q.stats.accepted = q.stats.completed + q.stats.erased + q.size ∧
      q.stats.delivered =
        q.stats.completed + q.stats.requeued + q.stats.redelivered + q.stats.failed +
          q.countState MessageState.isRunning ∧
      q.stats.failed = q.countState (· == .failed) + q.stats.erased ∧
      (q.counts.active + q.counts.failed + q.counts.free = settings.capacity ∧
        q.counts.capacity = settings.capacity ∧ q.counts.active + q.failed = q.size ∧
        q.counts.failed = q.countState (· == .failed)) ∧
      (∀ owner now d q', q.pop owner now = (some d, q') → q'.queued + 1 = q.queued) ∧
      (∀ ids, (q.eraseFailed ids).2.failed + (q.eraseFailed ids).1.length = q.failed) ∧
      ∀ id token q', q.unpop id token = (true, q') →
        q'.stats.delivered + 1 = q.stats.delivered := by
  intro q
  have hq : q.Coherent := coherent_after settings ops
  have hb : q.Balanced := balanced_after settings ops
  have le := hq.failed_le_size
  have room := hb.room
  have same : q.settings = settings := settings_after settings ops
  rw [same] at room
  refine ⟨hb.accepted, hb.delivered, hb.failed, ⟨?_, ?_, ?_, ?_⟩, ?_, ?_, ?_⟩
  · simp only [counts, same]
    omega
  · exact congrArg QueueSettings.capacity same
  · exact Nat.sub_add_cancel le
  · exact hq.failed_eq
  · exact fun owner now d q' popped => hq.queued_pop popped
  · exact hq.failed_eraseFailed
  · exact fun id token q' unpopped => hb.delivered_unpop unpopped

end WorkBroker.Queue
