import WorkBroker.Proofs.Queue.Attempts
/-!
The order in which ready messages of one priority stand.  A message is placed when it joins the end
of the lane of its priority; `InOrder placed q` says that of two messages which stand in `q`, the
one that was placed first is ahead.  A boost keeps this although it moves messages from one lane to
another, because whoever was placed before a starving message starves as well, or stands in the
first lane already.
-/

set_option autoImplicit false
set_option relaxedAutoImplicit false

namespace WorkBroker

theorem Bytes.textLe_total (a b : String) : Bytes.textLe a b || Bytes.textLe b a := by
  simp only [textLe, Bool.or_eq_true, Bool.not_eq_true', decide_eq_false_iff_not]
  exact List.le_total _ _

theorem Bytes.textLe_trans {a b c : String} (hab : Bytes.textLe a b) (hbc : Bytes.textLe b c) :
    Bytes.textLe a c := by
  simp only [textLe, Bool.not_eq_true', decide_eq_false_iff_not] at *
  exact List.le_trans hab hbc

namespace Queue

variable {q q' : Queue} {id : String} {m : Message} {now : Instant}
  {placed placed' : String → Option Instant}

theorem starvingLe_trans {a b c : Message} (hab : starvingLe a b) (hbc : starvingLe b c) :
    starvingLe a c := by
  simp only [starvingLe, Bool.or_eq_true, decide_eq_true_eq, Bool.and_eq_true,
    beq_iff_eq] at hab hbc ⊢
  obtain lt | ⟨eq, ids⟩ := hab
  · exact .inl (by omega)
  · obtain lt | ⟨eq', ids'⟩ := hbc
    · exact .inl (by omega)
    · exact .inr ⟨eq.trans eq', Bytes.textLe_trans ids ids'⟩

theorem starvingLe_total (a b : Message) : starvingLe a b || starvingLe b a := by
  have total := Bytes.textLe_total a.id b.id
  simp only [starvingLe, Bool.or_eq_true, decide_eq_true_eq, Bool.and_eq_true,
    beq_iff_eq] at total ⊢
  obtain lt | eq | gt := Nat.lt_trichotomy a.queuedAt.nanos b.queuedAt.nanos
  · exact .inl (.inl lt)
  · exact total.imp (fun h => .inr ⟨eq, h⟩) fun h => .inr ⟨eq.symm, h⟩
  · exact .inr (.inl gt)

private theorem pairwise_starving (messages : List Message) :
    (messages.mergeSort starvingLe).Pairwise fun a b => a.queuedAt ≤ b.queuedAt := by
  have trans : ∀ a b c : Message, starvingLe a b → starvingLe b c → starvingLe a c :=
    fun _ _ _ => starvingLe_trans
  have sorted := List.pairwise_mergeSort trans starvingLe_total messages
  refine sorted.imp fun {a b} h => ?_
  show a.queuedAt.nanos ≤ b.queuedAt.nanos
  simp only [starvingLe, Bool.or_eq_true, decide_eq_true_eq, Bool.and_eq_true, beq_iff_eq] at h
  omega

section Lanes

variable {lanes : List (List String)} {a b : String} {i k : Nat} {l : List String}

theorem getD_modify_of_lt (f : List String → List String) (hi : i < lanes.length) :
    (lanes.modify i f).getD i [] = f (lanes.getD i []) := by
  simp [List.getD_eq_getElem?_getD, hi]

theorem getD_modify_of_ne (f : List String → List String) (ne : k ≠ i) :
    (lanes.modify k f).getD i [] = lanes.getD i [] := by
  simp [List.getD_eq_getElem?_getD, ne]

private theorem sublist_modify {f : List String → List String}
    (keep : [a, b].Sublist (lanes.getD k []) → [a, b].Sublist (f (lanes.getD k [])))
    (h : [a, b].Sublist (lanes.getD i [])) : [a, b].Sublist ((lanes.modify k f).getD i []) := by
  by_cases e : k = i
  · subst e
    by_cases hk : k < lanes.length
    · rw [getD_modify_of_lt f hk]
      exact keep h
    · simp [List.getD_eq_getElem?_getD, Nat.le_of_not_lt hk] at h
  · rw [getD_modify_of_ne f e]
    exact h

private theorem sublist_erase (ha : a ≠ id) (hb : b ≠ id) (h : [a, b].Sublist l) :
    [a, b].Sublist (l.erase id) := by
  have same : [a, b].erase id = [a, b] :=
    List.erase_of_not_mem (by simp [Ne.symm ha, Ne.symm hb])
  exact same ▸ h.erase id

private theorem sublist_tail (front : l.head? = some id) (ha : a ≠ id) (hb : b ≠ id)
    (h : [a, b].Sublist l) : [a, b].Sublist l.tail := by
  obtain ⟨rest, rfl⟩ := List.head?_eq_some_iff.mp front
  simpa using sublist_erase ha hb h

private theorem sublist_append_last (ha : a ∈ l) : [a, b].Sublist (l ++ [b]) :=
  (List.singleton_sublist.mpr ha).append (List.Sublist.refl [b])

end Lanes

/-- Whether a message is popped before another one: its lane comes first, or it is nearer the front
of the same lane. -/
def Ahead (q : Queue) (a b : Message) : Prop :=
  a.lane < b.lane ∨ a.lane = b.lane ∧ [a.id, b.id].Sublist (q.lane a.lane)

/-- A ready message that was placed at a moment. -/
structure Stands (placed : String → Option Instant) (q : Queue) (m : Message) (t : Instant) :
    Prop where
  found : q.find? m.id = some m
  ready : m.state = .queued
  placed : placed m.id = some t

/-- Messages of one priority stand in the order in which they were placed; and a message that was
placed remembers when, unless it has failed since. -/
structure InOrder (placed : String → Option Instant) (q : Queue) : Prop where
  dated : ∀ m t, q.find? m.id = some m → placed m.id = some t → m.state ≠ .failed →
    m.state ≠ .delayed ∧ m.queuedAt = t
  ahead : ∀ a b s t, Stands placed q a s → Stands placed q b t → a.priority = b.priority →
    s < t → q.Ahead a b

private theorem InOrder.congr (o : InOrder placed q) (found : ∀ id, q'.find? id = q.find? id)
    (lanes : q'.lanes = q.lanes) : InOrder placed q' where
  dated m t hm := o.dated m t ((found m.id).symm.trans hm)
  ahead a b s t ha hb same lt := by
    rw [Ahead, lane, lanes]
    exact o.ahead a b s t ⟨(found a.id).symm.trans ha.found, ha.ready, ha.placed⟩
      ⟨(found b.id).symm.trans hb.found, hb.ready, hb.placed⟩ same lt

section Changes

private theorem InOrder.change (o : InOrder placed q)
    (found : ∀ other, other ≠ id → q'.find? other = q.find? other)
    (times : ∀ other, other ≠ id → placed' other = placed other)
    (lanes : ∀ a b i, a ≠ id → b ≠ id → [a, b].Sublist (q.lane i) → [a, b].Sublist (q'.lane i))
    (dated : ∀ m t, q'.find? id = some m → placed' id = some t → m.state ≠ .failed →
      m.state ≠ .delayed ∧ m.queuedAt = t)
    (last : ∀ a b s t, Stands placed q a s → a.id ≠ id → Stands placed' q' b t → b.id = id →
      a.priority = b.priority → s < t → q'.Ahead a b)
    (first : ∀ a b s t, Stands placed' q' a s → a.id = id → Stands placed q b t → b.id ≠ id →
      a.priority = b.priority → s < t → q'.Ahead a b) : InOrder placed' q' := by
  have old : ∀ {a : Message} {s : Instant}, Stands placed' q' a s → a.id ≠ id →
      Stands placed q a s := by
    intro a s ha ne
    exact ⟨(found a.id ne).symm.trans ha.found, ha.ready, (times a.id ne).symm.trans ha.placed⟩
  constructor
  · intro m t hm ht
    by_cases e : m.id = id
    · exact dated m t (e ▸ hm) (e ▸ ht)
    · exact o.dated m t ((found m.id e).symm.trans hm) ((times m.id e).symm.trans ht)
  · intro a b s t ha hb same lt
    by_cases ea : a.id = id
    · by_cases eb : b.id = id
      · have ids : a.id = b.id := ea.trans eb.symm
        have moment : s = t := Option.some.inj (ha.placed.symm.trans (ids ▸ hb.placed))
        exact absurd (show s.nanos < t.nanos from lt) (by simp [moment])
      · exact first a b s t ha ea (old hb eb) eb same lt
    · by_cases eb : b.id = id
      · exact last a b s t (old ha ea) ea hb eb same lt
      · obtain lower | ⟨level, stand⟩ := o.ahead a b s t (old ha ea) (old hb eb) same lt
        · exact .inl lower
        · exact .inr ⟨level, lanes a.id b.id a.lane ea eb stand⟩

private theorem InOrder.leave (o : InOrder placed q)
    (found : ∀ other, other ≠ id → q'.find? other = q.find? other)
    (times : ∀ other, other ≠ id → placed' other = placed other)
    (lanes : ∀ a b i, a ≠ id → b ≠ id → [a, b].Sublist (q.lane i) → [a, b].Sublist (q'.lane i))
    (dated : ∀ m t, q'.find? id = some m → placed' id = some t → m.state ≠ .failed →
      m.state ≠ .queued ∧ m.state ≠ .delayed ∧ m.queuedAt = t) : InOrder placed' q' := by
  have away : ∀ m t, Stands placed' q' m t → m.id ≠ id := by
    rintro m t hm rfl
    exact (dated m t hm.found hm.placed (by simp [hm.ready])).1 hm.ready
  refine o.change found times lanes ?_ ?_ ?_
  · intro m t hm ht alive
    exact (dated m t hm ht alive).2
  · intro a b s t _ _ hb e
    exact absurd e (away b t hb)
  · intro a b s t ha e
    exact absurd e (away a s ha)

private theorem InOrder.place (o : InOrder placed q) (hq : q.Coherent)
    (found : ∀ other, q'.find? other = if other = id then some m else q.find? other)
    (queuedAt : m.queuedAt = now) (state : m.state = .queued) (home : m.lane = m.priority)
    (lane_lt : m.lane < q.lanes.length) (lanes : q'.lanes = q.lanes.modify m.lane (· ++ [id]))
    (bound : ∀ other t, placed other = some t → t ≤ now)
    (times : ∀ other, other ≠ id → placed' other = placed other) (here : placed' id = some now) :
    InOrder placed' q' := by
  have hm : q'.find? id = some m := (found id).trans (if_pos rfl)
  refine o.change (fun other ne => (found other).trans (if_neg ne)) times ?_ ?_ ?_ ?_
  · intro a b i _ _ h
    rw [lane, lanes]
    exact sublist_modify (fun h => h.trans (List.sublist_append_left _ _)) h
  · intro n t hn ht _
    obtain rfl : m = n := Option.some.inj (hm.symm.trans hn)
    exact ⟨by simp [state], queuedAt.trans (Option.some.inj (here.symm.trans ht))⟩
  · rintro a b s t ha - hb rfl same -
    obtain rfl : m = b := Option.some.inj (hm.symm.trans hb.found)
    -- A message stands in the first lane or in the lane of its priority.
    by_cases level : a.lane = m.lane
    · refine .inr ⟨level, ?_⟩
      rw [lane, lanes, level, getD_modify_of_lt _ lane_lt]
      exact sublist_append_last ((hq.mem_lane_iff _ _).mpr ⟨a, ha.found, ha.ready, level⟩)
    · have := hq.lane_home a (mem_of_find? ha.found)
      exact .inl (by omega)
  · rintro a b s t ha rfl hb - - lt
    have late : t.nanos ≤ now.nanos := bound b.id t hb.placed
    obtain rfl : now = s := Option.some.inj (here.symm.trans ha.placed)
    exact absurd (show now.nanos < t.nanos from lt) (by omega)

end Changes

section Steps

private theorem InOrder.enqueue (o : InOrder placed q) (hq : q.Coherent) {p : Queue}
    (hm : p.find? id = some m) (found : ∀ other, other ≠ id → p.find? other = q.find? other)
    (lanes : p.lanes = q.lanes) (home : m.lane = m.priority)
    (priority : m.priority < q.lanes.length)
    (bound : ∀ other t, placed other = some t → t ≤ now)
    (times : ∀ other, other ≠ id → placed' other = placed other) (here : placed' id = some now) :
    InOrder placed' (p.enqueue id now) := by
  have views : ∀ other, (p.enqueue id now).find? other =
      if other = id then some { m with state := .queued, queuedAt := now } else q.find? other := by
    intro other
    rw [find?_enqueue hm]
    split_ifs with e
    · rfl
    · exact found other e
  have stands : (p.enqueue id now).lanes = q.lanes.modify m.lane (· ++ [id]) := by
    rw [enqueue_eq hm, lanes]
  exact o.place hq views rfl rfl home (home ▸ priority) stands bound times here

private theorem InOrder.park (o : InOrder placed q) {p : Queue} (hm : p.find? id = some m)
    (found : ∀ other, other ≠ id → p.find? other = q.find? other) (lanes : p.lanes = q.lanes)
    (due : Instant) (times : ∀ other, other ≠ id → placed' other = placed other)
    (here : placed' id = none) : InOrder placed' (p.park id due) := by
  refine o.leave (fun other ne => ?_) times (fun a b i _ _ h => ?_) (fun n t _ ht _ => ?_)
  · rw [find?_park hm, if_neg ne, found other ne]
  · rw [park_eq hm]
    exact (show q.lane i = p.lane i by rw [lane, lane, lanes]) ▸ h
  · simp [here] at ht

private theorem InOrder.enqueueAfter (o : InOrder placed q) (hq : q.Coherent) {p : Queue}
    (hm : p.find? id = some m) (found : ∀ other, other ≠ id → p.find? other = q.find? other)
    (lanes : p.lanes = q.lanes) (home : m.lane = m.priority)
    (priority : m.priority < q.lanes.length)
    (bound : ∀ other t, placed other = some t → t ≤ now)
    (times : ∀ other, other ≠ id → placed' other = placed other) (delay : Duration)
    (here : placed' id = if delay.isZero then some now else none) :
    InOrder placed' (p.enqueueAfter id delay now) := by
  rw [Queue.enqueueAfter]
  split_ifs at here ⊢
  · exact o.enqueue hq hm found lanes home priority bound times here
  · exact o.park hm found lanes _ times here

theorem InOrder.push (o : InOrder placed q) (hq : q.Coherent) {payload : Bytes} {priority : Nat}
    {delay : Duration} (pushed : q.push id payload priority delay now = (.ok (), q'))
    (bound : ∀ other t, placed other = some t → t ≤ now)
    (times : ∀ other, other ≠ id → placed' other = placed other)
    (here : placed' id = if delay.isZero then some now else none) : InOrder placed' q' := by
  rcases push_cases q id payload priority delay now with ⟨e, h⟩ | ⟨priority_lt, fresh, -, h⟩
  · simp [h] at pushed
  · obtain rfl := (Prod.mk.inj (h.symm.trans pushed)).2
    have views : ∀ other, find? (count { q with
        messages := q.messages ++ [⟨id, priority, priority, payload, .queued, now, 0⟩] }
          fun s => { s with accepted := s.accepted + 1 }) other =
        if other = id then some ⟨id, priority, priority, payload, .queued, now, 0⟩
        else q.find? other :=
      find?_append (m := ⟨id, priority, priority, payload, .queued, now, 0⟩) fresh rfl
    exact o.enqueueAfter hq ((views id).trans (if_pos rfl))
      (fun other ne => (views other).trans (if_neg ne)) rfl rfl priority_lt bound times delay here

private theorem InOrder.take (o : InOrder placed q) (hm : q.find? m.id = some m)
    (state : m.state = .queued)
    (front : (q.lane m.lane).head? = some m.id) (owner : Nat) (now : Instant) :
    InOrder placed (q.taken m owner now) := by
  have views := find?_taken hm owner now
  refine o.leave (fun other ne => (views other).trans (if_neg ne)) (fun _ _ => rfl) ?_ ?_
  · intro a b i ha hb h
    exact sublist_modify (sublist_tail front ha hb) h
  · intro n t hn ht _
    obtain rfl := Option.some.inj (((views m.id).trans (if_pos rfl)).symm.trans hn)
    exact ⟨by simp, by simp, (o.dated m t hm ht (by simp [state])).2⟩

private theorem InOrder.untake (o : InOrder placed q) (hq : q.Coherent) (hm : q.find? m.id = some m)
    (state : m.state = .queued) (front : (q.lane m.lane).head? = some m.id) (owner : Nat)
    (now : Instant) : InOrder placed ((q.taken m owner now).unpop m.id q.nextToken).2 := by
  rw [hq.unpop_taken hm state front owner now]
  exact o.congr (fun _ => rfl) rfl

private theorem InOrder.settle (o : InOrder placed q) (hq : q.Coherent) (hm : q.find? id = some m)
    (requeue : Bool) (delay : Duration) (bound : ∀ other t, placed other = some t → t ≤ now)
    (times : ∀ other, other ≠ id → placed' other = placed other)
    (here : placed' id = if requeue && delay.isZero then some now else none) :
    InOrder placed' (q.settle id requeue delay now) := by
  cases requeue with
  | false =>
    have gone := find?_remove q id
    refine o.leave (fun other ne => (gone other).trans (if_neg ne)) times (fun _ _ _ _ _ h => h) ?_
    intro n t hn
    simp [settle_done, find?, count, show (q.remove id).messages.find? (·.id == id) = none from
      (gone id).trans (if_pos rfl)] at hn
  | true =>
    have moved : ∀ other, ((q.modify id fun n => { n with lane := n.priority }).count
        fun s => { s with requeued := s.requeued + 1 }).find? other =
          if other = id then some { m with lane := m.priority } else q.find? other :=
      find?_of_modified hm rfl fun _ => rfl
    rw [settle_requeue]
    exact o.enqueueAfter hq ((moved id).trans (if_pos rfl))
      (fun other ne => (moved other).trans (if_neg ne)) rfl rfl (hq.priority_lt m (mem_of_find? hm))
      bound times delay (by simpa using here)

private theorem InOrder.strike (o : InOrder placed q) (hq : q.Coherent) (hm : q.find? id = some m)
    (bound : ∀ other t, placed other = some t → t ≤ now)
    (times : ∀ other, other ≠ id → placed' other = placed other) (here : placed' id = some now) :
    InOrder placed' (q.recordFailure id now).2 := by
  by_cases spent : q.settings.maxRetries < m.failures + 1
  · have views := find?_recordFailure hm now
    refine o.leave (fun other ne => (views other).trans (if_neg ne)) times ?_ ?_
    · intro a b i _ _ h
      rw [recordFailure_last hm spent]
      exact h
    · intro n t hn _ alive
      obtain rfl := Option.some.inj (((views id).trans (if_pos rfl)).symm.trans hn)
      simp [struck, spent] at alive
  · have moved : ∀ other, ((q.modify id fun n =>
        { n with failures := n.failures + 1, lane := n.priority }).count
          fun s => { s with redelivered := s.redelivered + 1 }).find? other =
        if other = id then some { m with failures := m.failures + 1, lane := m.priority }
        else q.find? other := find?_of_modified hm rfl fun _ => rfl
    rw [recordFailure_retry hm spent]
    exact o.enqueue hq ((moved id).trans (if_pos rfl))
      (fun other ne => (moved other).trans (if_neg ne)) rfl rfl (hq.priority_lt m (mem_of_find? hm))
      bound times here

/-- A promoted message stands at the front of its lane, but it was not placed there. -/
theorem InOrder.promote (o : InOrder placed q) (id : String) (now : Instant) :
    InOrder placed (q.promote id now).2 := by
  cases hm : q.find? id with
  | none =>
    simp only [Queue.promote, hm]
    exact o
  | some m =>
    by_cases state : m.state = .delayed
    · have h := promote_eq hm state now
      have messages := congrArg (·.2.messages) h
      have views := find?_of_modified hm messages fun _ => rfl
      obtain rfl := id_of_find? hm
      refine o.leave (fun other ne => (views other).trans (if_neg ne)) (fun _ _ => rfl) ?_ ?_
      · intro a b i _ _ stand
        rw [h]
        exact sublist_modify (fun h => h.cons _) stand
      · intro n t _ ht _
        exact absurd state (o.dated m t hm ht (by simp [state])).1
    · simp only [Queue.promote, hm, beq_eq_false_iff_ne.mpr state, Bool.false_eq_true, if_false]
      exact o

private theorem InOrder.erase (o : InOrder placed q) (id : String) :
    InOrder placed (q.eraseOne id).2 := by
  rcases eraseOne_cases q id with h | ⟨m, hm, state⟩
  · rw [h]
    exact o
  · have gone := find?_remove q id
    rw [eraseOne_eq hm state]
    refine o.leave (fun other ne => (gone other).trans (if_neg ne)) (fun _ _ => rfl)
      (fun _ _ _ _ _ h => h) ?_
    intro n t hn
    have absent : (q.remove id).messages.find? (·.id == id) = none := (gone id).trans (if_pos rfl)
    simp [find?, count, absent] at hn

private theorem InOrder.boost (o : InOrder placed q) (hq : q.Coherent) (hm : q.find? id = some m)
    (state : m.state = .queued) (outside : 0 < m.lane)
    (earlier : ∀ a s t, Stands placed q a s → placed id = some t → a.priority = m.priority →
      s < t → a.lane = 0) : InOrder placed (q.boost id).2 := by
  have stands := (hq.mem_lane_iff m.lane id).mpr ⟨m, hm, state, rfl⟩
  have h := boost_eq hm stands
  have messages := congrArg (·.2.messages) h
  have lanes : (q.boost id).2.lanes =
      (q.lanes.modify m.lane (·.erase id)).modify 0 (· ++ [id]) := congrArg (·.2.lanes) h
  have views := find?_of_modified hm messages fun _ => rfl
  have here := (views id).trans (if_pos rfl)
  obtain rfl := id_of_find? hm
  refine o.change (fun other ne => (views other).trans (if_neg ne)) (fun _ _ => rfl) ?_ ?_ ?_ ?_
  · intro a b i ha hb stand
    rw [lane, lanes]
    exact sublist_modify (fun h => h.trans (List.sublist_append_left _ _))
      (sublist_modify (sublist_erase ha hb) stand)
  · intro n t hn ht _
    obtain rfl := Option.some.inj (here.symm.trans hn)
    exact ⟨by simp [state], (o.dated m t hm ht (by simp [state])).2⟩
  · intro a b s t ha ne hb e same lt
    obtain rfl := Option.some.inj ((here.symm.trans (e ▸ hb.found)))
    -- Whoever was placed earlier is in the first lane already, and not at its end any more.
    have first := earlier a s t ha hb.placed same lt
    have before : a.id ∈ (q.lanes.modify m.lane (·.erase m.id)).getD 0 [] := by
      rw [getD_modify_of_ne _ (Nat.ne_of_gt outside)]
      exact (hq.mem_lane_iff 0 a.id).mpr ⟨a, ha.found, ha.ready, first⟩
    have some_lane : 0 < (q.lanes.modify m.lane (·.erase m.id)).length := by
      have := hq.lane_lt (mem_of_find? hm)
      rw [List.length_modify]
      omega
    refine .inr ⟨first, ?_⟩
    rw [lane, lanes, first, getD_modify_of_lt _ some_lane]
    exact sublist_append_last before
  · intro a b s t ha e hb ne same lt
    obtain rfl := Option.some.inj ((here.symm.trans (e ▸ ha.found)))
    -- Nobody who was placed later was in the first lane while the message was outside.
    have old : Stands placed q m s := ⟨hm, state, ha.placed⟩
    refine .inl (show 0 < b.lane from ?_)
    obtain lower | ⟨level, -⟩ := o.ahead m b s t old hb same lt
    · omega
    · omega

end Steps

section Operations

theorem InOrder.pop (o : InOrder placed q) (hq : q.Coherent) (owner : Nat) (now : Instant) :
    InOrder placed (q.pop owner now).2 := by
  rcases hq.pop_cases owner now with ⟨-, -, h⟩ | ⟨m, hm, state, front, -, h⟩
  · rw [h]
    exact o
  · rw [h]
    exact o.take hm state front owner now

theorem InOrder.unpop_pop (o : InOrder placed q) (hq : q.Coherent) {owner : Nat} {now : Instant}
    {d : Delivery} (popped : (q.pop owner now).1 = some d) :
    InOrder placed ((q.pop owner now).2.unpop d.id d.token).2 := by
  rcases hq.pop_cases owner now with ⟨-, -, h⟩ | ⟨m, hm, state, front, -, h⟩
  · simp [h] at popped
  · rw [h, Option.some.injEq] at popped
    subst popped
    rw [h]
    exact o.untake hq hm state front owner now

theorem InOrder.ack (o : InOrder placed q) (hq : q.Coherent) {token : Nat} {requeue : Bool}
    {delay : Duration} (acked : q.ack id token requeue delay now = (.ok (), q'))
    (bound : ∀ other t, placed other = some t → t ≤ now)
    (times : ∀ other, other ≠ id → placed' other = placed other)
    (here : placed' id = if requeue && delay.isZero then some now else none) :
    InOrder placed' q' := by
  rcases ack_cases q id token requeue delay now with ⟨e, h⟩ | ⟨m, _, _, hm, -, h⟩
  · simp [h] at acked
  · obtain rfl := (Prod.mk.inj (h.symm.trans acked)).2
    exact o.settle hq hm requeue delay bound times here

private theorem InOrder.promoteDue (o : InOrder placed q) (now : Instant) :
    InOrder placed (q.promoteDue now).2 := by
  have all : ∀ (ids : List String) (q : Queue), InOrder placed q →
      InOrder placed (tally (fun q id => q.promote id now) ids q).2 := by
    intro ids
    induction ids with
    | nil => exact fun q o => o
    | cons id ids ih =>
      intro q o
      rw [tally_cons]
      exact ih _ (o.promote id now)
  exact all _ _ (o.congr (fun _ => rfl) rfl)

private theorem InOrder.strikes (o : InOrder placed q) (hq : q.Coherent) {ids : List String}
    (hids : ids.Nodup) (out : ∀ id ∈ ids, q.IsOut id)
    (bound : ∀ other t, placed other = some t → t ≤ now)
    (times : ∀ other, placed' other = if other ∈ ids then some now else placed other) :
    InOrder placed' (tally (fun q id => q.recordFailure id now) ids q).2 := by
  induction ids generalizing q placed with
  | nil =>
    obtain rfl : placed' = placed := funext fun other => (times other).trans (by simp)
    exact o
  | cons id ids ih =>
    obtain ⟨new, hids⟩ := List.nodup_cons.mp hids
    obtain ⟨m, token, owner, since, hm, state⟩ := out id List.mem_cons_self
    have first : InOrder (fun other => if other = id then some now else placed other)
        (q.recordFailure id now).2 :=
      o.strike hq hm bound (fun other ne => if_neg ne) (if_pos rfl)
    rw [tally_cons]
    refine ih first (hq.recordFailure hm state now) hids ?_ ?_ ?_
    · intro other ho
      obtain ⟨n, token, owner, since, hn, out⟩ := out other (List.mem_cons_of_mem id ho)
      have ne : other ≠ id := fun e => new (e ▸ ho)
      exact ⟨n, token, owner, since, by rw [find?_recordFailure hm, if_neg ne, hn], out⟩
    · intro other t ht
      split_ifs at ht
      · rw [Option.some.injEq] at ht
        exact ht ▸ Nat.le_refl _
      · exact bound other t ht
    · intro other
      rw [times]
      by_cases e : other = id <;> simp [e]

private theorem isOut_of_runs {l : Loan} (runs : q.Runs l) : q.IsOut l.id := by
  obtain ⟨m, hm, state⟩ := runs_iff.mp runs
  exact ⟨m, _, _, _, hm, state⟩

private theorem isOut_of_mem_expired (hq : q.Coherent)
    (late : id ∈ (q.promoteDue now).2.expired now) :
    (q.promoteDue now).2.IsOut id := by
  obtain ⟨l, runs, rfl, -⟩ := (mem_expired_promoteDue_iff hq now id).mp late
  exact isOut_of_runs ((runs_promoteDue q now l).mpr runs)

private theorem isOut_of_mem_heldBy (hq : q.Coherent) {owner : Nat} (held : id ∈ q.heldBy owner) :
    q.IsOut id := by
  obtain ⟨l, runs, rfl, -⟩ := (mem_heldBy_iff_runs hq owner id).mp held
  exact isOut_of_runs runs

section Late

variable (hq : q.Coherent) (order : VisitOrder)

include hq

private theorem nodup_late (now : Instant) :
    (order.arrange ((q.promoteDue now).2.expired now)).Nodup := by
  have hdue := (moves_promoteDue q now).coherent hq
  exact (order.arrange_perm _).nodup_iff.mpr (nodup_expired hdue.nodup_ids now)

theorem coherent_struckLate (now : Instant) : (q.struckLate order now).Coherent := by
  have hdue := (moves_promoteDue q now).coherent hq
  refine (moves_strike (nodup_late hq order now) (fun id late => ?_) now).coherent hdue
  exact isOut_of_mem_expired hq ((order.arrange_perm _).mem_iff.mp late)

private theorem InOrder.struckLate (o : InOrder placed q)
    (bound : ∀ other t, placed other = some t → t ≤ now)
    (times : ∀ other, placed' other =
      if other ∈ (q.promoteDue now).2.expired now then some now else placed other) :
    InOrder placed' (q.struckLate order now) := by
  have hdue := (moves_promoteDue q now).coherent hq
  have same := order.arrange_perm ((q.promoteDue now).2.expired now)
  refine (o.promoteDue now).strikes hdue (nodup_late hq order now) (fun id late => ?_) bound ?_
  · exact isOut_of_mem_expired hq (same.mem_iff.mp late)
  · intro other
    simp only [times, same.mem_iff]

end Late

theorem isStarving_iff {timeout : Duration} :
    isStarving timeout now m ↔
      m.state = .queued ∧ 0 < m.lane ∧ timeout.nanos ≤ now.nanos - m.queuedAt.nanos := by
  rw [isStarving, Bool.and_eq_true, Bool.and_eq_true, beq_iff_eq, decide_eq_true_iff,
    decide_eq_true_iff, and_assoc]
  rfl

private theorem InOrder.boosts {timeout : Duration} {rest : List Message}
    (sorted : rest.Pairwise fun a b => a.queuedAt ≤ b.queuedAt) (nodup : (rest.map (·.id)).Nodup)
    (o : InOrder placed q) (hq : q.Coherent)
    (mem_rest : ∀ m, m ∈ rest ↔ q.find? m.id = some m ∧ isStarving timeout now m) :
    InOrder placed (tally Queue.boost (rest.map (·.id)) q).2 := by
  induction rest generalizing q with
  | nil => exact o
  | cons r rest ih =>
    obtain ⟨later, sorted⟩ := List.pairwise_cons.mp sorted
    rw [List.map_cons, List.nodup_cons] at nodup
    obtain ⟨new, nodup⟩ := nodup
    obtain ⟨hr, starving⟩ := (mem_rest r).mp List.mem_cons_self
    obtain ⟨ready, outside, waited⟩ := isStarving_iff.mp starving
    have stands := (hq.mem_lane_iff r.lane r.id).mpr ⟨r, hr, ready, rfl⟩
    rw [List.map_cons, tally_cons]
    refine ih sorted nodup (o.boost hq hr ready outside ?_) (hq.boost hr ready) ?_
    · -- An earlier message outside the first lane would be starving, and have its turn before.
      intro a s t ha ht _ lt
      by_contra out
      have dated := (o.dated a s ha.found ha.placed (by simp [ha.ready])).2
      have dated' := (o.dated r t hr ht (by simp [ready])).2
      have lt : a.queuedAt.nanos < r.queuedAt.nanos := by
        rw [dated, dated']
        exact lt
      have hungry : isStarving timeout now a :=
        isStarving_iff.mpr ⟨ha.ready, Nat.pos_of_ne_zero out, by omega⟩
      rcases List.mem_cons.mp ((mem_rest a).mpr ⟨ha.found, hungry⟩) with rfl | mem
      · exact absurd lt (Nat.lt_irrefl _)
      · have : r.queuedAt.nanos ≤ a.queuedAt.nanos := later a mem
        omega
    · intro m
      have messages := congrArg (·.2.messages) (boost_eq hr stands)
      have views := find?_of_modified hr messages fun _ => rfl
      by_cases e : m.id = r.id
      · have gone : m ∉ rest := fun mem => new (e ▸ List.mem_map_of_mem mem)
        refine iff_of_false gone ?_
        rintro ⟨found, hungry⟩
        rw [e, views, if_pos rfl, Option.some.injEq] at found
        have := (isStarving_iff.mp hungry).2.1
        simp [← found] at this
      · rw [views, if_neg e, ← mem_rest, List.mem_cons]
        exact ⟨.inr, fun h => h.resolve_left fun same => e (congrArg Message.id same)⟩

theorem InOrder.sweepIn (o : InOrder placed q) (hq : q.Coherent) (order : VisitOrder)
    (bound : ∀ other t, placed other = some t → t ≤ now)
    (times : ∀ other, placed' other =
      if other ∈ (q.promoteDue now).2.expired now then some now else placed other) :
    InOrder placed' (q.sweepIn order now).2 := by
  have struck := o.struckLate hq order bound times
  have hstruck := coherent_struckLate hq order now
  have nodup := nodup_starving hstruck.nodup_ids now
  rw [sweepIn_eq]
  rw [starving] at nodup ⊢
  cases timeout : (q.struckLate order now).settings.boostTimeout with
  | none => exact struck
  | some timeout' =>
    simp only [timeout] at nodup
    have mem_starving : ∀ m, m ∈ ((q.struckLate order now).messages.filter
        (isStarving timeout' now)).mergeSort starvingLe ↔
          (q.struckLate order now).find? m.id = some m ∧ isStarving timeout' now m := by
      intro m
      rw [(List.mergeSort_perm _ starvingLe).mem_iff, List.mem_filter]
      exact and_congr_left fun _ => ⟨find?_id hstruck.nodup_ids, mem_of_find?⟩
    exact struck.boosts (pairwise_starving _) nodup hstruck mem_starving

theorem InOrder.releaseIn (o : InOrder placed q) (hq : q.Coherent) (order : VisitOrder)
    (owner : Nat) (bound : ∀ other t, placed other = some t → t ≤ now)
    (times : ∀ other, placed' other = if other ∈ q.heldBy owner then some now else placed other) :
    InOrder placed' (q.releaseIn order owner now).2 := by
  have held := order.arrange_perm (q.heldBy owner)
  refine o.strikes hq (held.nodup_iff.mpr (nodup_heldBy hq.nodup_ids owner)) ?_ bound ?_
  · exact fun id hid => isOut_of_mem_heldBy hq (held.mem_iff.mp hid)
  · intro other
    simp only [times, held.mem_iff]

theorem InOrder.eraseFailed (o : InOrder placed q) (ids : List String) :
    InOrder placed (q.eraseFailed ids).2 := by
  induction ids generalizing q with
  | nil => exact o
  | cons id ids ih =>
    rw [eraseFailed_cons]
    exact ih (o.erase id)

end Operations

end Queue
end WorkBroker
