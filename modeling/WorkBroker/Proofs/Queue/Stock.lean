import WorkBroker.Proofs.Queue.Forms
/-!
What a queue holds was pushed.  If every message that is taken in has an id and a payload of some
kind, so has every message that the queue ever holds, hands out or lists, whatever is done to it.
-/

set_option autoImplicit false
set_option relaxedAutoImplicit false

namespace WorkBroker.Queue

variable {P : String → Bytes → Prop} {q q' : Queue} {id : String} {now : Instant}

/-- Whether every message of a queue has an id and a payload of some kind. -/
def Stocks (P : String → Bytes → Prop) (q : Queue) : Prop := ∀ m ∈ q.messages, P m.id m.payload

theorem stocks_ofSettings (settings : QueueSettings) : (ofSettings settings).Stocks P :=
  fun _ none => absurd none List.not_mem_nil

section Changes

private theorem Stocks.modify (h : q.Stocks P) (id : String) {f : Message → Message}
    (same : ∀ m, (f m).id = m.id ∧ (f m).payload = m.payload) : (q.modify id f).Stocks P := by
  intro m hm
  obtain ⟨before, hbefore, rfl⟩ := List.mem_map.mp hm
  split_ifs
  · rw [(same before).1, (same before).2]
    exact h before hbefore
  · exact h before hbefore

private theorem Stocks.remove (h : q.Stocks P) (id : String) : (q.remove id).Stocks P :=
  fun m hm => h m (List.mem_filter.mp hm).1

private theorem Stocks.enqueue (h : q.Stocks P) (id : String) (now : Instant) :
    (q.enqueue id now).Stocks P := by
  rw [Queue.enqueue]
  split
  · exact h
  · exact h.modify id fun _ => ⟨rfl, rfl⟩

private theorem Stocks.park (h : q.Stocks P) (id : String) (due : Instant) :
    (q.park id due).Stocks P := by
  rw [Queue.park]
  split
  · exact h
  · exact h.modify id fun _ => ⟨rfl, rfl⟩

private theorem Stocks.enqueueAfter (h : q.Stocks P) (id : String) (delay : Duration)
    (now : Instant) :
    (q.enqueueAfter id delay now).Stocks P := by
  rw [Queue.enqueueAfter]
  split_ifs
  · exact h.enqueue id now
  · exact h.park id _

private theorem Stocks.promote (h : q.Stocks P) (id : String) (now : Instant) :
    (q.promote id now).2.Stocks P := by
  rw [Queue.promote]
  split
  · exact h
  · split_ifs
    · exact h.modify id fun _ => ⟨rfl, rfl⟩
    · exact h

private theorem Stocks.boost (h : q.Stocks P) (id : String) : (q.boost id).2.Stocks P := by
  rw [Queue.boost]
  split
  · exact h
  · rename_i m _
    dsimp only
    split_ifs
    · have moved : Stocks P { q with lanes := q.lanes.modify m.lane (·.erase id) } := h
      exact moved.modify id fun _ => ⟨rfl, rfl⟩
    · exact h

private theorem Stocks.recordFailure (h : q.Stocks P) (id : String) (now : Instant) :
    (q.recordFailure id now).2.Stocks P := by
  rw [Queue.recordFailure]
  split
  · exact h
  · split_ifs
    · exact h.modify id fun _ => ⟨rfl, rfl⟩
    · rename_i m _ _
      have struck : (q.modify id fun m =>
          { m with failures := m.failures + 1, lane := m.priority }).Stocks P :=
        h.modify id fun _ => ⟨rfl, rfl⟩
      exact Stocks.enqueue (q := count _ _) struck id now

private theorem Stocks.tally {f : Queue → String → Bool × Queue}
    (step : ∀ q id, q.Stocks P → (f q id).2.Stocks P) (ids : List String) (h : q.Stocks P) :
    (tally f ids q).2.Stocks P := by
  induction ids generalizing q with
  | nil => exact h
  | cons id ids ih =>
    rw [tally_cons]
    exact ih (step q id h)

end Changes

section Operations

theorem Stocks.push (h : q.Stocks P) {payload : Bytes} (fits : P id payload) (priority : Nat)
    (delay : Duration) (now : Instant) : (q.push id payload priority delay now).2.Stocks P := by
  rcases push_cases q id payload priority delay now with ⟨e, pushed⟩ | ⟨-, -, -, pushed⟩
  · rw [pushed]
    exact h
  · rw [pushed]
    refine Stocks.enqueueAfter (fun m hm => ?_) id delay now
    rcases List.mem_append.mp hm with hm | hm
    · exact h m hm
    · rw [List.mem_singleton.mp hm]
      exact fits

private theorem mem_of_ready? {m : Message} (ready : q.ready? id = some m) : m ∈ q.messages := by
  rw [ready?] at ready
  split at ready
  · rename_i found
    split_ifs at ready
    obtain rfl := Option.some.inj ready
    exact mem_of_find? found
  · cases ready

private theorem mem_of_takeFromLane {ids : List String} {m : Message}
    (found : (q.takeFromLane ids).1 = some m) : m ∈ q.messages := by
  induction ids with
  | nil => cases found
  | cons id rest ih =>
    rw [takeFromLane] at found
    split at found
    · rename_i ready
      obtain rfl := Option.some.inj found
      exact mem_of_ready? ready
    · exact ih found

private theorem mem_of_takeFromLanes {lanes : List (List String)} {m : Message}
    (found : (q.takeFromLanes lanes).1 = some m) : m ∈ q.messages := by
  induction lanes with
  | nil => cases found
  | cons lane rest ih =>
    rw [takeFromLanes] at found
    split at found
    · rename_i first _ taken
      obtain rfl := Option.some.inj found
      exact mem_of_takeFromLane (congrArg Prod.fst taken)
    · exact ih found

theorem Stocks.pop (h : q.Stocks P) (owner : Nat) (now : Instant) :
    (q.pop owner now).2.Stocks P ∧ ∀ d, (q.pop owner now).1 = some d → P d.id d.payload := by
  rw [Queue.pop]
  split
  · exact ⟨h, fun _ none => by cases none⟩
  · rename_i m lanes taken
    have held := h m (mem_of_takeFromLanes (congrArg Prod.fst taken))
    have moved : Stocks P { q with
        lanes, nextToken := q.nextToken + 1, queued := q.queued - 1 } := h
    refine ⟨moved.modify m.id fun _ => ⟨rfl, rfl⟩, fun d found => ?_⟩
    obtain rfl := Option.some.inj found
    exact held

theorem Stocks.unpop (h : q.Stocks P) (id : String) (token : Nat) :
    (q.unpop id token).2.Stocks P := by
  rcases unpop_cases q id token with kept | ⟨m, owner, since, -, -, back⟩
  · rw [kept]
    exact h
  · rw [back]
    exact h.modify id fun _ => ⟨rfl, rfl⟩

theorem Stocks.ack (h : q.Stocks P) (id : String) (token : Nat) (requeue : Bool) (delay : Duration)
    (now : Instant) : (q.ack id token requeue delay now).2.Stocks P := by
  rcases ack_cases q id token requeue delay now with ⟨e, refused⟩ | ⟨m, owner, since, -, -, acked⟩
  · rw [refused]
    exact h
  · rw [acked]
    cases requeue with
    | false => exact h.remove id
    | true =>
      rw [settle_requeue]
      have home : (q.modify id fun m => { m with lane := m.priority }).Stocks P :=
        h.modify id fun _ => ⟨rfl, rfl⟩
      exact Stocks.enqueueAfter (q := count _ _) home id delay now

theorem Stocks.ackPop (h : q.Stocks P) (id : String) (token : Nat) (requeue : Bool)
    (delay : Duration) (owner : Nat) (now : Instant) :
    (q.ackPop id token requeue delay owner now).2.Stocks P ∧
      ∀ d, (q.ackPop id token requeue delay owner now).1 = .ok (some d) → P d.id d.payload := by
  have acked := h.ack id token requeue delay now
  rw [Queue.ackPop]
  split
  · rename_i e q' refused
    rw [refused] at acked
    exact ⟨acked, fun _ none => by cases none⟩
  · rename_i q' settled
    rw [settled] at acked
    obtain ⟨rest, found⟩ := acked.pop owner now
    exact ⟨rest, fun d taken => found d (Except.ok.inj taken)⟩

theorem Stocks.sweepIn (h : q.Stocks P) (order : VisitOrder) (now : Instant) :
    (q.sweepIn order now).2.Stocks P := by
  have waited : Stocks P { q with
      delayed := q.delayed.dropWhile fun a => decide (a.due ≤ now) } := h
  have promoted : (q.promoteDue now).2.Stocks P :=
    waited.tally (fun _ id h => h.promote id now) _
  have struck := promoted.tally (fun _ id h => h.recordFailure id now)
    (order.arrange ((q.promoteDue now).2.expired now))
  exact struck.tally (fun _ id h => h.boost id) _

theorem Stocks.releaseIn (h : q.Stocks P) (order : VisitOrder) (owner : Nat) (now : Instant) :
    (q.releaseIn order owner now).2.Stocks P :=
  h.tally (fun _ id h => h.recordFailure id now) _

private theorem Stocks.eraseOne (h : q.Stocks P) (id : String) : (q.eraseOne id).2.Stocks P := by
  rw [Queue.eraseOne]
  split_ifs
  · exact h.remove id
  · exact h

theorem Stocks.eraseFailed (h : q.Stocks P) (ids : List String) :
    (q.eraseFailed ids).2.Stocks P ∧ (q.eraseFailed ids).1.Sublist ids := by
  induction ids generalizing q with
  | nil => exact ⟨h, .slnil⟩
  | cons id rest ih =>
    obtain ⟨others, sub⟩ := ih (h.eraseOne id)
    rw [eraseFailed_cons]
    refine ⟨others, ?_⟩
    dsimp only
    split_ifs
    · exact sub.cons_cons id
    · exact sub.cons id

theorem Stocks.failedIds (h : q.Stocks P) (limit : Nat) :
    (q.failedIds limit).1.length ≤ limit ∧
      ∀ id ∈ (q.failedIds limit).1, ∃ payload, P id payload := by
  refine ⟨List.length_take_le limit _, fun id hid => ?_⟩
  have listed := List.mem_mergeSort.mp (List.mem_of_mem_take hid)
  obtain ⟨m, hm, rfl⟩ := List.mem_map.mp listed
  exact ⟨m.payload, h m (List.mem_filter.mp hm).1⟩

end Operations

end WorkBroker.Queue
