import WorkBroker.Proofs.Queue.Moves
/-!
Histories of a queue.  An operation is what can be asked of a queue, an event is an operation
together with its outcome, and a history is what happened when a list of operations was carried out
in turn. Every state that a history leads to is coherent.
-/

set_option autoImplicit false
set_option relaxedAutoImplicit false

namespace WorkBroker

inductive Operation
  | push (id : String) (payload : Bytes) (priority : Nat) (delay : Duration) (now : Instant)
  | pop (owner : Nat) (now : Instant)
  | unpop (id : String) (token : Nat)
  | ack (id : String) (token : Nat) (requeue : Bool) (delay : Duration) (now : Instant)
  | ackPop (id : String) (token : Nat) (requeue : Bool) (delay : Duration) (owner : Nat)
      (now : Instant)
  | sweep (order : VisitOrder) (now : Instant)
  | release (order : VisitOrder) (owner : Nat) (now : Instant)
  | eraseFailed (ids : List String)

inductive QueueOutcome
  | pushed (result : Except QueueError Unit)
  | popped (delivery : Option Delivery)
  | putBack (done : Bool)
  | acked (result : Except QueueError Unit)
  | ackPopped (result : Except QueueError (Option Delivery))
  | swept (report : SweepReport)
  | released (count : Nat)
  | erased (ids : List String)

/-- An operation and what came of it. -/
abbrev QueueEvent := Operation × QueueOutcome

namespace Queue

def apply (q : Queue) : Operation → QueueOutcome × Queue
  | .push id payload priority delay now =>
    let (result, q) := q.push id payload priority delay now
    (.pushed result, q)
  | .pop owner now =>
    let (delivery, q) := q.pop owner now
    (.popped delivery, q)
  | .unpop id token =>
    let (done, q) := q.unpop id token
    (.putBack done, q)
  | .ack id token requeue delay now =>
    let (result, q) := q.ack id token requeue delay now
    (.acked result, q)
  | .ackPop id token requeue delay owner now =>
    let (result, q) := q.ackPop id token requeue delay owner now
    (.ackPopped result, q)
  | .sweep order now =>
    let (report, q) := q.sweepIn order now
    (.swept report, q)
  | .release order owner now =>
    let (count, q) := q.releaseIn order owner now
    (.released count, q)
  | .eraseFailed ids =>
    let (erased, q) := q.eraseFailed ids
    (.erased erased, q)

def after (q : Queue) (ops : List Operation) : Queue := ops.foldl (fun q op => (q.apply op).2) q

def history (q : Queue) : List Operation → List QueueEvent
  | [] => []
  | op :: ops => (op, (q.apply op).1) :: history (q.apply op).2 ops

theorem after_append (q : Queue) (ops more : List Operation) :
    q.after (ops ++ more) = (q.after ops).after more :=
  List.foldl_append

theorem after_concat (q : Queue) (ops : List Operation) (op : Operation) :
    q.after (ops ++ [op]) = ((q.after ops).apply op).2 :=
  after_append q ops [op]

theorem history_append (q : Queue) (ops more : List Operation) :
    q.history (ops ++ more) = q.history ops ++ (q.after ops).history more := by
  induction ops generalizing q with
  | nil => rfl
  | cons op ops ih => exact congrArg _ (ih _)

theorem history_concat (q : Queue) (ops : List Operation) (op : Operation) :
    q.history (ops ++ [op]) = q.history ops ++ [(op, ((q.after ops).apply op).1)] :=
  history_append q ops [op]

/-- Every operation is a sequence of moves. -/
theorem moves_apply {q : Queue} (hq : q.Coherent) (op : Operation) : Moves q (q.apply op).2 := by
  cases op with
  | push id payload priority delay now => exact moves_push q id payload priority delay now
  | pop owner now => exact moves_pop hq owner now
  | unpop id token => exact moves_unpop q id token
  | ack id token requeue delay now => exact moves_ack q id token requeue delay now
  | ackPop id token requeue delay owner now =>
    exact moves_ackPop hq id token requeue delay owner now
  | sweep order now => exact moves_sweepIn hq order now
  | release order owner now => exact moves_releaseIn hq order owner now
  | eraseFailed ids => exact moves_eraseFailed q ids

theorem moves_after {q : Queue} (hq : q.Coherent) (ops : List Operation) :
    Moves q (q.after ops) := by
  induction ops generalizing q with
  | nil => exact .refl
  | cons op ops ih =>
    have first := moves_apply hq op
    exact first.trans (ih (first.coherent hq))

theorem coherent_ofSettings (settings : QueueSettings) : (ofSettings settings).Coherent where
  nodup_ids := List.nodup_nil
  count_lane i id := by
    have empty : (ofSettings settings).lane i = [] := by
      simp only [lane, ofSettings, List.getD_eq_getElem?_getD, List.getElem?_replicate]
      split_ifs <;> rfl
    rw [empty]
    rfl
  count_delayed id := rfl
  sorted_delayed := List.Pairwise.nil
  nodup_numbers := List.nodup_nil
  number_lt a ha := absurd ha List.not_mem_nil
  queued_eq := rfl
  failed_eq := rfl
  nodup_tokens := List.nodup_nil
  token_lt t ht := absurd ht List.not_mem_nil
  lane_home m hm := absurd hm List.not_mem_nil
  priority_lt m hm := absurd hm List.not_mem_nil

/-- Every state that a queue can reach is coherent. -/
theorem coherent_after (settings : QueueSettings) (ops : List Operation) :
    ((ofSettings settings).after ops).Coherent :=
  (moves_after (coherent_ofSettings settings) ops).coherent (coherent_ofSettings settings)

theorem settings_after (settings : QueueSettings) (ops : List Operation) :
    ((ofSettings settings).after ops).settings = settings :=
  have hq := coherent_ofSettings settings
  ((moves_after hq ops).follows hq).settings_eq

end Queue
end WorkBroker
