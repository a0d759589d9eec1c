import WorkBroker.Proofs.Queue.Agreement
import WorkBroker.Proofs.Queue.Order
/-!
What a pop takes.  It takes the front of the first lane that is not empty, marks this message and
leaves everything else alone (`Serves`), and it never meets an id in a lane that it would have to
drop.  So the lanes, put one behind the other, are the order in which messages go out, and pops with
nothing in between take a first part of it.
-/

set_option autoImplicit false
set_option relaxedAutoImplicit false

namespace WorkBroker.Queue

variable {q q' : Queue} {m : Message} {d : Delivery} {owner : Nat} {now : Instant}

/-- A pop hands out a message: the front of its lane, all lanes before that one being empty.  The
message is out under a new token, the rest of its lane moves up, and nothing else changes. -/
structure Serves (q : Queue) (owner : Nat) (now : Instant) (m : Message) (d : Delivery)
    (q' : Queue) : Prop where
  delivery : d = ⟨m.id, q.nextToken, m.failures + 1, m.payload⟩
  found : q.find? d.id = some m
  ready : m.state = .queued
  above : ∀ i < m.lane, q.lane i = []
  front : q.lane m.lane = d.id :: q'.lane m.lane
  others : ∀ i, i ≠ m.lane → q'.lane i = q.lane i
  marked : ∀ id, q'.find? id =
    if id = d.id then some { m with state := .running d.token owner now } else q.find? id
  ids : q'.ids = q.ids
  lanes_length : q'.lanes.length = q.lanes.length
  beside : q' = { q with
    lanes := q'.lanes
    messages := q'.messages
    queued := q.queued - 1
    nextToken := d.token + 1
    stats := { q.stats with delivered := q.stats.delivered + 1 } }

private theorem serves_taken (hm : q.find? m.id = some m) (state : m.state = .queued)
    (lane_lt : m.lane < q.lanes.length) (front : (q.lane m.lane).head? = some m.id)
    (above : ∀ i < m.lane, q.lane i = []) (owner : Nat) (now : Instant) :
    q.Serves owner now m ⟨m.id, q.nextToken, m.failures + 1, m.payload⟩ (q.taken m owner now) where
  delivery := rfl
  found := hm
  ready := state
  above := above
  front := by
    obtain ⟨rest, hrest⟩ := List.head?_eq_some_iff.mp front
    have moved : (q.taken m owner now).lane m.lane = (q.lane m.lane).tail :=
      getD_modify_of_lt List.tail lane_lt
    rw [moved, hrest, List.tail_cons]
  others i ne := getD_modify_of_ne List.tail (Ne.symm ne)
  marked := find?_taken hm owner now
  ids := ids_modify fun _ => rfl
  lanes_length := List.length_modify ..
  beside := rfl

private theorem flatten_modify_tail {lanes : List (List String)} {i : Nat} {id : String}
    (above : ∀ j < i, lanes.getD j [] = []) (front : (lanes.getD i []).head? = some id) :
    lanes.flatten = id :: (lanes.modify i List.tail).flatten := by
  induction lanes generalizing i with
  | nil => simp at front
  | cons l rest ih =>
    cases i with
    | zero =>
      obtain ⟨others, rfl⟩ : ∃ others, l = id :: others := List.head?_eq_some_iff.mp front
      rfl
    | succ i =>
      obtain rfl : l = [] := above 0 (Nat.succ_pos i)
      exact ih (fun j hj => above (j + 1) (Nat.succ_lt_succ hj)) front

namespace Coherent

theorem serves_pop (hq : q.Coherent) (owner : Nat) (now : Instant) :
    q.lanes.flatten = [] ∧ ¬q.hasReady ∧ q.pop owner now = (none, q) ∨
      ∃ m d, q.hasReady ∧ (q.pop owner now).1 = some d ∧
        q.Serves owner now m d (q.pop owner now).2 ∧
        q.lanes.flatten = d.id :: (q.pop owner now).2.lanes.flatten := by
  rcases hq.pop_cases owner now with ⟨-, zero, h⟩ | ⟨m, hm, state, front, above, h⟩
  · refine .inl ⟨List.length_eq_zero_iff.mp (hq.length_flatten.trans zero), ?_, h⟩
    simp [hasReady, zero]
  · have lane_lt := hq.lane_lt (mem_of_find? hm)
    have ready := hq.hasReady_iff.mpr ⟨m, mem_of_find? hm, state⟩
    rw [h]
    exact .inr ⟨m, _, ready, rfl, serves_taken hm state lane_lt front above owner now,
      flatten_modify_tail above front⟩

private theorem coherent_pop (hq : q.Coherent) (owner : Nat) (now : Instant) :
    (q.pop owner now).2.Coherent :=
  (moves_pop hq owner now).coherent hq

end Coherent

section Turns

/-- The ids of the messages that some pops take in turn, with nothing in between. -/
def takenBy (q : Queue) (pops : List (Nat × Instant)) : List String :=
  (q.history (pops.map fun p => .pop p.1 p.2)).filterMap fun e => e.delivery?.map (·.id)

theorem Coherent.takenBy_eq (hq : q.Coherent) (pops : List (Nat × Instant)) :
    q.takenBy pops = q.lanes.flatten.take pops.length := by
  induction pops generalizing q with
  | nil => rfl
  | cons p pops ih =>
    have rest := ih (hq.coherent_pop p.1 p.2)
    have first : q.takenBy (p :: pops) =
        ((q.pop p.1 p.2).1.map (·.id)).toList ++ (q.pop p.1 p.2).2.takenBy pops := by
      rw [takenBy, List.map_cons, history, List.filterMap_cons]
      cases h : (q.pop p.1 p.2).1 <;> simp [apply, h, QueueEvent.delivery?, takenBy]
    rw [first, rest]
    rcases hq.serves_pop p.1 p.2 with ⟨empty, -, h⟩ | ⟨m, d, -, h, -, split⟩
    · simp [h, empty]
    · simp [h, split]

private theorem sublist_take {l : List String} {a b : String} {n : Nat} (nodup : l.Nodup)
    (stand : [a, b].Sublist l) (taken : b ∈ l.take n) : [a, b].Sublist (l.take n) := by
  rw [← List.take_append_drop n l] at stand nodup
  obtain ⟨front, back, split, hfront, hback⟩ := List.sublist_append_iff.mp stand
  rcases List.eq_nil_or_concat back with rfl | ⟨back, last, rfl⟩
  · rw [List.append_nil] at split
    exact split ▸ hfront
  · obtain rfl : b = last := by
      have ends := congrArg List.getLast? split
      simpa using ends
    have left : b ∈ l.drop n := hback.subset (by simp)
    exact absurd rfl ((List.nodup_append.mp nodup).2.2 b taken b left)

/-- Of two messages in one lane, the one that stands ahead goes out first. -/
theorem Coherent.takenBy_sublist (hq : q.Coherent) {i : Nat} {a b : String}
    (stand : [a, b].Sublist (q.lane i)) {pops : List (Nat × Instant)} (out : b ∈ q.takenBy pops) :
    [a, b].Sublist (q.takenBy pops) := by
  rw [hq.takenBy_eq] at out ⊢
  refine sublist_take hq.nodup_flatten (stand.trans ?_) out
  by_cases hi : i < q.lanes.length
  · have held : q.lane i = q.lanes[i] := by simp [lane, hi]
    exact held ▸ List.sublist_flatten_of_mem (List.getElem_mem hi)
  · have empty : q.lane i = [] := by simp [lane, Nat.le_of_not_lt hi]
    exact empty ▸ List.nil_sublist _

end Turns

private theorem token_lt_nextToken (settings : QueueSettings) (ops : List Operation)
    {e : QueueEvent} (he : e ∈ (ofSettings settings).history ops) (given : e.delivery? = some d) :
    d.token < ((ofSettings settings).after ops).nextToken := by
  induction ops using List.reverseRecOn with
  | nil => exact absurd he List.not_mem_nil
  | append_singleton ops op ih =>
    have hq := coherent_after settings ops
    have moves := moves_apply hq op
    rw [after_concat]
    rw [history_concat] at he
    rcases List.mem_append.mp he with old | new
    · exact Nat.lt_of_lt_of_le (ih old) (moves.follows hq).nextToken_le
    · obtain rfl := List.mem_singleton.mp new
      obtain ⟨l, opens, -, token⟩ := QueueEvent.loan?_of_delivery? given
      have out := (runs_apply hq op l).mpr (.inl opens)
      exact token ▸ (moves.coherent hq).token_lt _ out.mem_tokens

/-- In every state that a queue can reach, a pop gives a message exactly when the counter says that
one is ready.  It serves the front of the first lane that is not empty, under a token above all that
were ever given out; every id in a lane names a ready message, so the pop takes this one id off the
lanes and drops none; and if it gives nothing, it changes nothing. -/
theorem pop_serves_the_front (settings : QueueSettings) (ops : List Operation) (owner : Nat)
    (now : Instant) :
    let q := (ofSettings settings).after ops
    let r := q.pop owner now
    (r.1.isSome ↔ q.hasReady) ∧
      (∀ d, r.1 = some d → (∃ m, q.Serves owner now m d r.2) ∧
        ∀ e ∈ (ofSettings settings).history ops, ∀ earlier, e.delivery? = some earlier →
          earlier.token < d.token) ∧
      (r.1 = none → r.2 = q) ∧
      (∀ id ∈ q.lanes.flatten, ∃ m, q.find? id = some m ∧ m.state = .queued) ∧
      q.lanes.flatten = (r.1.map (·.id)).toList ++ r.2.lanes.flatten := by
  intro q r
  have hq : q.Coherent := coherent_after settings ops
  have ready := fun id => (hq.mem_flatten_iff id).mp
  rcases hq.serves_pop owner now with ⟨empty, idle, h⟩ | ⟨m, d, some_ready, h, serves, split⟩
  · have gives : r = (none, q) := h
    simp [gives, idle, empty]
  · have gives : r.1 = some d := h
    refine ⟨by simp [gives, some_ready], ?_, by simp [gives], ready, by simpa [gives] using split⟩
    intro d' hd
    obtain rfl : d = d' := Option.some.inj (gives.symm.trans hd)
    refine ⟨⟨m, serves⟩, fun e he earlier given => ?_⟩
    have token : d.token = q.nextToken := by rw [serves.delivery]
    exact token ▸ token_lt_nextToken settings ops he given

end WorkBroker.Queue
