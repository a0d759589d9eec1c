import WorkBroker.Proofs.Hub.Line
import WorkBroker.Proofs.Queue.Dossier
/-!
What the hub does to its queue in a turn, written down deed by deed.  The hub pops only when it
looks for a message for a call, and what the call does not take it puts back at once.  From a
faithful record of such deeds the queue can be rebuilt, and so can the fate of every delivery: one
that is put back leaves no trace but a token, and one that is taken is out until it is settled or
counted as a failed attempt.
-/

set_option autoImplicit false
set_option relaxedAutoImplicit false

namespace WorkBroker

/-- What a look for a message was like: for whom it was and when, whether the consumer would rather
stand in line than be told that nothing is ready, what was found, and whether the call would take
it. -/
structure Look where
  waiter : Waiter
  now : Instant
  stays : Bool
  found : Option Delivery
  taken : Bool
  deriving DecidableEq, Repr

namespace Look

def into (q : Queue) (r : Receivers) (w : Waiter) (now : Instant) (stays : Bool) : Look :=
  ⟨w, now, stays, (q.pop w.owner now).1, r.accepts w.call⟩

def operations (x : Look) : List Operation :=
  .pop x.waiter.owner x.now ::
    match x.found with
    | some d => if x.taken then [] else [.unpop d.id d.token]
    | none => []

def replies (x : Look) : List Reply :=
  match x.found with
  | some d => if x.taken then [(x.waiter.call, .delivery (some d))] else []
  | none => if x.stays then [] else [(x.waiter.call, .delivery none)]

/-- The loan that a look opens. -/
def loan? (x : Look) : Option Loan :=
  x.found.map fun d => ⟨d.id, d.token, x.waiter.owner, x.now⟩

section Cases

variable {x : Look} {d : Delivery}

theorem operations_of_nothing (h : x.found = none) :
    x.operations = [.pop x.waiter.owner x.now] := by
  rw [operations, h]

theorem operations_of_taken (h : x.found = some d) (taken : x.taken = true) :
    x.operations = [.pop x.waiter.owner x.now] := by
  rw [operations, h, taken]
  rfl

theorem operations_of_untaken (h : x.found = some d) (taken : x.taken = false) :
    x.operations = [.pop x.waiter.owner x.now, .unpop d.id d.token] := by
  rw [operations, h, taken]
  rfl

theorem replies_of_taken (h : x.found = some d) (taken : x.taken = true) :
    x.replies = [(x.waiter.call, .delivery (some d))] := by
  rw [replies, h, taken]
  rfl

theorem replies_of_nothing (h : x.found = none) :
    x.replies = if x.stays then [] else [(x.waiter.call, .delivery none)] := by
  rw [replies, h]

theorem of_mem_replies {call : Nat} {a : Option Delivery} (h : (call, .delivery a) ∈ x.replies) :
    x.waiter.call = call ∧ x.found = a ∧ (a.isSome → x.taken) ∧ (a = none → x.stays = false) := by
  rw [replies] at h
  split at h <;> split_ifs at h <;> simp_all

end Cases

theorem call_of_mem_replies {x : Look} {reply : Reply} (h : reply ∈ x.replies) :
    reply.1 = x.waiter.call := by
  rw [replies] at h
  split at h <;> split_ifs at h <;> simp_all

end Look

/-- What the hub does to its queue: it looks for a message, or carries out some other operation. -/
inductive Deed
  | look (x : Look)
  | other (op : Operation)

/-- Whether an operation neither takes a message nor puts one back. -/
def Operation.isPlain : Operation → Bool
  | .pop .. | .unpop .. | .ackPop .. => false
  | _ => true

namespace Deed

def operations : Deed → List Operation
  | .look x => x.operations
  | .other op => [op]

def look? : Deed → Option Look
  | .look x => some x
  | .other _ => none

end Deed

def operationsOf (deeds : List Deed) : List Operation := deeds.flatMap (·.operations)

def looksOf (deeds : List Deed) : List Look := deeds.filterMap (·.look?)

section Lists

variable {deeds more : List Deed} {x : Look}

theorem operationsOf_append (deeds more : List Deed) :
    operationsOf (deeds ++ more) = operationsOf deeds ++ operationsOf more :=
  List.flatMap_append

theorem looksOf_append (deeds more : List Deed) :
    looksOf (deeds ++ more) = looksOf deeds ++ looksOf more :=
  List.filterMap_append

theorem operationsOf_looks (looks : List Look) :
    operationsOf (looks.map .look) = looks.flatMap (·.operations) :=
  List.flatMap_map ..

theorem looksOf_looks (looks : List Look) : looksOf (looks.map .look) = looks := by
  rw [looksOf, List.filterMap_map]
  exact List.filterMap_some

theorem mem_looksOf_iff : x ∈ looksOf deeds ↔ .look x ∈ deeds := by
  rw [looksOf, List.mem_filterMap]
  constructor
  · rintro ⟨deed, h, e⟩
    cases deed with
    | look y => exact Option.some.inj e ▸ h
    | other op => cases e
  · exact fun h => ⟨_, h, rfl⟩

end Lists

namespace Queue

variable {q : Queue} {l : Loan}

section Fates

private theorem unpop_pop (hq : q.Coherent) {owner : Nat} {now : Instant} {d : Delivery}
    (popped : (q.pop owner now).1 = some d) :
    ((q.pop owner now).2.unpop d.id d.token).2 = { q with nextToken := q.nextToken + 1 } := by
  rcases hq.pop_cases owner now with ⟨-, -, h⟩ | ⟨m, hm, state, front, -, h⟩
  · simp [h] at popped
  · rw [h] at popped
    obtain rfl := Option.some.inj popped
    rw [h, hq.unpop_taken hm state front]

/-- Whether the message of an id is put back where it came from: the queue is as it was, but for a
token that is used up, and the message stands ready at the front of its lane. -/
def PutBack (q : Queue) (id : String) (q' : Queue) : Prop :=
  q' = { q with nextToken := q.nextToken + 1 } ∧
    ∃ m, q'.find? id = some m ∧ m.state = .queued ∧ (q'.lane m.lane).head? = some id

private theorem putBack_pop (hq : q.Coherent) {owner : Nat} {now : Instant} {d : Delivery}
    (popped : (q.pop owner now).1 = some d) :
    q.PutBack d.id ((q.pop owner now).2.unpop d.id d.token).2 := by
  refine ⟨unpop_pop hq popped, ?_⟩
  rw [unpop_pop hq popped]
  rcases hq.pop_cases owner now with ⟨-, -, h⟩ | ⟨m, hm, state, front, -, h⟩
  · simp [h] at popped
  · rw [h] at popped
    obtain rfl := Option.some.inj popped
    exact ⟨m, hm, state, front⟩

private theorem runs_after (hq : q.Coherent) (runs : q.Runs l) (ops : List Operation) :
    (q.after ops).Runs l ∨ ∃ e ∈ q.history ops, QueueEvent.Closes q.settings l e := by
  induction ops generalizing q with
  | nil => exact .inl runs
  | cons op ops ih =>
    have moves := moves_apply hq op
    by_cases closes : QueueEvent.Closes q.settings l (op, (q.apply op).1)
    · exact .inr ⟨_, List.mem_cons_self, closes⟩
    · have still := (runs_apply hq op l).mpr (.inr ⟨runs, closes⟩)
      rcases ih (moves.coherent hq) still with h | ⟨e, he, h⟩
      · exact .inl h
      · rw [(moves.follows hq).settings_eq] at h
        exact .inr ⟨e, List.mem_cons_of_mem _ he, h⟩

/-- Whether a loan is open in a queue and is left to run in the course of some operations: it stays
open until it is settled or counted as a failed attempt, and is never put back. -/
structure LeftOut (q : Queue) (l : Loan) (ops : List Operation) : Prop where
  runs : q.Runs l
  stays : (q.after ops).Runs l ∨ ∃ e ∈ q.history ops, e.strikes q.settings l ∨ e.settles l
  never : ∀ e ∈ q.history ops, ¬e.putsBack l

private theorem leftOut_of_never (hq : q.Coherent) (runs : q.Runs l) {ops : List Operation}
    (never : ∀ e ∈ q.history ops, ¬e.putsBack l) : q.LeftOut l ops where
  runs := runs
  stays := by
    refine (runs_after hq runs ops).imp_right ?_
    rintro ⟨e, he, closes⟩
    rcases QueueEvent.closes_iff.mp closes with strikes | settles | back
    · exact ⟨e, he, .inl strikes⟩
    · exact ⟨e, he, .inr settles⟩
    · exact absurd back (never e he)
  never := never

end Fates

section Faithful

variable {deeds more before later : List Deed} {x : Look} {d : Delivery}

/-- Whether some deeds tell what happens to a queue: what the looks say was found is what a pop
gives, and all other operations are plain. -/
def Faithful (q : Queue) : List Deed → Prop
  | [] => True
  | .look x :: rest =>
    x.found = (q.pop x.waiter.owner x.now).1 ∧ Faithful (q.after x.operations) rest
  | .other op :: rest => op.isPlain ∧ Faithful (q.apply op).2 rest

theorem faithful_append :
    q.Faithful (deeds ++ more) ↔
      q.Faithful deeds ∧ (q.after (operationsOf deeds)).Faithful more := by
  induction deeds generalizing q with
  | nil => exact (true_and _).to_iff.symm
  | cons deed deeds ih =>
    rw [operationsOf, List.flatMap_cons, after_append]
    cases deed with
    | look x => simp only [List.cons_append, Faithful, ih, and_assoc]; rfl
    | other op => simp only [List.cons_append, Faithful, ih, and_assoc]; rfl

theorem loans_of_faithful (f : q.Faithful deeds) :
    (q.history (operationsOf deeds)).filterMap QueueEvent.loan? =
      (looksOf deeds).filterMap Look.loan? := by
  induction deeds generalizing q with
  | nil => rfl
  | cons deed deeds ih =>
    rw [operationsOf, List.flatMap_cons, history_append, List.filterMap_append]
    cases deed with
    | look x =>
      obtain ⟨found, f⟩ := f
      have here : (q.history x.operations).filterMap QueueEvent.loan? = x.loan?.toList := by
        cases h : x.found with
        | none =>
          simp [x.operations_of_nothing h, history, apply, ← found, h, QueueEvent.loan?, Look.loan?]
        | some d =>
          cases taken : x.taken with
          | true =>
            simp [x.operations_of_taken h taken, history, apply, ← found, h, QueueEvent.loan?,
              Look.loan?]
          | false =>
            simp [x.operations_of_untaken h taken, history, apply, ← found, h, QueueEvent.loan?,
              Look.loan?]
      refine (congrArg₂ _ here (ih f)).trans ?_
      show x.loan?.toList ++ _ = (x :: looksOf deeds).filterMap Look.loan?
      cases h : x.loan? <;> simp [h]
    | other op =>
      obtain ⟨plain, f⟩ := f
      have here : (q.history [op]).filterMap QueueEvent.loan? = [] := by
        cases op <;> first | rfl | simp [Operation.isPlain] at plain
      exact congrArg₂ _ here (ih f)

/-- Whatever is put back was popped just before, so a token from before is never put back. -/
theorem not_putsBack (hq : q.Coherent) (f : q.Faithful deeds) (old : l.token < q.nextToken) :
    ∀ e ∈ q.history (operationsOf deeds), ¬e.putsBack l := by
  induction deeds generalizing q with
  | nil => exact fun e he => absurd he List.not_mem_nil
  | cons deed deeds ih =>
    have moves := moves_after hq deed.operations
    have older := Nat.lt_of_lt_of_le old (moves.follows hq).nextToken_le
    intro e he
    rw [operationsOf, List.flatMap_cons, history_append, List.mem_append] at he
    cases deed with
    | look x =>
      obtain ⟨found, f⟩ := f
      refine he.elim (fun he => ?_) (ih (moves.coherent hq) f older e)
      have popped : ∀ outcome, ¬QueueEvent.putsBack l (.pop x.waiter.owner x.now, outcome) :=
        fun outcome => by simp [QueueEvent.putsBack]
      rw [Deed.operations] at he
      cases h : x.found with
      | none =>
        rw [x.operations_of_nothing h] at he
        exact List.mem_singleton.mp he ▸ popped _
      | some d =>
        cases taken : x.taken with
        | true =>
          rw [x.operations_of_taken h taken] at he
          exact List.mem_singleton.mp he ▸ popped _
        | false =>
          rw [x.operations_of_untaken h taken] at he
          rcases List.mem_cons.mp he with rfl | he
          · exact popped _
          · -- The token that is put back is the one that the pop has just given out.
            have fresh := token_of_pop hq (found.symm.trans h)
            have ne : l.token ≠ d.token := by omega
            rw [List.mem_singleton.mp he]
            intro back
            simp only [QueueEvent.putsBack] at back
            split at back <;> simp_all
    | other op =>
      obtain ⟨plain, f⟩ := f
      refine he.elim (fun he => ?_) (ih (moves.coherent hq) f older e)
      rw [List.mem_singleton.mp he]
      cases op <;> simp_all [QueueEvent.putsBack, Operation.isPlain]

private theorem found_of_faithful (f : q.Faithful (before ++ .look x :: later)) :
    x.found = ((q.after (operationsOf before)).pop x.waiter.owner x.now).1 :=
  (faithful_append.mp f).2.1

section Looks

variable (hq : q.Coherent) (f : q.Faithful (before ++ .look x :: later))
include hq f

theorem not_ready_of_nothing (nothing : x.found = none) :
    ∀ m ∈ (q.after (operationsOf before)).messages, m.state ≠ .queued := by
  intro m hm state
  have h := (moves_after hq (operationsOf before)).coherent hq
  have ready := h.hasReady_iff.mpr ⟨m, hm, state⟩
  obtain ⟨d, _, popped⟩ := h.pop_of_hasReady ready x.waiter.owner x.now
  rw [found_of_faithful f, popped] at nothing
  simp at nothing

theorem putBack_of_untaken (found : x.found = some d) (untaken : x.taken = false) :
    (q.after (operationsOf before)).PutBack d.id
      ((q.after (operationsOf before)).after x.operations) := by
  rw [x.operations_of_untaken found untaken]
  have h := (moves_after hq (operationsOf before)).coherent hq
  exact putBack_pop h ((found_of_faithful f).symm.trans found)

theorem leftOut_of_taken (found : x.found = some d) (taken : x.taken = true) :
    ((q.after (operationsOf before)).after x.operations).LeftOut
      ⟨d.id, d.token, x.waiter.owner, x.now⟩ (operationsOf later) := by
  have h := (moves_after hq (operationsOf before)).coherent hq
  have after := (moves_after h x.operations).coherent h
  have popped := (found_of_faithful f).symm.trans found
  have runs : ((q.after (operationsOf before)).after x.operations).Runs
      ⟨d.id, d.token, x.waiter.owner, x.now⟩ := by
    rw [x.operations_of_taken found taken]
    exact (runs_pop h x.waiter.owner x.now _).mpr (.inl ⟨d, popped, rfl⟩)
  exact leftOut_of_never after runs
    (not_putsBack after (faithful_append.mp f).2.2 (after.token_lt _ runs.mem_tokens))

end Looks

end Faithful

end Queue
end WorkBroker
