import WorkBroker.Proofs.Queue.History
import WorkBroker.Proofs.Queue.Loans
import Mathlib.Data.List.Induction
/-!
What a token is good for.  A settlement is accepted exactly when its token was given out for its
message and nothing has closed that loan since, so whether a token is valid can be read off the
history alone.  The invariant is that the open loans of a history are those that run in the queue it
leads to.
-/

set_option autoImplicit false
set_option relaxedAutoImplicit false

namespace WorkBroker

namespace QueueEvent

def loan? : QueueEvent → Option Loan
  | (.pop owner now, .popped (some d)) => some ⟨d.id, d.token, owner, now⟩
  | (.ackPop _ _ _ _ owner now, .ackPopped (.ok (some d))) => some ⟨d.id, d.token, owner, now⟩
  | _ => none

def settled? : QueueEvent → Option (String × Nat)
  | (.ack id token _ _ _, .acked (.ok _)) => some (id, token)
  | (.ackPop id token _ _ _ _, .ackPopped (.ok _)) => some (id, token)
  | _ => none

/-- Whether an event closes a loan: by settling it or putting it back, by releasing its owner, or by
a sweep that finds it open for too long. -/
def Closes (settings : QueueSettings) (l : Loan) : QueueEvent → Prop
  | (.unpop id token, .putBack true) => l.id = id ∧ l.token = token
  | (.release _ owner _, _) => l.owner = owner
  | (.sweep _ now, _) => ∃ timeout, settings.ackTimeout = some timeout ∧
      timeout.nanos ≤ (now.since l.since).nanos
  | e => e.settled? = some (l.id, l.token)

/-- Whether a loan was opened in the course of some events and has not been closed since. -/
def IsOpen (settings : QueueSettings) (events : List QueueEvent) (l : Loan) : Prop :=
  ∃ before e later, events = before ++ e :: later ∧ e.loan? = some l ∧
    ∀ e' ∈ later, ¬Closes settings l e'

private theorem isOpen_concat (settings : QueueSettings) (events : List QueueEvent) (e : QueueEvent)
    (l : Loan) :
    IsOpen settings (events ++ [e]) l ↔
      e.loan? = some l ∨ IsOpen settings events l ∧ ¬Closes settings l e := by
  constructor
  · rintro ⟨before, opening, later, split, opens, still⟩
    rcases List.eq_nil_or_concat later with rfl | ⟨later, last, rfl⟩
    · obtain ⟨-, same⟩ := List.append_inj' split rfl
      obtain rfl : e = opening := by simpa using same
      exact .inl opens
    · rw [List.concat_eq_append, ← List.cons_append, ← List.append_assoc] at split
      obtain ⟨rfl, same⟩ := List.append_inj' split rfl
      obtain rfl : e = last := by simpa using same
      refine .inr ⟨⟨before, opening, later, rfl, opens, fun e' he => still e' ?_⟩, still e ?_⟩
      · simp [he]
      · simp
  · rintro (opens | ⟨⟨before, opening, later, rfl, opens, still⟩, stays⟩)
    · exact ⟨events, e, [], rfl, opens, by simp⟩
    · refine ⟨before, opening, later ++ [e], by simp, opens, fun e' he => ?_⟩
      rcases List.mem_append.mp he with he | he
      · exact still e' he
      · obtain rfl := List.mem_singleton.mp he
        exact stays

private theorem closes_of_settled {settings : QueueSettings} {l : Loan} {e : QueueEvent}
    (h : e.settled? = some (l.id, l.token)) : Closes settings l e := by
  obtain ⟨op, outcome⟩ := e
  cases op <;> first | exact h | simp [settled?] at h

end QueueEvent

namespace Queue

variable {q : Queue} {id : String} {token : Nat} {l : Loan}

theorem ackPop_cases (q : Queue) (id : String) (token : Nat) (requeue : Bool) (delay : Duration)
    (owner : Nat) (now : Instant) :
    (∃ e, q.ack id token requeue delay now = (.error e, q) ∧
      q.ackPop id token requeue delay owner now = (.error e, q)) ∨
    ∃ r, q.ack id token requeue delay now = (.ok (), r) ∧
      q.ackPop id token requeue delay owner now =
        (.ok (r.pop owner now).1, (r.pop owner now).2) := by
  rcases ack_cases q id token requeue delay now with ⟨e, h⟩ | ⟨m, _, _, -, -, h⟩
  · exact .inl ⟨e, h, by simp only [ackPop, h]⟩
  · exact .inr ⟨_, h, by simp only [ackPop, h]⟩

private theorem runs_ackPop (hq : q.Coherent) (id : String) (token : Nat) (requeue : Bool)
    (delay : Duration) (owner : Nat) (now : Instant) (l : Loan) :
    (q.ackPop id token requeue delay owner now).2.Runs l ↔
      (∃ d, (q.ackPop id token requeue delay owner now).1 = .ok (some d) ∧
        l = ⟨d.id, d.token, owner, now⟩) ∨
      q.Runs l ∧ ¬((∃ d, (q.ackPop id token requeue delay owner now).1 = .ok d) ∧
        l.id = id ∧ l.token = token) := by
  have moves := moves_ack q id token requeue delay now
  have runs := runs_ack q id token requeue delay now l
  rcases ackPop_cases q id token requeue delay owner now with ⟨e, h, h'⟩ | ⟨r, h, h'⟩
  · simp [h']
  · rw [h] at moves runs
    rw [h', runs_pop (Moves.coherent moves hq), runs]
    simp

/-- A loan runs after an operation if the operation opened it, or if it ran before and the operation
did not close it. -/
theorem runs_apply (hq : q.Coherent) (op : Operation) (l : Loan) :
    (q.apply op).2.Runs l ↔
      QueueEvent.loan? (op, (q.apply op).1) = some l ∨
        q.Runs l ∧ ¬QueueEvent.Closes q.settings l (op, (q.apply op).1) := by
  cases op with
  | push id payload priority delay now =>
    refine (runs_push q id payload priority delay now l).trans ?_
    simp [QueueEvent.loan?, QueueEvent.Closes, QueueEvent.settled?]
  | pop owner now =>
    refine (runs_pop hq owner now l).trans ?_
    cases h : (q.pop owner now).1 <;>
      simp [apply, h, QueueEvent.loan?, QueueEvent.Closes, QueueEvent.settled?, eq_comm]
  | unpop id token =>
    refine (runs_unpop q id token l).trans ?_
    cases h : (q.unpop id token).1 <;>
      simp [apply, h, QueueEvent.loan?, QueueEvent.Closes, QueueEvent.settled?]
  | ack id token requeue delay now =>
    refine (runs_ack q id token requeue delay now l).trans ?_
    cases h : (q.ack id token requeue delay now).1 <;>
      simp [apply, h, QueueEvent.loan?, QueueEvent.Closes, QueueEvent.settled?, eq_comm]
  | ackPop id token requeue delay owner now =>
    refine (runs_ackPop hq id token requeue delay owner now l).trans ?_
    cases h : (q.ackPop id token requeue delay owner now).1 with
    | error e => simp [apply, h, QueueEvent.loan?, QueueEvent.Closes, QueueEvent.settled?]
    | ok d =>
      cases d <;>
        simp [apply, h, QueueEvent.loan?, QueueEvent.Closes, QueueEvent.settled?, eq_comm]
  | sweep order now =>
    refine (runs_sweepIn hq order now l).trans ?_
    simp [QueueEvent.loan?, QueueEvent.Closes]
  | release order owner now =>
    refine (runs_releaseIn hq order owner now l).trans ?_
    simp [QueueEvent.loan?, QueueEvent.Closes]
  | eraseFailed ids =>
    refine (runs_eraseFailed q ids l).trans ?_
    simp [QueueEvent.loan?, QueueEvent.Closes, QueueEvent.settled?]

private theorem runs_after_iff (settings : QueueSettings) (ops : List Operation) (l : Loan) :
    ((ofSettings settings).after ops).Runs l ↔
      QueueEvent.IsOpen settings ((ofSettings settings).history ops) l := by
  induction ops using List.reverseRecOn with
  | nil =>
    constructor
    · intro h
      obtain ⟨m, hm, -⟩ := runs_iff.mp h
      simp [after, ofSettings, find?] at hm
    · rintro ⟨before, e, later, split, -⟩
      simp [history] at split
  | append_singleton ops op ih =>
    -- One more event opens and closes the same loans on both sides.
    rw [after_concat, runs_apply (coherent_after settings ops), settings_after, ih, history_concat,
      QueueEvent.isOpen_concat]

section Law

theorem ack_ok_iff (q : Queue) (id : String) (token : Nat) (requeue : Bool) (delay : Duration)
    (now : Instant) :
    (q.ack id token requeue delay now).1 = .ok () ↔
      ∃ l, q.Runs l ∧ l.id = id ∧ l.token = token := by
  constructor
  · intro ok
    rcases ack_cases q id token requeue delay now with ⟨e, h⟩ | ⟨m, owner, since, hm, state, -⟩
    · simp [h] at ok
    · exact ⟨⟨id, token, owner, since⟩, runs_of_find? hm state, rfl, rfl⟩
  · rintro ⟨l, runs, rfl, rfl⟩
    obtain ⟨m, hm, state⟩ := runs_iff.mp runs
    rw [ack_eq hm state]

/-- Why a settlement is refused: the id is not held, its message is out under another token, or its
message is not out. -/
def Refusal (q : Queue) (id : String) (token : Nat) (e : QueueError) : Prop :=
  e = .unknownMessage id ∧ q.find? id = none ∨
    e = .invalidToken id ∧ (∃ l, q.Runs l ∧ l.id = id ∧ l.token ≠ token) ∨
    e = .invalidState id ∧ (q.find? id).isSome ∧ ∀ l, q.Runs l → l.id ≠ id

private theorem refusal_of_none (hm : q.find? id = none) {e : QueueError} :
    q.Refusal id token e ↔ e = .unknownMessage id := by
  constructor
  · rintro (⟨h, -⟩ | ⟨-, l, runs, same, -⟩ | ⟨-, held, -⟩)
    · exact h
    · exact absurd same (idle_of_none hm l runs)
    · simp [hm] at held
  · exact fun h => .inl ⟨h, hm⟩

private theorem refusal_of_runs {current owner : Nat} {since : Instant}
    (runs : q.Runs ⟨id, current, owner, since⟩) {e : QueueError} :
    q.Refusal id token e ↔ e = .invalidToken id ∧ current ≠ token := by
  constructor
  · rintro (⟨-, gone⟩ | ⟨h, l, out, same, other⟩ | ⟨-, -, idle⟩)
    · exact absurd rfl (idle_of_none gone _ runs)
    · rw [out.eq_of_id runs same] at other
      exact ⟨h, other⟩
    · exact absurd rfl (idle _ runs)
  · rintro ⟨h, other⟩
    exact .inr (.inl ⟨h, _, runs, rfl, other⟩)

private theorem refusal_of_idle {m : Message} (hm : q.find? id = some m) (idle : q.Idle id)
    {e : QueueError} : q.Refusal id token e ↔ e = .invalidState id := by
  constructor
  · rintro (⟨-, gone⟩ | ⟨-, l, runs, same, -⟩ | ⟨h, -⟩)
    · simp [hm] at gone
    · exact absurd same (idle l runs)
    · exact h
  · exact fun h => .inr (.inr ⟨h, by simp [hm], idle⟩)

theorem ack_error_iff (q : Queue) (id : String) (token : Nat) (requeue : Bool) (delay : Duration)
    (now : Instant) (e : QueueError) :
    (q.ack id token requeue delay now).1 = .error e ↔ q.Refusal id token e := by
  cases hm : q.find? id with
  | none =>
    rw [refusal_of_none hm]
    simp [ack, hm, eq_comm]
  | some m =>
    cases state : m.state with
    | running current owner since =>
      rw [refusal_of_runs (runs_of_find? hm state)]
      by_cases valid : current = token
      · subst valid
        simp [ack_eq hm state]
      · simp [ack, hm, state, valid, eq_comm]
    | queued =>
      rw [refusal_of_idle hm (idle_of_state hm (congrArg MessageState.token? state))]
      simp [ack, hm, state, eq_comm]
    | delayed =>
      rw [refusal_of_idle hm (idle_of_state hm (congrArg MessageState.token? state))]
      simp [ack, hm, state, eq_comm]
    | failed =>
      rw [refusal_of_idle hm (idle_of_state hm (congrArg MessageState.token? state))]
      simp [ack, hm, state, eq_comm]

private theorem ackPop_ok_iff (q : Queue) (id : String) (token : Nat) (requeue : Bool)
    (delay : Duration) (owner : Nat) (now : Instant) :
    (∃ d, (q.ackPop id token requeue delay owner now).1 = .ok d) ↔
      (q.ack id token requeue delay now).1 = .ok () := by
  obtain ⟨e, h, h'⟩ | ⟨r, h, h'⟩ := ackPop_cases q id token requeue delay owner now <;>
    simp [h, h']

theorem ackPop_error_iff (q : Queue) (id : String) (token : Nat) (requeue : Bool)
    (delay : Duration) (owner : Nat) (now : Instant) (e : QueueError) :
    (q.ackPop id token requeue delay owner now).1 = .error e ↔
      (q.ack id token requeue delay now).1 = .error e := by
  obtain ⟨e', h, h'⟩ | ⟨r, h, h'⟩ := ackPop_cases q id token requeue delay owner now <;>
    simp [h, h']

theorem runs_of_settled {op : Operation}
    (settled : QueueEvent.settled? (op, (q.apply op).1) = some (id, token)) :
    ∃ l, q.Runs l ∧ l.id = id ∧ l.token = token := by
  cases op with
  | ack id' token' requeue delay now =>
    have ok := ack_ok_iff q id' token' requeue delay now
    cases h : (q.ack id' token' requeue delay now).1 with
    | error e => simp [apply, h, QueueEvent.settled?] at settled
    | ok _ =>
      obtain ⟨rfl, rfl⟩ : id' = id ∧ token' = token := by
        simpa [apply, h, QueueEvent.settled?] using settled
      exact ok.mp h
  | ackPop id' token' requeue delay owner now =>
    have ok := (ackPop_ok_iff q id' token' requeue delay owner now).trans
      (ack_ok_iff q id' token' requeue delay now)
    cases h : (q.ackPop id' token' requeue delay owner now).1 with
    | error e => simp [apply, h, QueueEvent.settled?] at settled
    | ok d =>
      obtain ⟨rfl, rfl⟩ : id' = id ∧ token' = token := by
        simpa [apply, h, QueueEvent.settled?] using settled
      exact ok.mp ⟨d, h⟩
  | push _ _ _ _ _ => simp [QueueEvent.settled?] at settled
  | pop _ _ => simp [QueueEvent.settled?] at settled
  | unpop _ _ => simp [QueueEvent.settled?] at settled
  | sweep _ _ => simp [QueueEvent.settled?] at settled
  | release _ _ _ => simp [QueueEvent.settled?] at settled
  | eraseFailed _ => simp [QueueEvent.settled?] at settled

theorem token_of_pop (hq : q.Coherent) {owner : Nat} {now : Instant} {d : Delivery}
    (h : (q.pop owner now).1 = some d) : d.token = q.nextToken := by
  rcases hq.pop_cases owner now with ⟨-, -, none⟩ | ⟨m, -, -, -, -, some⟩
  · simp [none] at h
  · rw [some] at h
    exact congrArg Delivery.token (Option.some.inj h.symm)

private theorem nextToken_le_of_loan (hq : q.Coherent) {op : Operation}
    (opens : QueueEvent.loan? (op, (q.apply op).1) = some l) : q.nextToken ≤ l.token := by
  cases op with
  | pop owner now =>
    cases h : (q.pop owner now).1 with
    | none => simp [apply, h, QueueEvent.loan?] at opens
    | some d =>
      obtain rfl : Loan.mk d.id d.token owner now = l := by
        simpa [apply, h, QueueEvent.loan?] using opens
      exact Nat.le_of_eq (token_of_pop hq h).symm
  | ackPop id token requeue delay owner now =>
    have moves := moves_ack q id token requeue delay now
    rcases ackPop_cases q id token requeue delay owner now with ⟨e, -, h⟩ | ⟨r, acked, h⟩
    · simp [apply, h, QueueEvent.loan?] at opens
    · rw [acked] at moves
      cases popped : (r.pop owner now).1 with
      | none => simp [apply, h, popped, QueueEvent.loan?] at opens
      | some d =>
        obtain rfl : Loan.mk d.id d.token owner now = l := by
          simpa [apply, h, popped, QueueEvent.loan?] using opens
        have fresh := token_of_pop (Moves.coherent moves hq) popped
        exact fresh ▸ (Moves.follows moves hq).nextToken_le
  | push _ _ _ _ _ => simp [QueueEvent.loan?] at opens
  | unpop _ _ => simp [QueueEvent.loan?] at opens
  | ack _ _ _ _ _ => simp [QueueEvent.loan?] at opens
  | sweep _ _ => simp [QueueEvent.loan?] at opens
  | release _ _ _ => simp [QueueEvent.loan?] at opens
  | eraseFailed _ => simp [QueueEvent.loan?] at opens

/-- Whether a token was given out and is good for nothing any more. -/
structure Spent (q : Queue) (token : Nat) : Prop where
  given : token < q.nextToken
  closed : ∀ l, q.Runs l → l.token ≠ token

/-- A token that is spent stays spent. -/
theorem Spent.apply (s : q.Spent token) (hq : q.Coherent) (op : Operation) :
    (q.apply op).2.Spent token where
  given := Nat.lt_of_lt_of_le s.given ((moves_apply hq op).follows hq).nextToken_le
  closed l runs := by
    rcases (runs_apply hq op l).mp runs with opens | ⟨old, -⟩
    · exact Nat.ne_of_gt (Nat.lt_of_lt_of_le s.given (nextToken_le_of_loan hq opens))
    · exact s.closed l old

private theorem spent_of_settled (hq : q.Coherent) {op : Operation}
    (settled : QueueEvent.settled? (op, (q.apply op).1) = some (id, token)) :
    (q.apply op).2.Spent token := by
  obtain ⟨k, out, rfl, rfl⟩ := runs_of_settled settled
  have given := hq.token_lt _ out.mem_tokens
  refine ⟨Nat.lt_of_lt_of_le given ((moves_apply hq op).follows hq).nextToken_le, ?_⟩
  intro l runs same
  rcases (runs_apply hq op l).mp runs with opens | ⟨old, stays⟩
  · have fresh := nextToken_le_of_loan hq opens
    omega
  · obtain rfl := hq.loan_of_token old out same
    exact stays (QueueEvent.closes_of_settled settled)

def settledTokens (events : List QueueEvent) : List Nat :=
  events.filterMap fun e => e.settled?.map Prod.snd

private theorem settledTokens_after (settings : QueueSettings) (ops : List Operation) :
    (settledTokens ((ofSettings settings).history ops)).Nodup ∧
      ∀ t ∈ settledTokens ((ofSettings settings).history ops),
        ((ofSettings settings).after ops).Spent t := by
  induction ops using List.reverseRecOn with
  | nil => exact ⟨List.nodup_nil, fun t ht => absurd ht List.not_mem_nil⟩
  | append_singleton ops op ih =>
    obtain ⟨nodup, spent⟩ := ih
    -- Whatever was settled before is spent and stays so; what is settled now was still out.
    have hq := coherent_after settings ops
    have old : ∀ t ∈ settledTokens ((ofSettings settings).history ops),
        (((ofSettings settings).after ops).apply op).2.Spent t :=
      fun t ht => (spent t ht).apply hq op
    rw [after_concat, history_concat, settledTokens, List.filterMap_append, ← settledTokens]
    cases h : QueueEvent.settled? (op, (((ofSettings settings).after ops).apply op).1) with
    | none => simpa [h] using ⟨nodup, old⟩
    | some settled =>
      obtain ⟨id, token⟩ := settled
      have new := spent_of_settled hq h
      obtain ⟨k, out, -, rfl⟩ := runs_of_settled h
      simp only [List.filterMap_cons, h, Option.map_some, List.filterMap_nil]
      constructor
      · refine List.nodup_append.mpr ⟨nodup, List.nodup_singleton _, ?_⟩
        intro t ht u hu same
        rw [List.mem_singleton] at hu
        exact (spent t ht).closed k out (hu.symm.trans same.symm)
      · intro t ht
        rcases List.mem_append.mp ht with ht | ht
        · exact old t ht
        · rw [List.mem_singleton.mp ht]
          exact new

/-- In every history, a settlement is accepted exactly when an earlier pop returned its message
under its token and the loan has been open ever since; a refusal says what stands in the way, and no
token settles twice. -/
theorem token_law (settings : QueueSettings) (ops : List Operation) (id : String) (token : Nat) :
    (∀ requeue delay now,
      (((ofSettings settings).after ops).ack id token requeue delay now).1 = .ok () ↔
        ∃ l, QueueEvent.IsOpen settings ((ofSettings settings).history ops) l ∧
          l.id = id ∧ l.token = token) ∧
    (∀ requeue delay owner now,
      (∃ d, (((ofSettings settings).after ops).ackPop id token requeue delay owner now).1 = .ok d) ↔
        ∃ l, QueueEvent.IsOpen settings ((ofSettings settings).history ops) l ∧
          l.id = id ∧ l.token = token) ∧
    (∀ requeue delay now e,
      (((ofSettings settings).after ops).ack id token requeue delay now).1 = .error e ↔
        ((ofSettings settings).after ops).Refusal id token e) ∧
    (∀ requeue delay owner now e,
      (((ofSettings settings).after ops).ackPop id token requeue delay owner now).1 = .error e ↔
        ((ofSettings settings).after ops).Refusal id token e) ∧
    (settledTokens ((ofSettings settings).history ops)).Nodup := by
  have law : ∀ requeue delay now,
      (((ofSettings settings).after ops).ack id token requeue delay now).1 = .ok () ↔
        ∃ l, QueueEvent.IsOpen settings ((ofSettings settings).history ops) l ∧
          l.id = id ∧ l.token = token := by
    intro requeue delay now
    simp only [ack_ok_iff, runs_after_iff]
  refine ⟨law, ?_, ?_, ?_, (settledTokens_after settings ops).1⟩
  · intro requeue delay owner now
    exact (ackPop_ok_iff _ id token requeue delay owner now).trans (law requeue delay now)
  · intro requeue delay now e
    exact ack_error_iff _ id token requeue delay now e
  · intro requeue delay owner now e
    rw [ackPop_error_iff]
    exact ack_error_iff _ id token requeue delay now e

end Law

end Queue
end WorkBroker
