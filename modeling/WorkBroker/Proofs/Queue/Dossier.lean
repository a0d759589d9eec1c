import WorkBroker.Proofs.Queue.Tokens
/-!
What a history says of one id.  A dossier is written event by event, from operations and their
outcomes alone, without a look at the queue: the payload that was last accepted under the id, how
many of its deliveries have failed since, which delivery is out, and when the message last joined
the end of a lane.  The first thing to know is that the delivery which is out by the dossier is the
one that runs in the queue.
-/

set_option autoImplicit false
set_option relaxedAutoImplicit false

namespace WorkBroker

def Operation.time? : Operation → Option Instant
  | .push _ _ _ _ now => some now
  | .pop _ now => some now
  | .unpop _ _ => none
  | .ack _ _ _ _ now => some now
  | .ackPop _ _ _ _ _ now => some now
  | .sweep _ now => some now
  | .release _ _ now => some now
  | .eraseFailed _ => none

namespace QueueEvent

def delivery? : QueueEvent → Option Delivery
  | (.pop _ _, .popped d) => d
  | (.ackPop _ _ _ _ _ _, .ackPopped (.ok d)) => d
  | _ => none

theorem loan?_of_delivery? {e : QueueEvent} {d : Delivery} (h : e.delivery? = some d) :
    ∃ l, e.loan? = some l ∧ l.id = d.id ∧ l.token = d.token := by
  obtain ⟨op, outcome⟩ := e
  cases op with
  | pop owner now =>
    cases outcome with
    | popped delivery =>
      obtain rfl : delivery = some d := h
      exact ⟨_, rfl, rfl, rfl⟩
    | _ => simp [delivery?] at h
  | ackPop id token requeue delay owner now =>
    cases outcome with
    | ackPopped result =>
      cases result with
      | error e => simp [delivery?] at h
      | ok delivery =>
        obtain rfl : delivery = some d := h
        exact ⟨_, rfl, rfl, rfl⟩
    | _ => simp [delivery?] at h
  | _ => simp [delivery?] at h

def accepted? (id : String) : QueueEvent → Option Bytes
  | (.push id' payload _ _ _, .pushed (.ok _)) => if id' = id then some payload else none
  | _ => none

/-- Whether an event counts a loan as a failed attempt: a sweep does that finds it open for too
long, and a release of its owner. -/
def strikes (settings : QueueSettings) (l : Loan) : QueueEvent → Bool
  | (.sweep _ now, _) =>
    settings.ackTimeout.any fun timeout => timeout.nanos ≤ (now.since l.since).nanos
  | (.release _ owner _, _) => l.owner == owner
  | _ => false

def putsBack (l : Loan) : QueueEvent → Bool
  | (.unpop id token, .putBack true) => l.id == id && l.token == token
  | _ => false

def settles (l : Loan) (e : QueueEvent) : Bool := e.settled? == some (l.id, l.token)

theorem closes_iff {settings : QueueSettings} {l : Loan} {e : QueueEvent} :
    Closes settings l e ↔ e.strikes settings l ∨ e.settles l ∨ e.putsBack l := by
  obtain ⟨op, outcome⟩ := e
  cases op with
  | unpop id token =>
    cases outcome with
    | putBack done => cases done <;> simp [Closes, strikes, settles, settled?, putsBack]
    | _ => simp [Closes, strikes, settles, settled?, putsBack]
  | sweep order now =>
    cases h : settings.ackTimeout <;> simp [Closes, strikes, settles, settled?, putsBack, h]
  | release order owner now => simp [Closes, strikes, settles, settled?, putsBack]
  | _ => simp [Closes, strikes, settles, putsBack]

/-- The moment at which the messages that an event makes ready join the end of a lane; there is none
if they are delayed first. -/
def placed? : QueueEvent → Option Instant
  | (.push _ _ _ delay now, _) => if delay.isZero then some now else none
  | (.ack _ _ requeue delay now, _) => if requeue && delay.isZero then some now else none
  | (.ackPop _ _ requeue delay _ now, _) => if requeue && delay.isZero then some now else none
  | (.sweep _ now, _) => some now
  | (.release _ _ now, _) => some now
  | _ => none

end QueueEvent

/-- What a history says of one id: the payload that was last taken in under it, the failed attempts
since, the delivery that is out and, for a message that is ready, the moment at which it joined the
end of a lane, unless it was delayed. -/
structure Dossier where
  payload : Option Bytes := none
  strikes : Nat := 0
  loan : Option Loan := none
  placed : Option Instant := none
  deriving DecidableEq, Repr

namespace Dossier

def close (settings : QueueSettings) (r : Dossier) (e : QueueEvent) : Dossier :=
  match r.loan with
  | none => r
  | some l =>
    if e.strikes settings l then
      { r with strikes := r.strikes + 1, loan := none, placed := e.placed? }
    else if e.settles l then { r with loan := none, placed := e.placed? }
    else if e.putsBack l then { r with loan := none }
    else r

def note (settings : QueueSettings) (id : String) (r : Dossier) (e : QueueEvent) : Dossier :=
  match e.accepted? id with
  | some payload => { payload := some payload, placed := e.placed? }
  | none =>
    match e.loan?.filter (·.id == id) with
    | some l => { r.close settings e with loan := some l }
    | none => r.close settings e

def ofHistory (settings : QueueSettings) (id : String) (events : List QueueEvent) : Dossier :=
  events.foldl (note settings id) {}

theorem ofHistory_concat (settings : QueueSettings) (id : String) (events : List QueueEvent)
    (e : QueueEvent) :
    ofHistory settings id (events ++ [e]) = (ofHistory settings id events).note settings id e :=
  List.foldl_append

section Notes

variable {settings : QueueSettings} {id : String} {r : Dossier} {e : QueueEvent} {l : Loan}

theorem close_of_none (h : r.loan = none) : r.close settings e = r := by
  simp only [close, h]

theorem close_of_strikes (h : r.loan = some l) (strikes : e.strikes settings l) :
    r.close settings e =
      { r with strikes := r.strikes + 1, loan := none, placed := e.placed? } := by
  simp only [close, h, strikes, if_true]

theorem strikes_close_of_not (h : ∀ l, r.loan = some l → ¬e.strikes settings l) :
    (r.close settings e).strikes = r.strikes := by
  cases hl : r.loan with
  | none => rw [close_of_none hl]
  | some l =>
    simp only [close, hl, h l hl, Bool.false_eq_true, if_false]
    split_ifs <;> rfl

private theorem payload_close : (r.close settings e).payload = r.payload := by
  rw [close]
  split
  · rfl
  · split_ifs <;> rfl

private theorem loan_close_eq_some_iff :
    (r.close settings e).loan = some l ↔ r.loan = some l ∧ ¬QueueEvent.Closes settings l e := by
  rw [QueueEvent.closes_iff]
  cases hl : r.loan with
  | none => simp [close, hl]
  | some k =>
    simp only [close, hl, Option.some.injEq]
    split_ifs with strikes settles putsBack
    · simp only [false_iff]
      rintro ⟨rfl, still⟩
      exact still (.inl strikes)
    · simp only [false_iff]
      rintro ⟨rfl, still⟩
      exact still (.inr (.inl settles))
    · simp only [false_iff]
      rintro ⟨rfl, still⟩
      exact still (.inr (.inr putsBack))
    · rw [hl, Option.some.injEq]
      constructor
      · rintro rfl
        exact ⟨rfl, by simp [strikes, settles, putsBack]⟩
      · exact And.left

theorem note_of_accepted {payload : Bytes} (h : e.accepted? id = some payload) :
    r.note settings id e = { payload := some payload, placed := e.placed? } := by
  simp only [note, h]

private theorem note_of_loan (h : e.accepted? id = none) (opens : e.loan? = some l)
    (here : l.id = id) :
    r.note settings id e = { r.close settings e with loan := some l } := by
  have kept : e.loan?.filter (·.id == id) = some l := by
    rw [opens, Option.filter_eq_some_iff]
    exact ⟨rfl, by simpa using here⟩
  simp only [note, h, kept]

private theorem note_of_no_loan (h : e.accepted? id = none)
    (none : ∀ l, e.loan? = some l → l.id ≠ id) :
    r.note settings id e = r.close settings e := by
  have filtered : e.loan?.filter (·.id == id) = Option.none := by
    rw [Option.filter_eq_none_iff]
    intro l hl
    simpa using none l hl
  simp only [note, h, filtered]

theorem payload_note (h : e.accepted? id = none) :
    (r.note settings id e).payload = r.payload := by
  simp only [note, h]
  split <;> exact payload_close

theorem strikes_note (h : e.accepted? id = none) :
    (r.note settings id e).strikes = (r.close settings e).strikes := by
  simp only [note, h]
  split <;> rfl

end Notes

end Dossier

namespace Queue

variable {q : Queue} {id : String} {l : Loan}

theorem find?_of_accepted {op : Operation} {payload : Bytes}
    (h : QueueEvent.accepted? id (op, (q.apply op).1) = some payload) : q.find? id = none := by
  cases op with
  | push id' payload' priority delay now =>
    rcases push_cases q id' payload' priority delay now with ⟨e, refused⟩ | ⟨-, fresh, -, done⟩
    · simp [apply, refused, QueueEvent.accepted?] at h
    · obtain ⟨rfl, -⟩ : id' = id ∧ payload' = payload := by
        simpa [apply, done, QueueEvent.accepted?] using h
      exact fresh
  | _ => simp [QueueEvent.accepted?] at h

private theorem loan_note_iff (hq : q.Coherent) {r : Dossier}
    (loan : ∀ l, r.loan = some l ↔ q.Runs l ∧ l.id = id) (op : Operation) (l : Loan) :
    (r.note q.settings id (op, (q.apply op).1)).loan = some l ↔
      (q.apply op).2.Runs l ∧ l.id = id := by
  have step := runs_apply hq op
  cases accepted : QueueEvent.accepted? id (op, (q.apply op).1) with
  | some payload =>
    -- Nothing can be out under an id that was free before and is pushed now.
    have idle := idle_of_none (find?_of_accepted accepted)
    rw [Dossier.note_of_accepted accepted, step]
    cases op with
    | push id' payload' priority delay now =>
      simp only [reduceCtorEq, false_iff, not_and]
      rintro (opens | ⟨runs, -⟩)
      · simp [QueueEvent.loan?] at opens
      · exact idle l runs
    | _ => simp [QueueEvent.accepted?] at accepted
  | none =>
    by_cases here : ∃ k, QueueEvent.loan? (op, (q.apply op).1) = some k ∧ k.id = id
    · obtain ⟨k, opens, here⟩ := here
      rw [Dossier.note_of_loan accepted opens here, Option.some.injEq]
      constructor
      · rintro rfl
        exact ⟨(step k).mpr (.inl opens), here⟩
      · rintro ⟨runs, same⟩
        exact ((step k).mpr (.inl opens)).eq_of_id runs (here.trans same.symm)
    · have others : ∀ k, QueueEvent.loan? (op, (q.apply op).1) = some k → k.id ≠ id :=
        fun k opens same => here ⟨k, opens, same⟩
      rw [Dossier.note_of_no_loan accepted others, Dossier.loan_close_eq_some_iff, loan, step]
      constructor
      · rintro ⟨⟨runs, same⟩, still⟩
        exact ⟨.inr ⟨runs, still⟩, same⟩
      · rintro ⟨opens | ⟨runs, still⟩, same⟩
        · exact absurd same (others l opens)
        · exact ⟨⟨runs, same⟩, still⟩

theorem loan_ofHistory_iff (settings : QueueSettings) (ops : List Operation) (id : String)
    (l : Loan) :
    (Dossier.ofHistory settings id ((ofSettings settings).history ops)).loan = some l ↔
      ((ofSettings settings).after ops).Runs l ∧ l.id = id := by
  induction ops using List.reverseRecOn generalizing l with
  | nil =>
    constructor
    · intro h
      simp [history, Dossier.ofHistory] at h
    · rintro ⟨h, -⟩
      obtain ⟨m, hm, -⟩ := runs_iff.mp h
      simp [after, ofSettings, find?] at hm
  | append_singleton ops op ih =>
    have step := loan_note_iff (coherent_after settings ops) ih op l
    rw [settings_after] at step
    rw [after_concat, history_concat, Dossier.ofHistory_concat]
    exact step

end Queue
end WorkBroker
