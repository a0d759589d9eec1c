import WorkBroker.Proofs.Queue.Order
import Mathlib.Data.List.Chain
/-!
First in, first out.  If time never goes backwards and deliveries are put back at once or not at
all, then the messages of one priority stand in the order in which they were placed, whatever was
boosted, put back or promoted in between; when a message was placed is read off the history.  The
invariant has two halves: the order now, and the order if the last delivery is put back.
-/

set_option autoImplicit false
set_option relaxedAutoImplicit false

namespace WorkBroker

namespace QueueEvent

def putBack? : QueueEvent → Option (String × Nat)
  | (.unpop id token, .putBack true) => some (id, token)
  | _ => none

/-- Whether an event that puts a delivery back follows the one that handed it out. -/
def Unwinds (e e' : QueueEvent) : Prop :=
  e'.putBack? = none ∨ e'.putBack? = e.delivery?.map fun d => (d.id, d.token)

instance (e e' : QueueEvent) : Decidable (Unwinds e e') := inferInstanceAs (Decidable (_ ∨ _))

end QueueEvent

namespace Dossier

variable {settings : QueueSettings} {id : String} {r : Dossier} {e : QueueEvent} {l : Loan}

private theorem placed_note (h : e.accepted? id = none) :
    (r.note settings id e).placed = (r.close settings e).placed := by
  simp only [note, h]
  split <;> rfl

private theorem placed_close_of_closed (h : r.loan = some l)
    (closed : e.strikes settings l ∨ e.settles l) :
    (r.close settings e).placed = e.placed? := by
  simp only [close, h]
  split_ifs with strikes settles
  · rfl
  · rfl
  · exact absurd closed (by simp [strikes, settles])
  · exact absurd closed (by simp [strikes, settles])

private theorem placed_close_of_open
    (still : ∀ l, r.loan = some l → ¬(e.strikes settings l ∨ e.settles l)) :
    (r.close settings e).placed = r.placed := by
  cases h : r.loan with
  | none => rw [close_of_none h]
  | some l =>
    have := not_or.mp (still l h)
    simp only [close, h, this.1, this.2, Bool.false_eq_true, if_false]
    split_ifs <;> rfl

end Dossier

namespace Queue

variable {q : Queue} {id : String} {settings : QueueSettings} {ops : List Operation}
  {op : Operation}

/-- When the message of an id was placed, by its history. -/
def placedIn (settings : QueueSettings) (ops : List Operation) (id : String) : Option Instant :=
  (Dossier.ofHistory settings id ((ofSettings settings).history ops)).placed

/-- Whether an operation ends the delivery of an id as a failed attempt or by settling it. -/
private def Ends (q : Queue) (op : Operation) (id : String) : Prop :=
  q.Strikes op id ∨ ∃ l, q.Runs l ∧ l.id = id ∧ QueueEvent.settles l (op, (q.apply op).1)

section Times

variable (settings ops op)

private theorem placedIn_concat_of_accepted {payload : Bytes}
    (h : QueueEvent.accepted? id (op, (((ofSettings settings).after ops).apply op).1) =
      some payload) :
    placedIn settings (ops ++ [op]) id =
      QueueEvent.placed? (op, (((ofSettings settings).after ops).apply op).1) := by
  rw [placedIn, history_concat, Dossier.ofHistory_concat, Dossier.note_of_accepted h]

private theorem placedIn_concat_of_ends (ends : ((ofSettings settings).after ops).Ends op id) :
    placedIn settings (ops ++ [op]) id =
      QueueEvent.placed? (op, (((ofSettings settings).after ops).apply op).1) := by
  obtain ⟨l, runs, here, closed⟩ : ∃ l, ((ofSettings settings).after ops).Runs l ∧ l.id = id ∧
      (QueueEvent.strikes settings l (op, (((ofSettings settings).after ops).apply op).1) ∨
        QueueEvent.settles l (op, (((ofSettings settings).after ops).apply op).1)) := by
    rcases ends with ⟨l, runs, here, strikes⟩ | ⟨l, runs, here, settles⟩
    · rw [settings_after] at strikes
      exact ⟨l, runs, here, .inl strikes⟩
    · exact ⟨l, runs, here, .inr settles⟩
  obtain ⟨s, hs, -⟩ := runs.standing?
  have held : (((ofSettings settings).after ops).standing? id).isSome := by simp [← here, hs]
  have fresh := accepted?_of_held op held
  rw [placedIn, history_concat, Dossier.ofHistory_concat, Dossier.placed_note fresh]
  exact Dossier.placed_close_of_closed ((loan_ofHistory_iff settings ops id l).mpr ⟨runs, here⟩)
    closed

private theorem placedIn_concat_of_not_ends
    (fresh : QueueEvent.accepted? id (op, (((ofSettings settings).after ops).apply op).1) = none)
    (open_ : ¬((ofSettings settings).after ops).Ends op id) :
    placedIn settings (ops ++ [op]) id = placedIn settings ops id := by
  rw [placedIn, history_concat, Dossier.ofHistory_concat, Dossier.placed_note fresh]
  refine Dossier.placed_close_of_open ?_
  intro l out closed
  obtain ⟨runs, here⟩ := (loan_ofHistory_iff settings ops id l).mp out
  rcases closed with strikes | settles
  · refine open_ (.inl ⟨l, runs, here, ?_⟩)
    rw [settings_after]
    exact strikes
  · exact open_ (.inr ⟨l, runs, here, settles⟩)

private theorem placedIn_mem_times {t : Instant}
    (h : placedIn settings ops id = some t) : t ∈ ops.filterMap (·.time?) := by
  induction ops using List.reverseRecOn with
  | nil => simp [placedIn, history, Dossier.ofHistory] at h
  | append_singleton ops op ih =>
    have new : QueueEvent.placed? (op, (((ofSettings settings).after ops).apply op).1) = some t →
        t ∈ (ops ++ [op]).filterMap (·.time?) := by
      intro placed
      have timed : op.time? = some t := by
        cases op <;> simp_all [QueueEvent.placed?, Operation.time?]
      simp [timed]
    cases accepted :
        QueueEvent.accepted? id (op, (((ofSettings settings).after ops).apply op).1) with
    | some payload => exact new (placedIn_concat_of_accepted settings ops op accepted ▸ h)
    | none =>
      by_cases ends : ((ofSettings settings).after ops).Ends op id
      · exact new (placedIn_concat_of_ends settings ops op ends ▸ h)
      · rw [placedIn_concat_of_not_ends settings ops op accepted ends] at h
        simp [ih h]

end Times

section Steps

variable {now : Instant} {q' : Queue}

private theorem not_ends (calm : ∀ l, QueueEvent.strikes q.settings l (op, (q.apply op).1) = false)
    (unsettled : QueueEvent.settled? (op, (q.apply op).1) = none) (id : String) :
    ¬q.Ends op id := by
  rintro (⟨l, -, -, strikes⟩ | ⟨l, -, -, settles⟩)
  · simp [calm] at strikes
  · simp [QueueEvent.settles, unsettled] at settles

private theorem placedIn_concat_of_idle
    (fresh : ∀ id,
      QueueEvent.accepted? id (op, (((ofSettings settings).after ops).apply op).1) = none)
    (calm : ∀ l, QueueEvent.strikes ((ofSettings settings).after ops).settings l
      (op, (((ofSettings settings).after ops).apply op).1) = false)
    (unsettled : QueueEvent.settled? (op, (((ofSettings settings).after ops).apply op).1) = none) :
    placedIn settings (ops ++ [op]) = placedIn settings ops :=
  funext fun id =>
    placedIn_concat_of_not_ends settings ops op (fresh id) (not_ends calm unsettled id)

private theorem inOrder_push (o : InOrder (placedIn settings ops) ((ofSettings settings).after ops))
    (payload : Bytes) (priority : Nat) (delay : Duration)
    (bound : ∀ id t, placedIn settings ops id = some t → t ≤ now) (id : String) :
    InOrder (placedIn settings (ops ++ [.push id payload priority delay now]))
      (((ofSettings settings).after ops).push id payload priority delay now).2 := by
  have hq := coherent_after settings ops
  rcases push_cases ((ofSettings settings).after ops) id payload priority delay now with
    ⟨e, h⟩ | ⟨-, -, -, h⟩
  · have fresh : ∀ other, QueueEvent.accepted? other (.push id payload priority delay now,
        (((ofSettings settings).after ops).apply (.push id payload priority delay now)).1) =
          none := by
      simp [apply, h, QueueEvent.accepted?]
    rw [placedIn_concat_of_idle fresh (fun _ => rfl) rfl, h]
    exact o
  · have pushed : ((ofSettings settings).after ops).push id payload priority delay now =
        (.ok (), (((ofSettings settings).after ops).push id payload priority delay now).2) := by
      rw [h]
    refine o.push hq pushed bound ?_ ?_
    · intro other ne
      refine placedIn_concat_of_not_ends settings ops _ ?_ (not_ends (fun _ => rfl) rfl other)
      simp [apply, h, QueueEvent.accepted?, Ne.symm ne]
    · have accepted : QueueEvent.accepted? id (.push id payload priority delay now,
          (((ofSettings settings).after ops).apply (.push id payload priority delay now)).1) =
          some payload := by
        simp [apply, h, QueueEvent.accepted?]
      rw [placedIn_concat_of_accepted settings ops _ accepted, QueueEvent.placed?]

private theorem inOrder_settled (op : Operation)
    (o : InOrder (placedIn settings ops) ((ofSettings settings).after ops))
    {id : String} {token : Nat} {requeue : Bool} {delay : Duration}
    (acked : ((ofSettings settings).after ops).ack id token requeue delay now = (.ok (), q'))
    (bound : ∀ id t, placedIn settings ops id = some t → t ≤ now)
    (settled : QueueEvent.settled? (op, (((ofSettings settings).after ops).apply op).1) =
      some (id, token))
    (placed : QueueEvent.placed? (op, (((ofSettings settings).after ops).apply op).1) =
      if requeue && delay.isZero then some now else none) :
    InOrder (placedIn settings (ops ++ [op])) q' := by
  have hq := coherent_after settings ops
  refine o.ack hq acked bound ?_ ?_
  · intro other ne
    refine placedIn_concat_of_not_ends settings ops op ?_ ?_
    · cases op <;> simp [QueueEvent.settled?] at settled <;> simp [QueueEvent.accepted?]
    · rintro (⟨l, -, -, strikes⟩ | ⟨l, -, here, settles⟩)
      · cases op <;> simp [QueueEvent.settled?] at settled <;> simp [QueueEvent.strikes] at strikes
      · rw [QueueEvent.settles, settled, beq_iff_eq, Option.some.injEq, Prod.mk.injEq] at settles
        exact ne (here.symm.trans settles.1.symm)
  · obtain ⟨l, runs, here, same⟩ := runs_of_settled settled
    have ends : ((ofSettings settings).after ops).Ends op id :=
      .inr ⟨l, runs, here, by rw [QueueEvent.settles, settled, here, same, beq_self_eq_true]⟩
    rw [placedIn_concat_of_ends settings ops op ends, placed]

private theorem inOrder_sweep
    (o : InOrder (placedIn settings ops) ((ofSettings settings).after ops))
    (order : VisitOrder) (bound : ∀ id t, placedIn settings ops id = some t → t ≤ now) :
    InOrder (placedIn settings (ops ++ [.sweep order now]))
      (((ofSettings settings).after ops).sweepIn order now).2 := by
  have hq := coherent_after settings ops
  have ends : ∀ id, ((ofSettings settings).after ops).Ends (.sweep order now) id ↔
      id ∈ (((ofSettings settings).after ops).promoteDue now).2.expired now := by
    intro id
    rw [mem_expired_promoteDue_iff hq]
    simp [Ends, Strikes, QueueEvent.strikes, QueueEvent.settles, QueueEvent.settled?]
  refine o.sweepIn hq order bound fun id => ?_
  split_ifs with late
  · rw [placedIn_concat_of_ends settings ops _ ((ends id).mpr late), QueueEvent.placed?]
  · exact placedIn_concat_of_not_ends settings ops _ rfl fun h => late ((ends id).mp h)

private theorem inOrder_release
    (o : InOrder (placedIn settings ops) ((ofSettings settings).after ops))
    (order : VisitOrder) (owner : Nat)
    (bound : ∀ id t, placedIn settings ops id = some t → t ≤ now) :
    InOrder (placedIn settings (ops ++ [.release order owner now]))
      (((ofSettings settings).after ops).releaseIn order owner now).2 := by
  have hq := coherent_after settings ops
  have ends : ∀ id, ((ofSettings settings).after ops).Ends (.release order owner now) id ↔
      id ∈ ((ofSettings settings).after ops).heldBy owner := by
    intro id
    rw [mem_heldBy_iff_runs hq]
    simp [Ends, Strikes, QueueEvent.strikes, QueueEvent.settles, QueueEvent.settled?]
  refine o.releaseIn hq order owner bound fun id => ?_
  split_ifs with held
  · rw [placedIn_concat_of_ends settings ops _ ((ends id).mpr held), QueueEvent.placed?]
  · exact placedIn_concat_of_not_ends settings ops _ rfl fun h => held ((ends id).mp h)

/-- The order is kept, and a delivery that has just been handed out can be put back. -/
structure Keeps (settings : QueueSettings) (ops : List Operation) : Prop where
  inOrder : InOrder (placedIn settings ops) ((ofSettings settings).after ops)
  unwound : ∀ d, ((ofSettings settings).history ops).getLast?.bind (·.delivery?) = some d →
    InOrder (placedIn settings ops) (((ofSettings settings).after ops).unpop d.id d.token).2

private theorem Keeps.of_inOrder (o : InOrder (placedIn settings (ops ++ [op]))
      (((ofSettings settings).after ops).apply op).2)
    (unwound : ∀ d, QueueEvent.delivery? (op, (((ofSettings settings).after ops).apply op).1) =
      some d → InOrder (placedIn settings (ops ++ [op]))
        ((((ofSettings settings).after ops).apply op).2.unpop d.id d.token).2) :
    Keeps settings (ops ++ [op]) where
  inOrder := by
    rw [after_concat]
    exact o
  unwound d hd := by
    rw [history_concat, List.getLast?_concat, Option.bind_some] at hd
    rw [after_concat]
    exact unwound d hd

/-- What is put back is the delivery that was handed out last. -/
theorem Keeps.inOrder_unpop (k : Keeps settings ops) {token : Nat}
    (unwinds : ∀ e ∈ ((ofSettings settings).history ops).getLast?, QueueEvent.Unwinds e
      (.unpop id token, (((ofSettings settings).after ops).apply (.unpop id token)).1)) :
    InOrder (placedIn settings ops) (((ofSettings settings).after ops).unpop id token).2 := by
  rcases unpop_cases ((ofSettings settings).after ops) id token with h | ⟨m, owner, since, hm, _, h⟩
  · rw [h]
    exact k.inOrder
  · cases last : ((ofSettings settings).history ops).getLast? with
    | none =>
      have empty : ops = [] := by
        cases ops with
        | nil => rfl
        | cons op ops => simp [history] at last
      simp [empty, after, ofSettings, find?] at hm
    | some e =>
      have follows := unwinds e last
      simp only [QueueEvent.Unwinds, apply, h, QueueEvent.putBack?] at follows
      obtain ⟨d, handed, key⟩ := Option.map_eq_some_iff.mp (follows.resolve_left (by simp)).symm
      obtain ⟨rfl, rfl⟩ := Prod.mk.inj key
      exact k.unwound d (by rw [last, Option.bind_some, handed])

/-- Every operation keeps the order if it does not come before its time, and puts back nothing but
what was handed out last. -/
theorem Keeps.concat (k : Keeps settings ops)
    (bound : ∀ now, op.time? = some now → ∀ id t, placedIn settings ops id = some t → t ≤ now)
    (unwinds : ∀ e ∈ ((ofSettings settings).history ops).getLast?,
      QueueEvent.Unwinds e (op, (((ofSettings settings).after ops).apply op).1)) :
    Keeps settings (ops ++ [op]) := by
  have hq := coherent_after settings ops
  cases op with
  | push id payload priority delay now =>
    refine .of_inOrder (inOrder_push k.inOrder payload priority delay (bound now rfl) id) ?_
    simp [QueueEvent.delivery?]
  | pop owner now =>
    have same : placedIn settings (ops ++ [.pop owner now]) = placedIn settings ops :=
      placedIn_concat_of_idle (fun _ => rfl) (fun _ => rfl) rfl
    refine .of_inOrder ?_ fun d popped => ?_
    · rw [same]
      exact k.inOrder.pop hq owner now
    · rw [same]
      exact k.inOrder.unpop_pop hq popped
  | unpop id token =>
    have same : placedIn settings (ops ++ [.unpop id token]) = placedIn settings ops :=
      placedIn_concat_of_idle (fun _ => rfl) (fun _ => rfl) rfl
    refine .of_inOrder ?_ (by simp [QueueEvent.delivery?])
    rw [same]
    exact k.inOrder_unpop unwinds
  | ack id token requeue delay now =>
    refine .of_inOrder ?_ (by simp [QueueEvent.delivery?])
    rcases ack_cases ((ofSettings settings).after ops) id token requeue delay now with
      ⟨e, h⟩ | ⟨m, _, _, -, -, h⟩
    · rw [placedIn_concat_of_idle (fun _ => rfl) (fun _ => rfl)
        (by simp [apply, h, QueueEvent.settled?])]
      simp only [apply, h]
      exact k.inOrder
    · have settled := inOrder_settled (.ack id token requeue delay now) k.inOrder h
        (bound now rfl) (by simp [apply, h, QueueEvent.settled?]) rfl
      simpa only [apply, h] using settled
  | ackPop id token requeue delay owner now =>
    have moves := moves_ack ((ofSettings settings).after ops) id token requeue delay now
    rcases ackPop_cases ((ofSettings settings).after ops) id token requeue delay owner now with
      ⟨e, h, h'⟩ | ⟨r, h, h'⟩
    · refine .of_inOrder ?_ (by simp [apply, h', QueueEvent.delivery?])
      rw [placedIn_concat_of_idle (fun _ => rfl) (fun _ => rfl)
        (by simp [apply, h', QueueEvent.settled?])]
      simp only [apply, h']
      exact k.inOrder
    · have settled := inOrder_settled (.ackPop id token requeue delay owner now) k.inOrder h
        (bound now rfl) (by simp [apply, h', QueueEvent.settled?]) rfl
      rw [h] at moves
      have hr := Moves.coherent moves hq
      refine .of_inOrder ?_ fun d handed => ?_
      · simpa only [apply, h'] using settled.pop hr owner now
      · have popped : (r.pop owner now).1 = some d := by
          simpa [apply, h', QueueEvent.delivery?] using handed
        simpa only [apply, h'] using settled.unpop_pop hr popped
  | sweep order now =>
    exact .of_inOrder (inOrder_sweep k.inOrder order (bound now rfl))
      (by simp [QueueEvent.delivery?])
  | release order owner now =>
    exact .of_inOrder (inOrder_release k.inOrder order owner (bound now rfl))
      (by simp [QueueEvent.delivery?])
  | eraseFailed ids =>
    refine .of_inOrder ?_ (by simp [QueueEvent.delivery?])
    rw [placedIn_concat_of_idle (fun _ => rfl) (fun _ => rfl) rfl]
    exact k.inOrder.eraseFailed ids

end Steps

section Runs

private theorem keeps_ofHistory (settings : QueueSettings) (ops : List Operation)
    (times : (ops.filterMap (·.time?)).Pairwise (· ≤ ·))
    (unwinds : ((ofSettings settings).history ops).IsChain QueueEvent.Unwinds) :
    Keeps settings ops := by
  induction ops using List.reverseRecOn with
  | nil =>
    refine ⟨⟨fun m t hm => ?_, fun a b s t ha => ?_⟩, fun d hd => ?_⟩
    · simp [after, ofSettings, find?] at hm
    · have := ha.found
      simp [after, ofSettings, find?] at this
    · simp [history] at hd
  | append_singleton ops op ih =>
    rw [List.filterMap_append, List.pairwise_append] at times
    rw [history_concat, List.isChain_append] at unwinds
    refine (ih times.1 unwinds.1).concat ?_ ?_
    · intro now time id t placed
      exact times.2.2 t (placedIn_mem_times settings ops placed) now (by simp [time])
    · intro e last
      exact unwinds.2.2 e last _ rfl

/-- If time never goes backwards and deliveries are put back at once or not at all, then of two
ready messages of one priority the one that was placed earlier is ahead: it stands in an earlier
lane, or nearer the front of the same one. -/
theorem fifo_within_priority (settings : QueueSettings) (ops : List Operation)
    (times : (ops.filterMap (·.time?)).Pairwise (· ≤ ·))
    (unwinds : ((ofSettings settings).history ops).IsChain QueueEvent.Unwinds)
    (a b : Message) (s t : Instant)
    (ha : ((ofSettings settings).after ops).find? a.id = some a)
    (hb : ((ofSettings settings).after ops).find? b.id = some b)
    (ready : a.state = .queued ∧ b.state = .queued) (same : a.priority = b.priority)
    (placed : (Dossier.ofHistory settings a.id ((ofSettings settings).history ops)).placed = some s)
    (placed' :
      (Dossier.ofHistory settings b.id ((ofSettings settings).history ops)).placed = some t)
    (earlier : s < t) :
    a.lane < b.lane ∨
      a.lane = b.lane ∧ [a.id, b.id].Sublist (((ofSettings settings).after ops).lane a.lane) :=
  (keeps_ofHistory settings ops times unwinds).inOrder.ahead a b s t ⟨ha, ready.1, placed⟩
    ⟨hb, ready.2, placed'⟩ same earlier

/-- Two messages of the second priority; the first one is handed out and put back, and both are
boosted, by different sweeps. -/
def boostedInTurn : List Operation :=
  [.push "a" [] 1 .zero .start, .push "b" [] 1 .zero (.ofMillis 3000), .pop 7 (.ofMillis 3000),
    .unpop "a" 1, .sweep .arrival (.ofMillis 5000), .push "c" [] 0 .zero (.ofMillis 6000),
    .sweep .arrival (.ofMillis 8000)]

theorem boosted_messages_keep_their_order :
    (boostedInTurn.filterMap (·.time?)).Pairwise (· ≤ ·) ∧
      ((ofSettings .standard).history boostedInTurn).IsChain QueueEvent.Unwinds ∧
      ["a", "b"].Sublist (((ofSettings .standard).after boostedInTurn).lane 0) := by
  have times : (boostedInTurn.filterMap (·.time?)).Pairwise (· ≤ ·) := by decide
  have unwinds : ((ofSettings .standard).history boostedInTurn).IsChain QueueEvent.Unwinds := by
    decide +kernel
  have order := fifo_within_priority .standard boostedInTurn times unwinds
    ⟨"a", 1, 0, [], .queued, .start, 0⟩ ⟨"b", 1, 0, [], .queued, .ofMillis 3000, 0⟩ .start
    (.ofMillis 3000) (by decide +kernel) (by decide +kernel) (by decide) rfl (by decide +kernel)
    (by decide +kernel) (by decide)
  exact ⟨times, unwinds, (order.resolve_left (Nat.lt_irrefl 0)).2⟩

end Runs

end Queue
end WorkBroker
