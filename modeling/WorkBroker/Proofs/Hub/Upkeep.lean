import WorkBroker.Hub.Timeline
import WorkBroker.Proofs.Broker.Mirror
/-!
Rules that a desk keeps by itself.  The hub works and its callers come to their own conclusions in
whatever order; what no single one of these steps spoils, no turn of the desk spoils.  Only calls
that are new can, and those are made by somebody else.
-/

set_option autoImplicit false
set_option relaxedAutoImplicit false

namespace WorkBroker

/-- Something to be true of the queue, of every call, and of every answer on its way to a call. -/
structure Rule where
  queue : Queue → Prop
  call : Call → Prop
  answer : Answer → Prop

namespace Rule

/-- Whether neither the hub nor a caller ever breaks a rule. -/
structure Lasts (R : Rule) : Prop where
  handle : ∀ {h : Hub} {c : Call}, R.queue h.queue → R.call c → ∀ (m : Moment) (number : Nat),
    R.queue (h.handle m number c.request).2.queue ∧
      ∀ reply ∈ (h.handle m number c.request).1, R.answer reply.2
  serveLine : ∀ {q : Queue}, R.queue q →
    ∀ (r : Receivers) (servedAt : Nat → Instant) (line : List Waiter),
      R.queue (Hub.serveLine r servedAt line q).2.queue ∧
        ∀ reply ∈ (Hub.serveLine r servedAt line q).1, R.answer reply.2
  sweep : ∀ {q : Queue}, R.queue q → ∀ (order : VisitOrder) (now : Instant),
    R.queue (q.sweepIn order now).2
  settled : R.answer .settled
  dropped : R.answer .dropped
  act : ∀ {xs : List Departure} {c c' : Call}, R.call c → Call.Acts xs c c' → R.call c'
  receive : ∀ {c : Call} {a : Answer}, R.call c → R.answer a → ∀ now, R.call (c.receive a now)

variable {R : Rule} {n : Nat} {d : Desk} {c : Call}

private theorem Lasts.stop (lasts : R.Lasts) (h : R.call c) : R.call c.stop := by
  have told := lasts.receive h lasts.dropped Instant.start
  by_cases pending : c.state = .pending
  · rw [Call.receive_answer pending (by simp)] at told
    have same : c.stop = { c with state := .offered .dropped } := by
      simp only [Call.stop, pending]
    rw [same]
    exact told
  · rw [Call.receive_of_answered pending] at told
    have same : c.stop = c := by
      rw [Call.stop]
      split <;> simp_all
    rw [same]
    exact told

private theorem Lasts.hear (lasts : R.Lasts) (h : R.call c) {replies : List Reply}
    (fair : ∀ reply ∈ replies, R.answer reply.2) (now : Instant) : R.call (c.hear now replies) := by
  induction replies generalizing c with
  | nil => exact h
  | cons reply replies ih =>
    rw [Call.hear_cons]
    have rest : ∀ reply ∈ replies, R.answer reply.2 := fun reply hr =>
      fair reply (List.mem_cons_of_mem _ hr)
    refine ih ?_ rest
    split_ifs
    · exact lasts.receive h (fair reply List.mem_cons_self) now
    · exact h

private theorem Lasts.departs (lasts : R.Lasts) (h : R.call c) (xs : List Departure) :
    R.call (c.departs xs) :=
  Call.departs_induction (fun h act => lasts.act h act) h (List.Subset.refl xs)

/-- Whether a rule holds at a desk whose next call gets the number `n`. -/
structure Holds (R : Rule) (n : Nat) (d : Desk) : Prop where
  queue : R.queue d.hub.queue
  calls : ∀ c ∈ d.calls, R.call c
  next : d.nextCall = n

private theorem Holds.mapCalls (h : R.Holds n d) {f : Call → Call}
    (keeps : ∀ c, R.call c → R.call (f c)) :
    R.Holds n (d.mapCalls f) where
  queue := h.queue
  calls c hc := by
    obtain ⟨before, hbefore, rfl⟩ := List.mem_map.mp hc
    exact keeps before (h.calls before hbefore)
  next := h.next

private theorem Holds.modify (h : R.Holds n d) (number : Nat) {f : Call → Call}
    (keeps : ∀ c, R.call c → R.call (f c)) : R.Holds n (d.modify number f) :=
  h.mapCalls fun c hc => by
    split_ifs
    · exact keeps c hc
    · exact hc

theorem Holds.forget (h : R.Holds n d) (number : Nat) : R.Holds n (d.forget number) where
  queue := h.queue
  calls c hc := h.calls c (List.mem_filter.mp hc).1
  next := h.next

private theorem Holds.collect (lasts : R.Lasts) (h : R.Holds n d) (number : Nat) :
    R.Holds n (d.modify number (·.collect)) :=
  h.modify number fun c hc => lasts.act hc (Call.acts_collect [] c)

private theorem Lasts.expire (lasts : R.Lasts) (h : R.call c) (now : Instant) :
    R.call (c.expire now) :=
  lasts.act h (Call.acts_depart (x := .expire c.number now) rfl (List.mem_singleton_self _))

theorem Holds.look (lasts : R.Lasts) (h : R.Holds n d) (number : Nat) (now : Instant) :
    R.Holds n (d.look number now) :=
  h.modify number fun c hc =>
    lasts.act (lasts.expire hc now) (Call.acts_collect [] (c.expire now))

private theorem Holds.depart (lasts : R.Lasts) (h : R.Holds n d) (xs : List Departure) :
    R.Holds n (d.depart xs) :=
  h.mapCalls fun _ hc => lasts.departs hc xs

theorem Holds.stop (lasts : R.Lasts) (h : R.Holds n d) : R.Holds n d.stop where
  queue := h.queue
  calls := (h.mapCalls fun _ hc => lasts.stop hc).calls
  next := h.next

private theorem Holds.hand (lasts : R.Lasts) (h : R.Holds n d) {hub : Hub}
    (queue : R.queue hub.queue)
    {replies : List Reply} (fair : ∀ reply ∈ replies, R.answer reply.2) (inbox : List Nat)
    (now : Instant) : R.Holds n ({ d with hub, inbox }.deliver now replies) := by
  rw [Desk.deliver_eq]
  have changed : R.Holds n { d with hub, inbox } := ⟨queue, h.calls, h.next⟩
  exact changed.mapCalls fun _ hc => lasts.hear hc fair now

theorem Holds.found (h : R.Holds n d) {number : Nat} (found : d.find? number = some c) :
    R.call c :=
  h.calls c (Desk.find?_mem found).1

section Hub

private theorem Lasts.turn (lasts : R.Lasts) {h : Hub} (queue : R.queue h.queue) (asks : R.call c)
    (m : Moment) (number : Nat) :
    R.queue (h.turn m number c.request).2.queue ∧
      ∀ reply ∈ (h.turn m number c.request).1, R.answer reply.2 := by
  obtain ⟨handled, first⟩ := lasts.handle queue asks m number
  obtain ⟨served, others⟩ := lasts.serveLine handled m.later m.servedAt
    (h.handle m number c.request).2.line
  refine ⟨served, fun reply hr => ?_⟩
  exact (List.mem_append.mp hr).elim (first reply) (others reply)

private theorem Holds.work (lasts : R.Lasts) (h : R.Holds n d) (now : Instant) :
    R.Holds n (d.work now).2 := by
  rw [Desk.work]
  split
  · exact h
  · rename_i number inbox present
    cases found : d.find? number with
    | none => exact ⟨h.queue, h.calls, h.next⟩
    | some call =>
      obtain ⟨queue, fair⟩ := lasts.turn h.queue (h.found found) (d.moment now) number
      have told := h.hand lasts queue fair inbox now
      dsimp only
      split_ifs
      · exact told
      · exact told.forget number

private theorem Holds.tick (lasts : R.Lasts) (h : R.Holds n d) (now : Instant) :
    R.Holds n (d.tick now).2 := by
  rw [Desk.tick]
  split_ifs
  · exact h
  · have swept := lasts.sweep h.queue (d.moment now).order (d.moment now).now
    obtain ⟨queue, fair⟩ := lasts.serveLine swept (d.moment now).later (d.moment now).servedAt
      d.hub.line
    exact h.hand lasts queue fair d.inbox now

end Hub

section Timeline

variable {t : Timeline}

theorem Holds.turn (lasts : R.Lasts) (h : R.Holds n t.desk) : R.Holds n t.turn.2.desk :=
  Timeline.turn_induction t (fun _ h => h.work lasts t.now) (fun _ h => h.tick lasts t.now) h

theorem Holds.settle (lasts : R.Lasts) (h : R.Holds n t.desk) : R.Holds n t.settle.desk := by
  have collects : ∀ c, R.call c → R.call c.collect := fun c hc =>
    lasts.act hc (Call.acts_collect [] c)
  have expires : ∀ c, R.call c → R.call (c.expire t.turn.2.now) := fun c hc =>
    lasts.expire hc t.turn.2.now
  exact ((h.turn lasts).mapCalls collects |>.mapCalls expires).mapCalls collects

end Timeline

section Race

variable {x : Race}

private theorem Holds.carry (lasts : R.Lasts) (h : R.Holds n x.desk) (asks : R.call c)
    (now : Instant)
    (order : VisitOrder) (number : Nat) (inbox : List Nat) (between : List Departure) :
    R.Holds n (x.carry now order number c.request inbox between).desk := by
  have settlements : ∀ reply ∈ x.desk.hub.settlements now number c.request, R.answer reply.2 := by
    intro reply hr
    rw [Hub.of_mem_settlements hr]
    exact lasts.settled
  have settled := h.hand lasts h.queue settlements x.desk.inbox now
  have met := settled.depart lasts between
  obtain ⟨queue, fair⟩ := lasts.handle h.queue asks _ number
  exact met.hand lasts queue fair inbox now

private theorem Holds.attend (lasts : R.Lasts) (h : R.Holds n x.desk) (now : Instant)
    (servedAt : Nat → Instant) (before between : List Departure) :
    R.Holds n (x.attend now servedAt before between).desk := by
  have met := (h.depart lasts before).depart lasts between
  obtain ⟨queue, fair⟩ := lasts.serveLine h.queue _ servedAt x.desk.hub.line
  exact met.hand lasts queue fair x.desk.inbox now

/-- Whatever happens in a race keeps the rule, but for a call that somebody makes. -/
theorem Holds.race (lasts : R.Lasts) (h : R.Holds n x.desk) (e : Race.Event)
    (made : ∀ request wait now, e ≠ .submit request wait now) : R.Holds n (x.step e).desk := by
  cases e with
  | submit request wait now => exact absurd rfl (made request wait now)
  | work now servedAt order asked before between =>
    rw [Race.step]
    split
    · exact h
    · rename_i number inbox present
      cases found : x.desk.find? number with
      | none => exact ⟨h.queue, h.calls, h.next⟩
      | some call =>
        have carried := h.carry lasts (h.found found) now order number inbox asked
        have attended := carried.attend lasts now servedAt before between
        dsimp only
        split_ifs
        · exact attended
        · exact attended.forget number
  | tick now servedAt order before between =>
    rw [Race.step]
    split_ifs
    · exact h
    · have swept : R.Holds n (x.sweep now order).desk :=
        h.hand lasts (lasts.sweep h.queue order now) (fun _ none => absurd none List.not_mem_nil)
          x.desk.inbox now
      exact swept.attend lasts now servedAt before between
  | depart departure => exact h.depart lasts [departure]
  | collect call => exact h.collect lasts call
  | stop => exact h.stop lasts

end Race

def ofCalls (p : Nat → Request → Prop) : Rule where
  queue _ := True
  call c := p c.number c.request
  answer _ := True

theorem lasts_ofCalls (p : Nat → Request → Prop) : (ofCalls p).Lasts where
  handle _ _ _ _ := ⟨trivial, fun _ _ => trivial⟩
  serveLine _ _ _ _ := ⟨trivial, fun _ _ => trivial⟩
  sweep _ _ _ := trivial
  settled := trivial
  dropped := trivial
  act {xs c c'} h act := by
    obtain ⟨number, request, -⟩ := act.same
    show p c'.number c'.request
    rw [number, request]
    exact h
  receive {c a} h _ now := by
    obtain ⟨number, request, -⟩ := c.receive_same a now
    show p (c.receive a now).number (c.receive a now).request
    rw [number, request]
    exact h

end Rule
end WorkBroker
