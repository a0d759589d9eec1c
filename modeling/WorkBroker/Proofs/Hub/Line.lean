import WorkBroker.Hub.Basic
import WorkBroker.Proofs.Queue.Moves
/-!
The line of consumers in one turn of the hub.  A turn has two halves.  Carrying out the request may
put its consumer at the end of the line, and removes only those that have gone or are released; then
the line is served from its front, as far as the messages go.  The second half ends with no message
ready or no one in line, and never with a message that a pop would not give.
-/

set_option autoImplicit false
set_option relaxedAutoImplicit false

namespace WorkBroker

def Receivers.takes (r : Receivers) (w : Waiter) : Bool := r.isOpen w.call && r.accepts w.call

inductive Turn
  | request (moment : Moment) (request : Request)
  | timer (moment : Moment)

namespace Turn

def moment : Turn → Moment
  | .request m _ => m
  | .timer m => m

def Releases (t : Turn) (owner : Nat) : Prop := ∃ m, t = .request m (.release owner)

/-- Whether a consumer in line is found open at every look of a turn. -/
def FindsOpen (t : Turn) (w : Waiter) : Prop :=
  t.moment.first.isOpen w.call ∧ t.moment.later.isOpen w.call ∧ t.moment.later.accepts w.call

end Turn

namespace Hub

section Serve

variable {r : Receivers} {servedAt : Nat → Instant} {w : Waiter} {rest : List Waiter}
  {replies : List Reply} {h : Hub}

/-- A line was served from its front: those who left it and could be reached have got a delivery, in
their order. -/
structure Served (r : Receivers) (line : List Waiter) (replies : List Reply) (h : Hub) : Prop where
  coherent : h.queue.Coherent
  idle : h.queue.hasReady → h.line = []
  split : ∃ gone, line = gone ++ h.line ∧
    replies.map Prod.fst = (gone.filter r.takes).map (·.call)
  deliveries : ∀ reply ∈ replies, ∃ d, reply.2 = .delivery (some d)

private theorem Served.skip (s : Served r rest replies h) (away : r.takes w = false) :
    Served r (w :: rest) replies h := by
  obtain ⟨gone, split, calls⟩ := s.split
  refine ⟨s.coherent, s.idle, ⟨w :: gone, by rw [split, List.cons_append], ?_⟩, s.deliveries⟩
  rw [List.filter_cons, away, calls]
  rfl

private theorem Served.hand (s : Served r rest replies h) (there : r.takes w) (d : Delivery) :
    Served r (w :: rest) ((w.call, .delivery (some d)) :: replies) h := by
  obtain ⟨gone, split, calls⟩ := s.split
  refine ⟨s.coherent, s.idle, ⟨w :: gone, by rw [split, List.cons_append], ?_⟩, ?_⟩
  · rw [List.filter_cons, if_pos there, List.map_cons, List.map_cons, calls]
  · intro reply hreply
    rcases List.mem_cons.mp hreply with rfl | hreply
    · exact ⟨d, rfl⟩
    · exact s.deliveries reply hreply

theorem served_serveLine (r : Receivers) (servedAt : Nat → Instant) (line : List Waiter)
    {queue : Queue} (hq : queue.Coherent) :
    Served r line (serveLine r servedAt line queue).1 (serveLine r servedAt line queue).2 := by
  induction line generalizing queue with
  | nil => exact ⟨hq, fun _ => rfl, ⟨[], rfl, rfl⟩, fun _ h => absurd h List.not_mem_nil⟩
  | cons w rest ih =>
    rw [serveLine]
    by_cases ready : queue.hasReady
    · simp only [ready, Bool.not_true, Bool.false_eq_true, if_false]
      by_cases there : r.isOpen w.call
      · simp only [there, Bool.not_true, Bool.false_eq_true, if_false]
        -- A message is ready, so the pop gives one and nobody is sent away with nothing.
        obtain ⟨d, popped, h⟩ := hq.pop_of_hasReady ready w.owner (servedAt w.call)
        have hpopped : popped.Coherent := by
          have moves := Queue.moves_pop hq w.owner (servedAt w.call)
          rw [h] at moves
          exact moves.coherent hq
        rw [h]
        by_cases accepts : r.accepts w.call
        · simp only [handOver, accepts, if_true, List.singleton_append]
          exact (ih hpopped).hand (by simp [Receivers.takes, there, accepts]) d
        · simp only [handOver, accepts, Bool.false_eq_true, if_false, List.nil_append]
          have back := (Queue.moves_unpop popped d.id d.token).coherent hpopped
          exact (ih back).skip (by simp [Receivers.takes, accepts])
      · simp only [there, Bool.not_false, if_true]
        exact (ih hq).skip (by simp [Receivers.takes, there])
    · simp only [ready, Bool.not_false, if_true]
      exact ⟨hq, fun h => absurd h ready, ⟨[], rfl, rfl⟩, fun _ h => absurd h List.not_mem_nil⟩

end Serve

section Carry

variable {h h' : Hub} {call : Nat} {t : Turn} {replies : List Reply}

def act (h : Hub) (call : Nat) : Turn → List Reply × Hub
  | .request m request => h.handle m call request
  | .timer m => ([], h.sweep m)

/-- What the first half of a turn does to the line, and whom it answers. -/
structure Carried (h : Hub) (call : Nat) (t : Turn) (replies : List Reply) (h' : Hub) : Prop where
  moves : Queue.Moves h.queue h'.queue
  line : ∃ kept, kept.Sublist h.line ∧
    (h'.line = kept ∨ (∃ owner, h'.line = kept ++ [⟨owner, call⟩]) ∧
      ∀ d, (call, .delivery (some d)) ∉ replies)
  stays : ∀ w ∈ h.line, t.moment.first.isOpen w.call → ¬t.Releases w.owner → w ∈ h'.line
  answers : ∀ reply ∈ replies, reply.1 = call ∧ reply.2 ≠ .dropped ∨
    reply.2 = .dropped ∧ ∃ owner, t.Releases owner ∧ ⟨owner, reply.1⟩ ∈ h.line

private theorem carried_answer {queue : Queue} (moves : Queue.Moves h.queue queue) {a : Answer}
    (answered : a ≠ .dropped) : Carried h call t [(call, a)] { h with queue } where
  moves := moves
  line := ⟨h.line, .refl _, .inl rfl⟩
  stays _ hw _ _ := hw
  answers reply hreply := by
    rw [List.mem_singleton.mp hreply]
    exact .inl ⟨rfl, answered⟩

private theorem mem_filter_isOpen {w : Waiter} (hw : w ∈ h.line) {r : Receivers}
    (there : r.isOpen w.call) : w ∈ h.line.filter fun w => r.isOpen w.call :=
  List.mem_filter.mpr ⟨hw, there⟩

private theorem carried_serve {queue : Queue} (moves : Queue.Moves h.queue queue) {m : Moment}
    {request : Request} (owner : Nat) (wait : Bool) (next : Option Delivery) :
    Carried h call (.request m request)
      (serve { h with queue } m.first owner wait call next).1
      (serve { h with queue } m.first owner wait call next).2 := by
  have kept : (h.line.filter fun w => m.first.isOpen w.call).Sublist h.line := List.filter_sublist
  cases next with
  | some d =>
    by_cases accepts : m.first.accepts call
    · simp only [serve, handOver, accepts, if_true]
      refine ⟨moves, ⟨_, kept, .inl rfl⟩, fun w hw there _ => mem_filter_isOpen hw there, ?_⟩
      intro reply hreply
      rw [List.mem_singleton.mp hreply]
      exact .inl ⟨rfl, by simp⟩
    · simp only [serve, handOver, accepts, Bool.false_eq_true, if_false]
      have back := Queue.moves_unpop queue d.id d.token
      exact ⟨moves.trans back, ⟨_, kept, .inl rfl⟩, fun w hw there _ => mem_filter_isOpen hw there,
        fun _ hreply => absurd hreply List.not_mem_nil⟩
  | none =>
    cases wait with
    | true =>
      simp only [serve, if_true]
      exact ⟨moves, ⟨_, kept, .inr ⟨⟨owner, rfl⟩, fun _ => List.not_mem_nil⟩⟩,
        fun w hw there _ => List.mem_append_left _ (mem_filter_isOpen hw there),
        fun _ hreply => absurd hreply List.not_mem_nil⟩
    | false =>
      simp only [serve, Bool.false_eq_true, if_false]
      refine ⟨moves, ⟨_, kept, .inl rfl⟩, fun w hw there _ => mem_filter_isOpen hw there, ?_⟩
      intro reply hreply
      rw [List.mem_singleton.mp hreply]
      exact .inl ⟨rfl, by simp⟩

private theorem Carried.settled (c : Carried h call t replies h') :
    Carried h call t ((call, .settled) :: replies) h' where
  moves := c.moves
  line := by
    obtain ⟨kept, sub, same | ⟨joined, none⟩⟩ := c.line
    · exact ⟨kept, sub, .inl same⟩
    · exact ⟨kept, sub, .inr ⟨joined, by simpa using none⟩⟩
  stays := c.stays
  answers reply hreply := by
    rcases List.mem_cons.mp hreply with rfl | hreply
    · exact .inl ⟨rfl, by simp⟩
    · exact c.answers reply hreply

private theorem carried_release (hq : h.queue.Coherent) (m : Moment) (owner : Nat) :
    Carried h call (.request m (.release owner)) (h.handle m call (.release owner)).1
      (h.handle m call (.release owner)).2 where
  moves := Queue.moves_releaseIn hq m.order owner m.now
  line := ⟨_, List.filter_sublist, .inl rfl⟩
  stays w hw _ spared := by
    refine List.mem_filter.mpr ⟨hw, ?_⟩
    have other : w.owner ≠ owner := fun e => spared (e ▸ ⟨m, rfl⟩)
    simpa using other
  answers reply hreply := by
    obtain ⟨w, hw, rfl⟩ := List.mem_map.mp hreply
    obtain ⟨stood, released⟩ := List.mem_filter.mp hw
    have owned : w.owner = owner := by simpa using released
    exact .inr ⟨rfl, w.owner, owned ▸ ⟨m, rfl⟩, stood⟩

/-- Requests and sweeps keep to this. -/
theorem carried_act (hq : h.queue.Coherent) (call : Nat) (t : Turn) :
    Carried h call t (h.act call t).1 (h.act call t).2 := by
  cases t with
  | timer m =>
    exact ⟨Queue.moves_sweepIn hq m.order m.now, ⟨_, .refl _, .inl rfl⟩, fun w hw _ _ => hw,
      fun _ hreply => absurd hreply List.not_mem_nil⟩
  | request m request =>
    rw [act]
    cases request with
    | push owner id payload priority delay =>
      have moves := Queue.moves_push h.queue id payload priority delay m.now
      rw [handle]
      cases pushed : h.queue.push id payload priority delay m.now with
      | mk result queue =>
        rw [pushed] at moves
        cases result <;> exact carried_answer moves (by simp)
    | pop owner wait => exact carried_serve (Queue.moves_pop hq owner m.now) owner wait _
    | ack id token requeue delay =>
      have moves := Queue.moves_ack h.queue id token requeue delay m.now
      rw [handle]
      cases acked : h.queue.ack id token requeue delay m.now with
      | mk result queue =>
        rw [acked] at moves
        cases result <;> exact carried_answer moves (by simp)
    | ackPop owner id token requeue delay wait =>
      have moves := Queue.moves_ackPop hq id token requeue delay owner m.now
      rw [handle]
      cases acked : h.queue.ackPop id token requeue delay owner m.now with
      | mk result queue =>
        rw [acked] at moves
        cases result with
        | error e => exact carried_answer moves (by simp)
        | ok next => exact (carried_serve moves owner wait next).settled
    | counts => exact carried_answer .refl (by simp)
    | stats => exact carried_answer .refl (by simp)
    | listFailed limit => exact carried_answer .refl (by simp)
    | eraseFailed ids => exact carried_answer (Queue.moves_eraseFailed h.queue ids) (by simp)
    | release owner => exact carried_release hq m owner

end Carry

end Hub
end WorkBroker
