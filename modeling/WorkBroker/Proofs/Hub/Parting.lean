import WorkBroker.Proofs.Hub.Deeds
import WorkBroker.Proofs.Hub.Line
/-!
What a connection leaves behind.  The turn that releases it takes its consumers out of line and its
messages back, one failed attempt each, and then serves those who are left in line; nobody else
loses a message, and nobody gets one but by being served.  From then on the hub has nothing of the
connection as long as no request of its own comes.
-/

set_option autoImplicit false
set_option relaxedAutoImplicit false

namespace WorkBroker.Hub

variable {h : Hub} {m : Moment} {p : Nat → Prop} {call owner : Nat}

/-- Whether those in line and those who have a delivery out are connections of a kind. -/
structure BelongsTo (h : Hub) (p : Nat → Prop) : Prop where
  line : ∀ w ∈ h.line, p w.owner
  loans : ∀ l, h.queue.Runs l → p l.owner

theorem BelongsTo.mono (b : h.BelongsTo p) {p' : Nat → Prop} (weaker : ∀ id, p id → p' id) :
    h.BelongsTo p' :=
  ⟨fun w hw => weaker w.owner (b.line w hw), fun l runs => weaker l.owner (b.loans l runs)⟩

theorem BelongsTo.shrink (b : h.BelongsTo p) {h' : Hub} (line : ∀ w ∈ h'.line, w ∈ h.line)
    (loans : ∀ l, h'.queue.Runs l → h.queue.Runs l) : h'.BelongsTo p :=
  ⟨fun w hw => b.line w (line w hw), fun l runs => b.loans l (loans l runs)⟩

private theorem BelongsTo.pop (b : h.BelongsTo p) (hq : h.queue.Coherent) (mine : p owner)
    (now : Instant) :
    (Hub.mk (h.queue.pop owner now).2 h.line).BelongsTo p where
  line := b.line
  loans l runs := by
    rcases (Queue.runs_pop hq owner now l).mp runs with ⟨d, -, rfl⟩ | runs
    · exact mine
    · exact b.loans l runs

private theorem BelongsTo.handOver (b : h.BelongsTo p) (r : Receivers) (call : Nat) (d : Delivery) :
    (h.handOver r call d).2.BelongsTo p := by
  rw [Hub.handOver]
  split_ifs
  · exact b
  · exact b.shrink (fun _ hw => hw) fun l runs => ((Queue.runs_unpop _ _ _ l).mp runs).1

private theorem BelongsTo.serve (b : h.BelongsTo p) (r : Receivers) (mine : p owner) (wait : Bool)
    (call : Nat) (next : Option Delivery) : (h.serve r owner wait call next).2.BelongsTo p := by
  have there : BelongsTo ⟨h.queue, h.line.filter fun w => r.isOpen w.call⟩ p :=
    b.shrink (fun w hw => (List.mem_filter.mp hw).1) fun l runs => runs
  cases next with
  | some d => exact there.handOver r call d
  | none =>
    rw [Hub.serve]
    dsimp only
    split_ifs
    · refine ⟨fun w hw => ?_, there.loans⟩
      rcases List.mem_append.mp hw with hw | hw
      · exact there.line w hw
      · rw [List.mem_singleton.mp hw]
        exact mine
    · exact there

private theorem BelongsTo.handle (b : h.BelongsTo p) (hq : h.queue.Coherent) (m : Moment)
    (call : Nat)
    {request : Request} (asker : ∀ owner stays, request.asker? = some (owner, stays) → p owner) :
    (h.handle m call request).2.BelongsTo p := by
  cases request with
  | push owner id payload priority delay =>
    have same := Queue.runs_push h.queue id payload priority delay m.now
    rw [Hub.handle]
    cases pushed : h.queue.push id payload priority delay m.now with
    | mk result queue =>
      rw [pushed] at same
      cases result <;> exact b.shrink (fun _ hw => hw) fun l => (same l).mp
  | pop owner wait =>
    have mine := asker owner wait rfl
    exact (b.pop hq mine m.now).serve m.first mine wait call _
  | ack id token requeue delay =>
    have fewer := Queue.runs_ack h.queue id token requeue delay m.now
    rw [Hub.handle]
    cases acked : h.queue.ack id token requeue delay m.now with
    | mk result queue =>
      rw [acked] at fewer
      cases result <;> exact b.shrink (fun _ hw => hw) fun l runs => ((fewer l).mp runs).1
  | ackPop owner id token requeue delay wait =>
    have mine := asker owner wait rfl
    have fewer := Queue.runs_ack h.queue id token requeue delay m.now
    have moves := Queue.moves_ack h.queue id token requeue delay m.now
    rw [Hub.handle, Queue.ackPop]
    cases acked : h.queue.ack id token requeue delay m.now with
    | mk result queue =>
      rw [acked] at fewer moves
      have rest : BelongsTo ⟨queue, h.line⟩ p :=
        b.shrink (fun _ hw => hw) fun l runs => ((fewer l).mp runs).1
      cases result with
      | error e => exact rest
      | ok _ => exact (rest.pop (moves.coherent hq) mine m.now).serve m.first mine wait call _
  | counts | stats | listFailed => exact b
  | eraseFailed ids =>
    exact b.shrink (fun _ hw => hw) fun l => (Queue.runs_eraseFailed h.queue ids l).mp
  | release owner =>
    refine b.shrink (fun w hw => (List.mem_filter.mp hw).1) fun l runs => ?_
    exact ((Queue.runs_releaseIn hq m.order owner m.now l).mp runs).1

private theorem belongsTo_serveLine (r : Receivers) (servedAt : Nat → Instant) {line : List Waiter}
    {queue : Queue} (hq : queue.Coherent) (b : BelongsTo ⟨queue, line⟩ p) :
    (serveLine r servedAt line queue).2.BelongsTo p := by
  induction line generalizing queue with
  | nil => exact b
  | cons w rest ih =>
    have mine : p w.owner := b.line w List.mem_cons_self
    have others : BelongsTo ⟨queue, rest⟩ p :=
      b.shrink (fun _ hw => List.mem_cons_of_mem w hw) fun _ runs => runs
    rw [serveLine]
    split_ifs with ready away
    · exact b
    · exact ih hq others
    · have given := others.pop hq mine (servedAt w.call)
      have moves := Queue.moves_pop hq w.owner (servedAt w.call)
      cases popped : queue.pop w.owner (servedAt w.call) with
      | mk found queue' =>
        rw [popped] at given moves
        cases found with
        | none => exact given
        | some d =>
          have out := moves.coherent hq
          by_cases accepts : r.accepts w.call
          · simp only [Hub.handOver, accepts, if_true]
            exact ih out given
          · simp only [Hub.handOver, accepts, Bool.false_eq_true, if_false]
            refine ih ((Queue.moves_unpop queue' d.id d.token).coherent out) ?_
            exact given.shrink (fun _ hw => hw) fun l runs => ((Queue.runs_unpop _ _ _ l).mp runs).1

theorem BelongsTo.turn (b : h.BelongsTo p) (hq : h.queue.Coherent) (m : Moment) (call : Nat)
    {request : Request} (asker : ∀ owner stays, request.asker? = some (owner, stays) → p owner) :
    (h.turn m call request).2.BelongsTo p :=
  belongsTo_serveLine m.later m.servedAt
    ((carried_act hq call (.request m request)).moves.coherent hq) (b.handle hq m call asker)

/-- A release leaves its connection nothing. -/
theorem belongsTo_turn_release (hq : h.queue.Coherent) (m : Moment) (call owner : Nat) :
    (h.turn m call (.release owner)).2.BelongsTo (· ≠ owner) := by
  have left : (h.handle m call (.release owner)).2.BelongsTo (· ≠ owner) := by
    constructor
    · intro w hw
      simpa using (List.mem_filter.mp hw).2
    · intro l runs
      exact ((Queue.runs_releaseIn hq m.order owner m.now l).mp runs).2
  exact belongsTo_serveLine m.later m.servedAt
    ((carried_act hq call (.request m (.release owner))).moves.coherent hq) left

theorem BelongsTo.tick (b : h.BelongsTo p) (hq : h.queue.Coherent) (m : Moment) :
    (h.tick m).2.BelongsTo p := by
  have swept : (h.sweep m).BelongsTo p :=
    b.shrink (fun _ hw => hw) fun l runs => ((Queue.runs_sweepIn hq m.order m.now l).mp runs).1
  exact belongsTo_serveLine m.later m.servedAt ((Queue.moves_sweepIn hq m.order m.now).coherent hq)
    swept

/-! ### What becomes of the messages -/

/-- Whether a message is out for one of a line who was reached. -/
def GivenTo (r : Receivers) (servedAt : Nat → Instant) (line : List Waiter)
    (state : MessageState) : Prop :=
  ∃ w ∈ line, r.takes w ∧ ∃ token, state = .running token w.owner (servedAt w.call)

private theorem GivenTo.mono {r : Receivers} {servedAt : Nat → Instant} {line more : List Waiter}
    {state : MessageState} (g : GivenTo r servedAt line state) (sub : line ⊆ more) :
    GivenTo r servedAt more state := by
  obtain ⟨w, hw, rest⟩ := g
  exact ⟨w, sub hw, rest⟩

/-- Whether a message is as it was, or was ready and is out for one of a line. -/
def KeptOrGiven (r : Receivers) (servedAt : Nat → Instant) (line : List Waiter) (q q' : Queue)
    (id : String) : Prop :=
  q'.find? id = q.find? id ∨
    ∃ x state, q.find? id = some x ∧ x.state = .queued ∧ GivenTo r servedAt line state ∧
      q'.find? id = some { x with state }

private theorem keptOrGiven_serveLine (r : Receivers) (servedAt : Nat → Instant)
    (line : List Waiter) {queue : Queue} (hq : queue.Coherent) (id : String) :
    KeptOrGiven r servedAt line queue (serveLine r servedAt line queue).2.queue id := by
  induction line generalizing queue with
  | nil => exact .inl rfl
  | cons w rest ih =>
    have sub : rest ⊆ w :: rest := List.subset_cons_self w rest
    have later {q : Queue} (same : q.find? id = queue.find? id) (hq : q.Coherent) :
        KeptOrGiven r servedAt (w :: rest) queue (serveLine r servedAt rest q).2.queue id := by
      rcases ih hq with kept | ⟨x, state, hx, ready, given, now⟩
      · exact .inl (kept.trans same)
      · exact .inr ⟨x, state, same ▸ hx, ready, given.mono sub, now⟩
    rw [serveLine]
    split_ifs with ready away
    · exact .inl rfl
    · exact later rfl hq
    · rcases hq.pop_cases w.owner (servedAt w.call) with ⟨-, -, h⟩ | ⟨x, hx, state, front, -, h⟩
      · rw [h]
        exact .inl rfl
      · rw [h]
        have given := hq.taken hx state front w.owner (servedAt w.call)
        have found := Queue.find?_taken hx w.owner (servedAt w.call)
        by_cases accepts : r.accepts w.call
        · simp only [Hub.handOver, accepts, if_true]
          by_cases e : id = x.id
          · subst e
            have out := (found x.id).trans (if_pos rfl)
            rcases ih given with kept | ⟨y, -, hy, ready', -, -⟩
            · have there : r.takes w := by simpa [Receivers.takes, accepts] using away
              exact .inr ⟨x, _, hx, state, ⟨w, List.mem_cons_self, there, _, rfl⟩, kept.trans out⟩
            · -- Whoever has got the message is not asked to give it up.
              obtain rfl := Option.some.inj (out.symm.trans hy)
              cases ready'
          · exact later ((found id).trans (if_neg e)) given
        · simp only [Hub.handOver, accepts, Bool.false_eq_true, if_false]
          -- The message goes back where it was.
          have back := (Queue.moves_unpop _ x.id queue.nextToken).coherent given
          rw [hq.unpop_taken hx state front] at back ⊢
          exact later rfl back

/-- A message after one failed attempt: it has failed for good, or it stands in the lane of its
priority, or it has been given away from there. -/
structure Retried (maxRetries : Nat) (q : Queue) (given : MessageState → Prop) (x x' : Message) :
    Prop where
  id_eq : x'.id = x.id
  priority_eq : x'.priority = x.priority
  payload_eq : x'.payload = x.payload
  failures_eq : x'.failures = x.failures + 1
  fate : if maxRetries < x'.failures then x'.state = .failed
    else x'.lane = x'.priority ∧
      (x'.state = .queued ∧ x'.id ∈ q.lane x'.priority ∨ given x'.state)

def othersThan (h : Hub) (owner : Nat) : List Waiter := h.line.filter (·.owner != owner)

section Release

variable {id : String} {x : Message} (hq : h.queue.Coherent) (m : Moment) (call owner : Nat)

include hq

private theorem moves_dispatch : Queue.Moves h.queue (h.dispatch m).2.queue := by
  have served := reached_serveLine m.later m.servedAt h.line hq
  rw [dispatch, served.queue_eq]
  exact Queue.moves_after hq _

theorem moves_turn (request : Request) :
    Queue.Moves h.queue (h.turn m call request).2.queue := by
  have acted := (carried_act hq call (.request m request)).moves
  exact acted.trans (moves_dispatch (acted.coherent hq) m)

theorem moves_tick : Queue.Moves h.queue (h.tick m).2.queue := by
  have swept := Queue.moves_sweepIn hq m.order m.now
  exact swept.trans (moves_dispatch (h := h.sweep m) (swept.coherent hq) m)

private theorem retried_turn_release (hx : h.queue.find? id = some x)
    (held : x.state.isHeldBy owner) :
    ∃ x', (h.turn m call (.release owner)).2.queue.find? id = some x' ∧
      Retried h.queue.settings.maxRetries (h.turn m call (.release owner)).2.queue
        (GivenTo m.later m.servedAt (h.othersThan owner)) x x' := by
  have coherent := (moves_turn hq m call (.release owner)).coherent hq
  have released := Queue.find?_releaseIn_eq hq m.order owner m.now id
  rw [hx, Option.map_some, if_pos held] at released
  have served := keptOrGiven_serveLine m.later m.servedAt (h.othersThan owner)
    ((Queue.moves_releaseIn hq m.order owner m.now).coherent hq) id
  obtain rfl := Queue.id_of_find? hx
  by_cases spent : h.queue.settings.maxRetries < x.failures + 1
  · rw [Queue.struck, if_pos spent] at released
    rcases served with kept | ⟨y, state, hy, ready, -, -⟩
    · refine ⟨_, kept.trans released, rfl, rfl, rfl, rfl, ?_⟩
      rw [if_pos spent]
    · obtain rfl := Option.some.inj (released.symm.trans hy)
      cases ready
  · rw [Queue.struck, if_neg spent] at released
    rcases served with kept | ⟨y, state, hy, ready, given, now⟩
    · have found := kept.trans released
      refine ⟨_, found, rfl, rfl, rfl, rfl, ?_⟩
      rw [if_neg spent]
      exact ⟨rfl, .inl ⟨rfl, (coherent.mem_lane_iff _ _).mpr ⟨_, found, rfl, rfl⟩⟩⟩
    · obtain rfl := Option.some.inj (released.symm.trans hy)
      refine ⟨_, now, rfl, rfl, rfl, rfl, ?_⟩
      rw [if_neg spent]
      exact ⟨rfl, .inr given⟩

/-- The turn that releases a connection leaves others what they hold. -/
theorem keptOrGiven_turn_release (free : ∀ x, h.queue.find? id = some x → ¬x.state.isHeldBy owner) :
    KeptOrGiven m.later m.servedAt (h.othersThan owner) h.queue
      (h.turn m call (.release owner)).2.queue id := by
  have released := Queue.find?_releaseIn_eq hq m.order owner m.now id
  have served := keptOrGiven_serveLine m.later m.servedAt (h.othersThan owner)
    ((Queue.moves_releaseIn hq m.order owner m.now).coherent hq) id
  have same : (h.queue.releaseIn m.order owner m.now).2.find? id = h.queue.find? id := by
    rw [released]
    cases hx : h.queue.find? id with
    | none => rfl
    | some x => simp [free x hx]
  rcases served with kept | ⟨x, state, hx, ready, given, now⟩
  · exact .inl (kept.trans same)
  · exact .inr ⟨x, state, same ▸ hx, ready, given, now⟩

/-- Whether a turn takes back what an owner holds and leaves the rest alone, but for what it gives
to others in line. -/
def Reclaims (maxRetries : Nat) (m : Moment) (owner : Nat) (h h' : Hub) : Prop :=
  ∀ id,
    (∀ x, h.queue.find? id = some x → x.state.isHeldBy owner →
      ∃ x', h'.queue.find? id = some x' ∧
        Retried maxRetries h'.queue (GivenTo m.later m.servedAt (h.othersThan owner)) x x') ∧
    ((∀ x, h.queue.find? id = some x → ¬x.state.isHeldBy owner) →
      KeptOrGiven m.later m.servedAt (h.othersThan owner) h.queue h'.queue id)

theorem reclaims_turn_release : Reclaims h.queue.settings.maxRetries m owner h
    (h.turn m call (.release owner)).2 := fun _ =>
  ⟨fun _ hx held => retried_turn_release hq m call owner hx held,
    fun free => keptOrGiven_turn_release hq m call owner free⟩

end Release

end WorkBroker.Hub
