import WorkBroker.Proofs.Hub.Callers
import WorkBroker.Proofs.Queue.History
/-!
Calls that race with the hub.  The hub looks at a call more than once in a turn, and between any two
looks the caller may turn away.  What a caller does concerns the hub only when it looks at that
call, so the departures of a turn can be sorted by these looks: those before the hub hands a
delivery to the call that it carries out, those before it comes to a call in line, and those between
this and the hand-over.  A delivery that is offered to a call that is still open is there for it,
and one that is offered to a closed call is put back.
-/

set_option autoImplicit false
set_option relaxedAutoImplicit false

namespace WorkBroker

/-- A request together with how long its caller waits.  Only who asks for a message waits, and
stands in line for it. -/
def Request.timed (wait : Option Duration) : Request → Request × Option Duration
  | .pop owner _ => (.pop owner wait.isSome, wait)
  | .ackPop owner id token requeue delay _ =>
    (.ackPop owner id token requeue delay wait.isSome, wait)
  | request => (request, none)

namespace Desk

variable {d : Desk} {f : Call → Call} {number : Nat}

/-- Whether the hub finds a call open. -/
def isOpen (d : Desk) (number : Nat) : Bool :=
  match d.find? number with
  | some c => c.isOpen
  | none => false

def mapCalls (d : Desk) (f : Call → Call) : Desk := { d with calls := d.calls.map f }

theorem mapCalls_mapCalls (d : Desk) (f g : Call → Call) :
    (d.mapCalls f).mapCalls g = d.mapCalls (g ∘ f) := by
  simp only [mapCalls, List.map_map]

theorem find?_mapCalls (hf : ∀ c, (f c).number = c.number) (number : Nat) :
    (d.mapCalls f).find? number = (d.find? number).map f := by
  have comp : ((fun c : Call => c.number == number) ∘ f) = fun c => c.number == number := by
    funext c
    simp [hf]
  rw [find?, mapCalls, List.find?_map, comp, find?]

theorem deliver_eq (d : Desk) (now : Instant) (replies : List Reply) :
    d.deliver now replies = d.mapCalls (·.hear now replies) := by
  induction replies generalizing d with
  | nil =>
    show d = { d with calls := d.calls.map fun c => c }
    rw [List.map_id']
  | cons reply replies ih =>
    show (d.modify reply.1 (·.receive reply.2 now)).deliver now replies = _
    rw [ih]
    exact mapCalls_mapCalls d _ _

theorem deliver_append (d : Desk) (now : Instant) (replies more : List Reply) :
    d.deliver now (replies ++ more) = (d.deliver now replies).deliver now more :=
  List.foldl_append

def depart (d : Desk) (xs : List Departure) : Desk := d.mapCalls (·.departs xs)

theorem find?_mem {c : Call} (h : d.find? number = some c) : c ∈ d.calls ∧ c.number = number :=
  ⟨List.mem_of_find?_eq_some h, by simpa using List.find?_some h⟩

theorem find?_number {c : Call} (unique : (d.calls.map (·.number)).Nodup) (hc : c ∈ d.calls) :
    d.find? c.number = some c := by
  cases h : d.find? c.number with
  | none =>
    have absent := List.find?_eq_none.mp h c hc
    simp at absent
  | some b =>
    obtain ⟨hb, same⟩ := find?_mem h
    rw [List.inj_on_of_nodup_map unique hb hc same]

theorem isOpen_of_find? {c : Call} (h : d.find? number = some c) : d.isOpen number = c.isOpen := by
  simp only [isOpen, h]

theorem isOpen_hear (d : Desk) (now : Instant) {replies : List Reply}
    (silent : answersTo replies number = []) :
    (d.mapCalls (·.hear now replies)).isOpen number = d.isOpen number := by
  rw [isOpen, find?_mapCalls fun c => (c.hear_same now _).1, isOpen]
  cases h : d.find? number with
  | none => rfl
  | some c =>
    rw [← (find?_mem h).2] at silent
    exact c.isOpen_hear now silent

end Desk

/-- A desk in the course of a run: what the hub has done to its queue so far, and who has turned
away. -/
structure Race where
  desk : Desk
  deeds : List Deed
  departures : List Departure

namespace Race

def ofSettings (settings : QueueSettings) : Race := ⟨Desk.ofSettings settings, [], []⟩

def depart (s : Race) (xs : List Departure) : Race :=
  { s with desk := s.desk.depart xs, departures := s.departures ++ xs }

def hand (s : Race) (hub : Hub) (inbox : List Nat) (deeds : List Deed) (now : Instant)
    (replies : List Reply) : Race :=
  { s with
    desk := { s.desk with hub, inbox }.deliver now replies
    deeds := s.deeds ++ deeds }

/-- The hub carries out a request.  Callers may turn away after the settlement, and before what is
found is handed over. -/
def carry (s : Race) (now : Instant) (order : VisitOrder) (number : Nat) (request : Request)
    (inbox : List Nat) (between : List Departure) : Race :=
  let settled := s.hand s.desk.hub s.desk.inbox [] now (s.desk.hub.settlements now number request)
  let met := settled.depart between
  -- The line is looked through before anybody turns away, the delivery handed over after that.
  let first : Receivers := ⟨s.desk.isOpen, met.desk.isOpen⟩
  let m : Moment := ⟨now, first, first, fun _ => now, order⟩
  let (replies, hub) := s.desk.hub.handle m number request
  met.hand hub inbox (s.desk.hub.requestDeeds m number request) now replies

def sweep (s : Race) (now : Instant) (order : VisitOrder) : Race :=
  let r : Receivers := ⟨s.desk.isOpen, s.desk.isOpen⟩
  let m : Moment := ⟨now, r, r, fun _ => now, order⟩
  s.hand (s.desk.hub.sweep m) s.desk.inbox [.other (.sweep order now)] now []

/-- The hub serves the line.  Callers may turn away before the hub comes to them, and after that,
before what is found is handed over. -/
def attend (s : Race) (now : Instant) (servedAt : Nat → Instant) (before between : List Departure) :
    Race :=
  let seen := s.depart before
  let met := seen.depart between
  let r : Receivers := ⟨seen.desk.isOpen, met.desk.isOpen⟩
  let (replies, hub) := Hub.serveLine r servedAt s.desk.hub.line s.desk.hub.queue
  met.hand hub s.desk.inbox
    ((Hub.lineLooks r servedAt s.desk.hub.line s.desk.hub.queue).map .look) now replies

/-- What can happen: a call is made, the hub takes a turn for a request or for a timer, a caller
turns away or looks for its answer, or the hub stops. -/
inductive Event
  | submit (request : Request) (wait : Option Duration) (now : Instant)
  | work (now : Instant) (servedAt : Nat → Instant) (order : VisitOrder)
      (asked before between : List Departure)
  | tick (now : Instant) (servedAt : Nat → Instant) (order : VisitOrder)
      (before between : List Departure)
  | depart (x : Departure)
  | collect (call : Nat)
  | stop

def step (s : Race) : Event → Race
  | .submit request wait now =>
    let (request, wait) := request.timed wait
    { s with desk := (s.desk.submit request wait now).2 }
  | .work now servedAt order asked before between =>
    match s.desk.inbox with
    | [] => s
    | number :: inbox =>
      match s.desk.find? number with
      | none => { s with desk := { s.desk with inbox } }
      | some call =>
        let s := s.carry now order number call.request inbox asked
        let s := s.attend now servedAt before between
        if Desk.wantsAnswer call.request then s else { s with desk := s.desk.forget number }
  | .tick now servedAt order before between =>
    if s.desk.stopped then s else (s.sweep now order).attend now servedAt before between
  | .depart x => s.depart [x]
  | .collect call => { s with desk := s.desk.modify call (·.collect) }
  | .stop => { s with desk := s.desk.stop }

def life (settings : QueueSettings) (events : List Event) : Race :=
  events.foldl step (ofSettings settings)

theorem life_concat (settings : QueueSettings) (events : List Event) (e : Event) :
    life settings (events ++ [e]) = (life settings events).step e :=
  List.foldl_append

section Desks

theorem desk_hand (s : Race) (hub : Hub) (inbox : List Nat) (deeds : List Deed) (now : Instant)
    (replies : List Reply) :
    (s.hand hub inbox deeds now replies).desk =
      { s.desk with hub, inbox }.mapCalls (·.hear now replies) :=
  Desk.deliver_eq _ now replies

def request? (s : Race) (n : Nat) : Option Request := (s.desk.find? n).map (·.request)

private theorem request_hand (s : Race) (hub : Hub) (inbox : List Nat) (deeds : List Deed)
    (now : Instant) (replies : List Reply) (n : Nat) :
    (s.hand hub inbox deeds now replies).request? n = s.request? n := by
  have same := fun c : Call => c.hear_same now replies
  rw [request?, desk_hand, Desk.find?_mapCalls fun c => (same c).1, Option.map_map]
  exact congrArg (Option.map · _) (funext fun c => (same c).2.1)

private theorem request_depart (s : Race) (xs : List Departure) (n : Nat) :
    (s.depart xs).request? n = s.request? n := by
  have same := fun c : Call => c.departs_same xs
  rw [request?, depart, Desk.depart, Desk.find?_mapCalls fun c => (same c).1, Option.map_map]
  exact congrArg (Option.map · _) (funext fun c => (same c).2.1)

theorem request_carry (s : Race) (now : Instant) (order : VisitOrder) (number : Nat)
    (request : Request) (inbox : List Nat) (between : List Departure) (n : Nat) :
    (s.carry now order number request inbox between).request? n = s.request? n := by
  rw [carry, request_hand, request_depart, request_hand]

theorem request_attend (s : Race) (now : Instant) (servedAt : Nat → Instant)
    (before between : List Departure) (n : Nat) :
    (s.attend now servedAt before between).request? n = s.request? n := by
  rw [attend, request_hand, request_depart, request_depart]

theorem inbox_carry (s : Race) (now : Instant) (order : VisitOrder) (number : Nat)
    (request : Request) (inbox : List Nat) (between : List Departure) :
    (s.carry now order number request inbox between).desk.inbox = inbox := by
  rw [carry, desk_hand]
  rfl

theorem inbox_attend (s : Race) (now : Instant) (servedAt : Nat → Instant)
    (before between : List Departure) :
    (s.attend now servedAt before between).desk.inbox = s.desk.inbox := by
  rw [attend, desk_hand]
  rfl

end Desks

end Race
end WorkBroker
