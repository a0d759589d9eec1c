import WorkBroker.Queue.Operations
/-!
The hub is the only owner of the queue.  It handles one request at a time and keeps the consumers
that wait for a message in line, oldest first; whenever messages are ready it serves the line.

A request that wants an answer carries the number of its call.  Whoever made the call may have gone
since, so answers are offered against a view of the calls (`Receivers`): a delivery that nobody
takes goes back to the front of its lane.  What the hub meets in one turn and does not decide is its
`Moment`.
-/

set_option autoImplicit false
set_option relaxedAutoImplicit false

namespace WorkBroker

inductive Request
  | push (owner : Nat) (id : String) (payload : Bytes) (priority : Nat) (delay : Duration)
  | pop (owner : Nat) (wait : Bool)
  | ack (id : String) (token : Nat) (requeue : Bool) (delay : Duration)
  | ackPop (owner : Nat) (id : String) (token : Nat) (requeue : Bool) (delay : Duration)
      (wait : Bool)
  | counts
  | stats
  | listFailed (limit : Nat)
  | eraseFailed (ids : List String)
  | release (owner : Nat)
  deriving DecidableEq, Repr, Inhabited

/-- What the hub answers.  A call that settles one delivery and asks for the next is told first that
the settlement was accepted; a consumer that is sent out of the line without an answer is dropped. -/
inductive Answer
  | dropped
  | accepted
  | settled
  | refused (error : QueueError)
  | delivery (delivery : Option Delivery)
  | counts (counts : QueueCounts)
  | stats (stats : QueueStats)
  | failed (ids : List String) (truncated : Bool)
  | erased (ids : List String)
  deriving DecidableEq, Repr, Inhabited

/-- A consumer in line: the connection it belongs to and the call it made. -/
structure Waiter where
  owner : Nat
  call : Nat
  deriving DecidableEq, Repr, Inhabited

/-- Which calls are open when the hub looks, and which take the delivery it then hands over. -/
structure Receivers where
  isOpen : Nat → Bool
  accepts : Nat → Bool

/-- What the hub meets in one turn: the time, the calls as it finds them while it carries out a request
and then while it serves the line, when it serves each call, and the order in which messages that
fail together are visited. -/
structure Moment where
  now : Instant
  first : Receivers
  later : Receivers
  servedAt : Nat → Instant
  order : VisitOrder

def Moment.steady (isOpen : Nat → Bool) (now : Instant) : Moment :=
  ⟨now, ⟨isOpen, isOpen⟩, ⟨isOpen, isOpen⟩, fun _ => now, .arrival⟩

abbrev Reply := Nat × Answer

/-- The queue and the line of consumers that wait for a message, oldest first. -/
structure Hub where
  queue : Queue
  line : List Waiter
  deriving DecidableEq, Repr, Inhabited

namespace Hub

def ofSettings (settings : QueueSettings) : Hub := ⟨Queue.ofSettings settings, []⟩

/-- Gives a delivery to a call, or takes it back if the call does not accept it. -/
def handOver (h : Hub) (r : Receivers) (call : Nat) (d : Delivery) : List Reply × Hub :=
  if r.accepts call then ([(call, .delivery (some d))], h)
  else ([], { h with queue := (h.queue.unpop d.id d.token).2 })

/-- Answers a pop whose outcome is known: hands over the delivery, puts the consumer in line, or says
that nothing is ready.  Consumers that have gone leave the line. -/
def serve (h : Hub) (r : Receivers) (owner : Nat) (wait : Bool) (call : Nat)
    (next : Option Delivery) : List Reply × Hub :=
  let h := { h with line := h.line.filter fun w => r.isOpen w.call }
  match next with
  | some d => h.handOver r call d
  | none =>
    if wait then ([], { h with line := h.line ++ [⟨owner, call⟩] })
    else ([(call, .delivery none)], h)

def handle (h : Hub) (m : Moment) (call : Nat) : Request → List Reply × Hub
  | .push _ id payload priority delay =>
    match h.queue.push id payload priority delay m.now with
    | (.ok (), queue) => ([(call, .accepted)], { h with queue })
    | (.error e, queue) => ([(call, .refused e)], { h with queue })
  | .pop owner wait =>
    let (next, queue) := h.queue.pop owner m.now
    { h with queue }.serve m.first owner wait call next
  | .ack id token requeue delay =>
    match h.queue.ack id token requeue delay m.now with
    | (.ok (), queue) => ([(call, .accepted)], { h with queue })
    | (.error e, queue) => ([(call, .refused e)], { h with queue })
  | .ackPop owner id token requeue delay wait =>
    match h.queue.ackPop id token requeue delay owner m.now with
    | (.ok next, queue) =>
      let (replies, h) := { h with queue }.serve m.first owner wait call next
      ((call, .settled) :: replies, h)
    | (.error e, queue) => ([(call, .refused e)], { h with queue })
  | .counts => ([(call, .counts h.queue.counts)], h)
  | .stats => ([(call, .stats h.queue.stats)], h)
  | .listFailed limit =>
    let (ids, truncated) := h.queue.failedIds limit
    ([(call, .failed ids truncated)], h)
  | .eraseFailed ids =>
    let (erased, queue) := h.queue.eraseFailed ids
    ([(call, .erased erased)], { h with queue })
  | .release owner =>
    ((h.line.filter (·.owner == owner)).map fun w => (w.call, .dropped),
      ⟨(h.queue.releaseIn m.order owner m.now).2, h.line.filter (·.owner != owner)⟩)

/-- Serves a line from its front while messages are ready, and tells who still stands in it. -/
def serveLine (r : Receivers) (servedAt : Nat → Instant) :
    List Waiter → Queue → List Reply × Hub
  | [], queue => ([], ⟨queue, []⟩)
  | w :: rest, queue =>
    if !queue.hasReady then ([], ⟨queue, w :: rest⟩)
    else if !r.isOpen w.call then serveLine r servedAt rest queue
    else
      match queue.pop w.owner (servedAt w.call) with
      | (none, queue) => ([(w.call, .dropped)], ⟨queue, rest⟩)
      | (some d, queue) =>
        let (first, h) := (Hub.mk queue rest).handOver r w.call d
        let (others, h) := serveLine r servedAt rest h.queue
        (first ++ others, h)

def dispatch (h : Hub) (m : Moment) : List Reply × Hub :=
  serveLine m.later m.servedAt h.line h.queue

def sweep (h : Hub) (m : Moment) : Hub :=
  { h with queue := (h.queue.sweepIn m.order m.now).2 }

/-- One turn for a request: it is carried out, then the line is served. -/
def turn (h : Hub) (m : Moment) (call : Nat) (request : Request) : List Reply × Hub :=
  let (first, h) := h.handle m call request
  let (others, h) := h.dispatch m
  (first ++ others, h)

def tick (h : Hub) (m : Moment) : List Reply × Hub := (h.sweep m).dispatch m

/-- The hub stops: everyone in line is sent away without an answer. -/
def stop (h : Hub) : List Reply × Hub :=
  (h.line.map fun w => (w.call, .dropped), { h with line := [] })

end Hub
end WorkBroker
