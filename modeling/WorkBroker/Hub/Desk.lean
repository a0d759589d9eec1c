import WorkBroker.Broker.Error
import WorkBroker.Hub.Basic
/-!
The hub together with its callers.  A call is submitted, waits in the inbox, is carried out, and
lives until its answer is fetched or its caller goes.  A caller that is willing to wait gives up
when its time is over or when it is cancelled; an answer that came before that is not lost.
-/

set_option autoImplicit false
set_option relaxedAutoImplicit false

namespace WorkBroker

inductive CallState
  /-- The hub has not answered. -/
  | pending
  /-- The hub has answered, and the caller has not looked. -/
  | offered (answer : Answer)
  /-- The caller has its result. -/
  | finished (result : Except BrokerError Answer)
  /-- The caller has gone without a result. -/
  | gone
  deriving Inhabited

/-- A call to the hub.  `wait` is how long a caller in line stays; the time runs from the moment at
which the call is past any settlement (`since`). -/
structure Call where
  number : Nat
  request : Request
  wait : Option Duration
  since : Option Instant
  state : CallState
  deriving Inhabited

namespace Call

def isOpen (c : Call) : Bool :=
  match c.state with
  | .pending => true
  | _ => false

def isWaiting (c : Call) : Bool :=
  match c.state with
  | .pending | .offered _ => true
  | _ => false

def deadline? (c : Call) : Option Instant :=
  match c.isWaiting, c.wait, c.since with
  | true, some wait, some since => some (since.afterWait wait)
  | _, _, _ => none

def receive (c : Call) (answer : Answer) (now : Instant) : Call :=
  match c.state, answer with
  | .pending, .settled => { c with since := some now }
  | .pending, answer => { c with state := .offered answer }
  | _, _ => c

/-- What an answer means to a caller: a call that is dropped without an answer means that the broker
shuts down. -/
def resultOf : Answer → Except BrokerError Answer
  | .refused e => .error (.queue e)
  | .dropped => .error .shuttingDown
  | answer => .ok answer

def collect (c : Call) : Call :=
  match c.state with
  | .offered answer => { c with state := .finished (resultOf answer) }
  | _ => c

/-- The caller gives up; a delivery that has come in time is taken all the same. -/
def giveUp (c : Call) : Call :=
  match c.state with
  | .pending | .offered .dropped => { c with state := .finished (.ok (.delivery none)) }
  | _ => c.collect

def expire (c : Call) (now : Instant) : Call :=
  match c.deadline? with
  | some deadline => if deadline ≤ now then c.giveUp else c
  | none => c

def stop (c : Call) : Call :=
  match c.state with
  | .pending => { c with state := .offered .dropped }
  | _ => c

/-- A caller that waits in line is told that the broker shuts down; what was on its way to it is
dropped. -/
def cancel (c : Call) : Call :=
  if c.deadline?.isSome then { c with state := .finished (.error .shuttingDown) } else c

def leave (c : Call) : Call := { c with state := .gone }

end Call

/-- The hub, the requests that it has not looked at, and the calls that it has not done with. -/
structure Desk where
  hub : Hub
  inbox : List Nat
  calls : List Call
  nextCall : Nat
  stopped : Bool
  deriving Inhabited

namespace Desk

def ofSettings (settings : QueueSettings) : Desk :=
  { hub := Hub.ofSettings settings, inbox := [], calls := [], nextCall := 0, stopped := false }

def find? (d : Desk) (number : Nat) : Option Call := d.calls.find? (·.number == number)

def modify (d : Desk) (number : Nat) (f : Call → Call) : Desk :=
  { d with calls := d.calls.map fun c => if c.number == number then f c else c }

def moment (d : Desk) (now : Instant) : Moment :=
  .steady
    (fun number =>
      match d.find? number with
      | some c => c.isOpen
      | none => false)
    now

/-- Whether a request waits for a delivery only after a settlement. -/
def settlesFirst : Request → Bool
  | .ackPop .. => true
  | _ => false

/-- Makes a call.  A desk that has stopped turns every caller away. -/
def submit (d : Desk) (request : Request) (wait : Option Duration) (now : Instant) : Nat × Desk :=
  let number := d.nextCall
  let call : Call :=
    { number, request, wait, since := if settlesFirst request then none else some now,
      state := if d.stopped then .finished (.error .shuttingDown) else .pending }
  (number,
    { d with
      inbox := if d.stopped then d.inbox else d.inbox ++ [number]
      calls := d.calls ++ [call]
      nextCall := number + 1 })

def deliver (d : Desk) (now : Instant) (replies : List Reply) : Desk :=
  replies.foldl (fun d reply => d.modify reply.1 (·.receive reply.2 now)) d

def forget (d : Desk) (number : Nat) : Desk :=
  { d with calls := d.calls.filter (·.number != number) }

/-- A request that nobody expects an answer to. -/
def wantsAnswer : Request → Bool
  | .release _ => false
  | _ => true

/-- The hub looks at the next request in the inbox.  The numbers are those of the calls that it replies
to, in order. -/
def work (d : Desk) (now : Instant) : List Nat × Desk :=
  match d.inbox with
  | [] => ([], d)
  | number :: inbox =>
    match d.find? number with
    | none => ([], { d with inbox })
    | some call =>
      let (replies, hub) := d.hub.turn (d.moment now) number call.request
      let d := { d with hub, inbox }.deliver now replies
      (replies.map (·.1), if wantsAnswer call.request then d else d.forget number)

def workAll (d : Desk) (now : Instant) : List Nat × Desk :=
  (List.range d.inbox.length).foldl
    (fun (replied, d) _ =>
      let (more, d) := d.work now
      (replied ++ more, d))
    ([], d)

def tick (d : Desk) (now : Instant) : List Nat × Desk :=
  if d.stopped then ([], d)
  else
    let (replies, hub) := d.hub.tick (d.moment now)
    (replies.map (·.1), { d with hub }.deliver now replies)

def collectAll (d : Desk) : Desk := { d with calls := d.calls.map (·.collect) }

def expire (d : Desk) (now : Instant) : Desk := { d with calls := d.calls.map (·.expire now) }

/-- The caller of one call looks for its answer, and gives up if its time is over. -/
def look (d : Desk) (number : Nat) (now : Instant) : Desk :=
  d.modify number fun c => (c.expire now).collect

/-- Makes a call that the hub looks at before anything else happens.  A caller that is in line at once
but has no time at all gives up even before that. -/
def ask (d : Desk) (request : Request) (wait : Option Duration) (now : Instant) : Nat × Desk :=
  let (number, d) := d.submit request wait now
  (number, ((d.expire now).workAll now).2)

def cancel (d : Desk) (number : Nat) : Desk := d.modify number (·.cancel)

def leave (d : Desk) (number : Nat) : Desk := d.modify number (·.leave)

def result? (d : Desk) (number : Nat) : Option (Except BrokerError Answer) :=
  match d.find? number with
  | some { state := .finished result, .. } => some result
  | _ => none

/-- The hub stops: it looks at no further request, and everyone who still waits is told so. -/
def stop (d : Desk) : Desk :=
  { d with
    stopped := true
    inbox := []
    hub := d.hub.stop.2
    calls := d.calls.map (·.stop) }

def nextDeadline? (d : Desk) : Option Instant :=
  d.calls.foldl (fun first c => Instant.earliest first c.deadline?) none

def nextDue? (d : Desk) : Option Instant :=
  if d.stopped then none else d.hub.queue.nextDue?.map (·.ceilMillis)

end Desk
end WorkBroker
