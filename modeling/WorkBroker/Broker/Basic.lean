import WorkBroker.Broker.Conversation
import WorkBroker.Broker.Floor
import WorkBroker.Hub.Timeline
/-!
A running broker, packet by packet: its books, the hub, and one conversation per admitted
connection.  What the broker cannot do by itself, such as sending a packet, it asks of the transport
as an order.
-/

set_option autoImplicit false
set_option relaxedAutoImplicit false

namespace WorkBroker

structure Talk where
  id : Nat
  stage : Stage
  call : Option Nat
  deriving Inhabited

/-- What the transport of a connection is told to do. -/
inductive Order
  | send (p : Packet)
  | refuse (reason : RejectReason)
  deriving DecidableEq, Inhabited

structure Broker where
  settings : Settings
  floor : Floor
  hub : Timeline
  talks : List Talk
  cancelled : Bool
  deriving Inhabited

namespace Broker

def start (s : Settings) : Broker :=
  { settings := s, floor := Floor.ofLimit s.maxConnections.toNat,
    hub := Timeline.ofSettings s.queue s.sweepPeriod, talks := [], cancelled := false }

def start? (s : Settings) : Except BrokerError Broker :=
  match s.fault? with
  | some fault => .error (.config fault)
  | none => .ok (start s)

def talk? (b : Broker) (id : Nat) : Option Talk := b.talks.find? (·.id == id)

def setTalk (b : Broker) (t : Talk) : Broker :=
  { b with talks := b.talks.map fun u => if u.id == t.id then t else u }

def arrive (b : Broker) : (Nat × Bool) × Broker :=
  match b.floor.arrive with
  | ((id, true), floor) =>
    ((id, true), { b with floor, talks := b.talks ++ [⟨id, .greeting, none⟩] })
  | ((id, false), floor) => ((id, false), { b with floor })

def perform (id : Nat) (b : Broker) : Conversation.Effect → List Order × Broker
  | .note occasion => ([], { b with floor := b.floor.note occasion })
  | .introduce role clientId => ([], { b with floor := b.floor.introduce id role clientId })
  | .send p => ([.send p], b)
  | .refuse reason => ([.refuse reason], b)
  | .consult request wait =>
    let (number, hub) := b.hub.submit request wait
    ([], { b with
      hub
      talks := b.talks.map fun t => if t.id == id then { t with call := some number } else t })
  | .release => ([], { b with hub := (b.hub.submit (.release id) none).2 })

def performAll (id : Nat) (b : Broker) : List Conversation.Effect → List Order × Broker
  | [] => ([], b)
  | effect :: rest =>
    let (first, b) := b.perform id effect
    let (others, b) := b.performAll id rest
    (first ++ others, b)

def occur (b : Broker) (id : Nat) (event : Conversation.Event) : List Order × Broker :=
  match b.talk? id with
  | none => ([], b)
  | some t =>
    let (effects, stage) := Conversation.step b.settings id t.stage event
    (b.setTalk { t with stage }).performAll id effects

def forget (b : Broker) (number : Nat) : Broker :=
  { b with hub := { b.hub with desk := b.hub.desk.forget number } }

/-- The answer that has come for the conversation on connection `id`; a client whose time is over gets
one now. -/
def fetch (b : Broker) (id : Nat) : Option (Except BrokerError Answer × Broker) :=
  match b.talk? id with
  | some { call := some number, stage, .. } =>
    ((b.hub.look number).desk.result? number).map fun result =>
      (result, (b.setTalk ⟨id, stage, none⟩).forget number)
  | _ => none

/-- The moment at which the client of connection `id` gives up waiting for an answer. -/
def patienceOf? (b : Broker) (id : Nat) : Option Instant :=
  match b.talk? id with
  | some { call := some number, .. } => (b.hub.desk.find? number).bind (·.deadline?)
  | _ => none

def depart (b : Broker) (id : Nat) : Broker :=
  let b := match b.talk? id with
    | some { call := some number, .. } => b.forget number
    | _ => b
  { b with floor := b.floor.leave id, talks := b.talks.filter (·.id != id) }

/-- The hub does what it has to do at the current moment.  The numbers are those of the connections
that it replies to, in order. -/
def turn (b : Broker) : List Nat × Broker :=
  let (calls, hub) := b.hub.turn
  let owner? (call : Nat) : Option Nat := (b.talks.find? (·.call == some call)).map (·.id)
  (calls.filterMap owner?, { b with hub })

def isAsked (b : Broker) : Bool := !b.hub.desk.inbox.isEmpty

def elapse (b : Broker) (now : Instant) : Broker := { b with hub := { b.hub with now } }

/-- The broker begins to shut down: the hub stops. -/
def cancel (b : Broker) : Broker := { b with hub := b.hub.stop, cancelled := true }

def stats (b : Broker) : QueueStats := b.hub.desk.hub.queue.stats

def counts (b : Broker) : QueueCounts := b.hub.desk.hub.queue.counts

end Broker
end WorkBroker
