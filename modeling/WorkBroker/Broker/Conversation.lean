import WorkBroker.Broker.Metrics
import WorkBroker.Broker.Settings
import WorkBroker.Connection.Basic
import WorkBroker.Hub.Desk
/-!
What the broker says to one client, packet by packet.  A conversation starts with a hello and a
welcome; then every request is answered before the next one is read, either at once or after the hub
has been consulted.  Whichever way it ends, the last thing it does is to release what the client
still holds.

A conversation is a step function on events.  It knows nothing of bytes, timers or other clients.
-/

set_option autoImplicit false
set_option relaxedAutoImplicit false

namespace WorkBroker

inductive Stage
  /-- The hello has not come. -/
  | greeting
  /-- The welcome is on its way. -/
  | welcoming (role : Role)
  /-- The next request has not come. -/
  | listening (role : Role)
  /-- The hub has not answered a request. -/
  | asking (role : Role) (request : Packet)
  /-- A reply is on its way; afterwards the conversation may be over. -/
  | answering (role : Role) (last : Bool)
  /-- The complaint about a packet that only a broker may send is on its way. -/
  | dismissing (kind : String)
  /-- The client is being told that the broker shuts down. -/
  | refusing
  | over (result : Except ConnectionError Unit)
  deriving Inhabited

namespace Conversation

inductive Event
  | greeted (result : Except ConnectionError (Role × String))
  | received (result : Except ConnectionError Packet)
  | sent (result : Except ConnectionError Unit)
  | answered (result : Except BrokerError Answer)
  /-- The client has been told that the broker shuts down. -/
  | refused
  /-- The broker shuts down. -/
  | cancelled
  deriving Inhabited

inductive Effect
  | note (occasion : Occasion)
  /-- Put down who the client is. -/
  | introduce (role : Role) (clientId : String)
  | send (p : Packet)
  /-- Ask the hub, and wait for a delivery if a wait is given. -/
  | consult (request : Request) (wait : Option Duration)
  | refuse (reason : RejectReason)
  /-- Give back what the client holds. -/
  | release
  deriving Inhabited

/-- What is to be done about a request. -/
inductive Decision
  | part
  | reply (p : Packet)
  | consult (request : Request) (wait : Option Duration)
  /-- The packet is one that only a broker may send. -/
  | dismiss (kind : String)
  deriving Inhabited

/-- How long a client may wait for a delivery: never longer than it may be idle. -/
def patience (s : Settings) (ms : UInt32) : Option Duration :=
  if ms = 0 then none else some ((Duration.ofMillis ms.toNat).atMost s.idleLimit)

def delayOf (ms : UInt32) : Duration := Duration.ofMillis ms.toNat

def tooLarge (s : Settings) (id : String) (payload : Bytes) : Packet :=
  Packet.ofError .messageTooLarge
    s!"message {id} has {payload.length} bytes, limit is {s.maxMessageSize.toNat}"

def decide (s : Settings) (owner : Nat) (role : Role) (p : Packet) : Decision :=
  match role, p with
  | _, .goodbye => .part
  | _, .count => .consult .counts none
  | .producer, .push id priority delay payload =>
    if payload.length > s.maxMessageSize.toNat then .reply (tooLarge s id payload)
    else .consult (.push owner id payload priority.toNat (delayOf delay)) none
  | .consumer, .pop wait => .consult (.pop owner (patience s wait).isSome) (patience s wait)
  | .consumer, .ackPop id token requeue delay wait =>
    .consult (.ackPop owner id token.toNat requeue (delayOf delay) (patience s wait).isSome)
      (patience s wait)
  | .consumer, .ack id token requeue delay =>
    .consult (.ack id token.toNat requeue (delayOf delay)) none
  | .monitor, .listFailed limit => .consult (.listFailed (min limit.toNat maxIds)) none
  | .monitor, .eraseFailed ids => .consult (.eraseFailed ids) none
  | _, .hello _ _ => .reply (Packet.ofError .invalidMessage "handshake already completed")
  | role, p =>
    if p.isFromClient then
      .reply (Packet.ofError .roleViolation s!"{p.kind} is not allowed for a {role.name}")
    else .dismiss p.kind

def confirm : Packet → Packet
  | .push id _ _ _ => .accepted id
  | .ack id _ _ _ => .acked id
  | _ => .empty

/-- An answer of the hub as a reply to the request that it was given for. -/
def replyOf (request : Packet) : Answer → Packet
  | .delivery (some d) =>
    .deliver d.id (UInt64.ofNat d.token) (UInt32.ofNat d.attempt) d.payload
  | .delivery none => .empty
  | .counts c =>
    .counts (UInt64.ofNat c.capacity) (UInt64.ofNat c.active) (UInt64.ofNat c.failed)
      (UInt64.ofNat c.free)
  | .failed ids truncated => .failed ids truncated
  | .erased ids => .erased ids
  | .accepted | .settled | .stats _ | .dropped | .refused _ => confirm request

/-- The reply to a request, and whether it is the last one. -/
def conclude (request : Packet) : Except BrokerError Answer → Packet × Bool
  | .ok answer => (replyOf request answer, false)
  | .error (.queue e) => (Packet.ofError e.code e.message, false)
  | .error .shuttingDown => (Packet.ofError .shuttingDown "broker is shutting down", true)
  | .error e => (Packet.ofError .unknown e.message, false)

def occasions : Packet → List Occasion
  | .error .roleViolation _ => [.errorSent, .protocolViolation]
  | .error _ _ => [.errorSent]
  | _ => []

def reply (role : Role) (p : Packet) (last : Bool) : List Effect × Stage :=
  ((occasions p).map .note ++ [.send p], .answering role last)

def finish (result : Except ConnectionError Unit) : List Effect × Stage :=
  ([.release], .over result)

def hear (s : Settings) (owner : Nat) (role : Role) (p : Packet) : List Effect × Stage :=
  match decide s owner role p with
  | .part => finish (.ok ())
  | .reply p => reply role p false
  | .consult request wait => ([.consult request wait], .asking role p)
  | .dismiss kind =>
    ([.note .protocolViolation,
      .send (Packet.ofError .invalidMessage s!"{kind} may only be sent by the broker")],
      .dismissing kind)

/-- Deals with the lack of a request: a client that has gone or has been idle for too long is not at
fault. -/
def hearNothing (e : ConnectionError) : List Effect × Stage :=
  match e with
  | .closed | .timeout _ => finish (.ok ())
  | .malformed cause =>
    let (effects, stage) := finish (.error (.malformed cause))
    (.note .protocolViolation :: effects, stage)
  | e => finish (.error e)

def welcome (s : Settings) (owner : Nat) : Packet :=
  .welcome
    { connectionId := UInt64.ofNat owner, maxMessageSize := UInt32.ofNat s.maxMessageSize.toNat,
      maxRetries := s.maxRetries }

/-- One step of the conversation with the client of connection `owner`.  Events that do not belong
to a stage leave it as it is. -/
def step (s : Settings) (owner : Nat) (stage : Stage) (event : Event) : List Effect × Stage :=
  match stage, event with
  | .greeting, .cancelled => ([.refuse .shuttingDown], .refusing)
  | .greeting, .greeted (.error e) =>
    let (effects, stage) := finish (.error e)
    (.note .handshakeFailed :: effects, stage)
  | .greeting, .greeted (.ok (role, clientId)) =>
    ([.introduce role clientId, .send (welcome s owner)], .welcoming role)
  | .welcoming role, .sent (.ok ()) => ([], .listening role)
  | .welcoming _, .sent (.error e) => finish (.error e)
  | .listening _, .cancelled => finish (.ok ())
  | .listening role, .received (.ok p) =>
    let (effects, stage) := hear s owner role p
    (.note .requestReceived :: effects, stage)
  | .listening _, .received (.error e) => hearNothing e
  | .asking role request, .answered result =>
    let (p, last) := conclude request result
    reply role p last
  | .answering _ true, .sent (.ok ()) => finish (.ok ())
  | .answering role false, .sent (.ok ()) => ([], .listening role)
  | .answering _ _, .sent (.error e) => finish (.error e)
  | .dismissing kind, .sent _ => finish (.error (.malformed (.notFromClient kind)))
  | .refusing, .refused => finish (.ok ())
  | stage, _ => ([], stage)

end Conversation
end WorkBroker
