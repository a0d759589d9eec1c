import WorkBroker.Client.RoundTrip
import WorkBroker.Net.World
/-!
A world with named actors: plain connections, raw ends, client sessions, and the deliveries that they
have kept.  Each step lets one actor do one thing and waits for its outcome; `none` says that the
outcome would never come.
-/

set_option autoImplicit false
set_option relaxedAutoImplicit false

namespace WorkBroker.Net

/-- Values by key; of two values with one key the later one counts. -/
abbrev Table (κ α : Type) := List (κ × α)

namespace Table

variable {κ α : Type} [BEq κ]

def get? (t : Table κ α) (key : κ) : Option α := t.lookup key

def erase (t : Table κ α) (key : κ) : Table κ α := t.filter fun e => !(e.1 == key)

def set (t : Table κ α) (key : κ) (value : α) : Table κ α := (key, value) :: t.erase key

end Table

structure Scenario where
  world : World
  plain : Table String Connection
  raw : Table String RawEnd
  sessions : Table (Role × String) Session
  brokers : Table String BrokerConnection
  deliveries : Table String Delivery

namespace Scenario

def ofServer (server : Server) : Scenario :=
  { world := (World.ofServer server).settle, plain := [], raw := [], sessions := [], brokers := [],
    deliveries := [] }

def ofSettings (s : Settings) : Except BrokerError Scenario :=
  match Broker.start? s with
  | .ok b => .ok (ofServer (.service (Service.ofBroker b)))
  | .error e => .error e

def limit : Duration := Duration.ofMillis 5000

def processName : String := "PID"

def settle (s : Scenario) : Scenario := { s with world := s.world.settle }

def running? (s : Scenario) : Option Broker :=
  s.world.broker?.bind fun b => if b.cancelled then none else some b

def run {α : Type} (s : Scenario) (p : Plan α) : Option α × Scenario :=
  let (value, world) := s.world.perform p
  (value, { s with world })

def discard (s : Scenario) (link : Option Nat) : Scenario :=
  match link with
  | some link => (s.run (Plan.act (.discard link))).2
  | none => s

inductive ConnectFault
  | refused
  | failed (error : ConnectionError)

def dial : Plan (Option Nat) := do
  match ← Plan.act (.dial World.serverAddress Instant.start) with
  | .connected link => return some link
  | _ => return none

def greet (role : Role) (clientId : String) (max : Nat) (adopt : Bool) :
    Plan (Except ConnectFault (Welcome × Connection)) := do
  match ← dial with
  | none => return .error .refused
  | some link =>
    match ← (Connection.ofLink 0 World.serverAddress link max).greet role clientId limit with
    | (.ok terms, c) =>
      return .ok (terms, if adopt then c.setMaxMessageSize terms.maxMessageSize.toNat else c)
    | (.error e, _) => do
      Plan.act (.discard link)
      return .error (.failed e)

def connect (s : Scenario) (name : String) (role : Role) (clientId : String) (max : Nat)
    (adopt : Bool) : Option (Except ConnectFault Welcome) × Scenario :=
  match s.run (greet role clientId max adopt) with
  | (none, s) => (none, s)
  | (some (.error e), s) => (some (.error e), s)
  | (some (.ok (terms, c)), s) =>
    let s := s.discard ((s.plain.get? name).map (·.link))
    (some (.ok terms), { s with plain := s.plain.set name c })

def withPlain {α : Type} (s : Scenario) (name : String)
    (operation : Connection → Plan (α × Connection)) : Option α × Scenario :=
  match s.plain.get? name with
  | none => (none, s)
  | some c =>
    match s.run (operation c) with
    | (none, s) => (none, s)
    | (some (value, c), s) => (some value, { s with plain := s.plain.set name c })

def isFinished (w : World) (name : String) : Bool :=
  w.requests.any fun p => p.name == name && p.plan.value?.isSome

def requestCount (b : Broker) : Nat := b.floor.metrics.requests

def start (s : Scenario) (name : String) (p : Packet) : Scenario :=
  match s.plain.get? name with
  | none => s
  | some c =>
    let pending : Pending := ⟨name, c, c.request p limit⟩
    let world := { s.world with requests := s.world.requests ++ [pending] }
    let next := { s with world, plain := s.plain.erase name }
    match s.running? with
    | none => next.settle
    | some before =>
      let isTaken (w : World) : Bool := w.broker?.any fun b => requestCount before < requestCount b
      { next with world := next.world.waitUntil fun w => isTaken w || isFinished w name }

def pending? (s : Scenario) (name : String) : Option Pending :=
  s.world.requests.find? (·.name == name)

def withdraw (s : Scenario) (name : String) : Scenario :=
  { s with world := { s.world with requests := s.world.requests.filter (·.name != name) } }

def finish (s : Scenario) (name : String) :
    Option (Except ConnectionError Packet) × Scenario :=
  match s.pending? name with
  | none => (none, s)
  | some p =>
    match (s.withdraw name).run p.plan with
    | (none, s) => (none, s)
    | (some (result, c), s) => (some result, { s with plain := s.plain.set name c })

def abort (s : Scenario) (name : String) : Scenario :=
  match s.pending? name with
  | none => s
  | some p => (s.withdraw name).discard (some p.connection.link) |>.settle

def close (s : Scenario) (name : String) : Scenario :=
  match s.plain.get? name with
  | none => s
  | some c =>
    let s := (s.withPlain name fun c => do
      let c ← c.close
      Plan.act (.discard c.link)
      return ((), c)).2
    let isGone (w : World) : Bool := w.broker?.all fun b => !b.floor.knows c.id.toNat
    { s with world := s.world.waitUntil isGone }

def rawConnect (s : Scenario) (name : String) : Bool × Scenario :=
  match s.run dial with
  | (some (some link), s) =>
    let s := s.discard ((s.raw.get? name).map (·.link))
    (true, { s with raw := s.raw.set name ⟨link, []⟩ }.settle)
  | (_, s) => (false, s)

def withRaw {α : Type} (s : Scenario) (name : String) (operation : RawEnd → Plan (α × RawEnd)) :
    Option α × Scenario :=
  match s.raw.get? name with
  | none => (none, s)
  | some e =>
    match s.run (operation e) with
    | (none, s) => (none, s)
    | (some (value, e), s) => (some value, { s with raw := s.raw.set name e })

def sleep (s : Scenario) (d : Duration) : Scenario := (s.run (Plan.sleep d)).2

def hasActive (s : Scenario) (n : Nat) : Bool :=
  s.running?.any fun b => b.floor.limiter.active = n

/-- Looks now and after every millisecond, for as many as `rounds`, whether the broker holds `n`
connections. -/
def waitActive (n : Nat) : Nat → Scenario → Bool × Scenario
  | 0, s => (false, s)
  | rounds + 1, s =>
    if s.hasActive n then (true, s)
    else waitActive n rounds (s.sleep (Duration.ofMillis 1)).settle

def startShutdown (s : Scenario) : Scenario := { s with world := s.world.cancel.settle }

def finishShutdown (s : Scenario) : Option QueueStats × Scenario :=
  let world := s.world.waitUntil fun w => w.service?.all (·.isDone)
  (world.broker?.map (·.stats), { s with world })

def openSession (s : Scenario) (name : String) (role : Role) (config : ClientConfig) :
    Option (Except ClientError Session) × Scenario :=
  match s.run (Session.connect config role) with
  | (some (.ok session), s) =>
    let old := (s.sessions.get? (role, name)).bind (·.connection)
    let s := s.discard (old.map (·.connection.link))
    (some (.ok session), { s with sessions := s.sessions.set (role, name) session })
  | (result, s) => (result, s)

def withSession {α : Type} (s : Scenario) (name : String) (role : Role) (operation : Client α) :
    Option (α × Session) × Scenario :=
  match s.sessions.get? (role, name) with
  | none => (none, s)
  | some session =>
    match s.run (operation.run session) with
    | (none, s) => (none, s)
    | (some (value, session), s) =>
      (some (value, session), { s with sessions := s.sessions.set (role, name) session })

def openBroker (s : Scenario) (name : String) (role : Role) (config : ClientConfig) :
    Option (Except ClientError BrokerConnection) × Scenario :=
  match s.run (BrokerConnection.connect config role) with
  | (some (.ok b), s) =>
    let s := s.discard ((s.brokers.get? name).map (·.connection.link))
    (some (.ok b), { s with brokers := s.brokers.set name b })
  | (result, s) => (result, s)

def withBroker {α : Type} (s : Scenario) (name : String)
    (operation : BrokerConnection → Plan (α × BrokerConnection)) : Option α × Scenario :=
  match s.brokers.get? name with
  | none => (none, s)
  | some b =>
    match s.run (operation b) with
    | (none, s) => (none, s)
    | (some (value, b), s) => (some value, { s with brokers := s.brokers.set name b })

def closeClients (s : Scenario) (name : String) : Scenario :=
  let s := [Role.producer, .consumer, .monitor].foldl
    (fun s role => (s.withSession name role Session.reset).2) s
  (s.withBroker name fun b => do return ((), ← b.close)).2

def askBroker (s : Scenario) (name : String) (p : Packet) :
    Option (Except ClientError Packet × Bool) × Scenario :=
  s.withBroker name fun b => do
    let (result, b) ← b.request p
    return ((result, b.isOpen), b)

def keep (s : Scenario) (name : String) (d : Delivery) : Scenario :=
  { s with deliveries := s.deliveries.set name d }

def leave (s : Scenario) : Scenario :=
  { s with world := { s.world with links := s.world.links.map Link.drop, requests := [] } }.settle

def records (s : Scenario) : List Record :=
  match s.world.server with
  | .troupe t => t.records
  | _ => []

end Scenario
end WorkBroker.Net
