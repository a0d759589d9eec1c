import WorkBroker.Client.Config
import WorkBroker.Connection.Operations
import WorkBroker.Retry.Run
/-!
A client's session with a broker: it holds at most one connection, opens one when a request needs
it, and lets go of it when a failure says that the connection, and not the request, is to blame.
-/

set_option autoImplicit false
set_option relaxedAutoImplicit false

namespace WorkBroker

open WorkBroker.Net

structure BrokerConnection where
  broker : String
  connection : Connection
  welcome : Welcome
  requestTimeout : Duration

namespace BrokerConnection

def isOpen (b : BrokerConnection) : Bool := b.connection.isOpen

/-- Reaches one broker and completes the handshake; a connection that is not welcome is closed. -/
def openAt (config : ClientConfig) (role : Role) (broker : String) :
    Plan (Except ClientError BrokerConnection) := do
  Plan.log .debug "mqueue_client::connection" s!"Creating connection to broker: {broker}"
  let deadline ← Plan.deadline config.connectionTimeout
  match ← Plan.act (.dial broker deadline) with
  | .elapsed => return .error (.timeout (config.connectionTimeout.millis % UInt64.size))
  | .failed failure => return .error (.connect broker failure)
  | .connected link =>
    let c := Connection.ofLink 0 broker link config.maxMessageSize
    match ← c.greet role config.name config.connectionTimeout with
    | (.error e, c) => do
      let _ ← c.close
      Plan.act (.discard link)
      return .error (.ofConnection e)
    | (.ok welcome, c) =>
      return .ok
        { broker, connection := c.setMaxMessageSize welcome.maxMessageSize.toNat, welcome,
          requestTimeout := config.requestTimeout }

/-- Tries some brokers in turn; if all fail, the last failure counts. -/
def connectTo (config : ClientConfig) (role : Role) (last : ClientError) :
    List String → Plan (Except ClientError BrokerConnection)
  | [] => return .error last
  | broker :: rest => do
    match ← openAt config role broker with
    | .ok connection => return .ok connection
    | .error e => do
      Plan.log .warn "mqueue_client::connection"
        s!"Failed to connect to broker {broker}: {e.message}"
      connectTo config role e rest

def connect (config : ClientConfig) (role : Role) : Plan (Except ClientError BrokerConnection) :=
  connectTo config role .noBrokers config.brokers

def connectRound (config : ClientConfig) (role : Role) (round : Nat) :
    Plan (Except ClientError BrokerConnection) := do
  let result ← connect config role
  if let .error e := result then
    Plan.log .debug "mqueue::retry"
      s!"Attempt {round}/{config.retry.policy.maxAttempts} failed: {e.message}"
  return result

def connectWithRetry (config : ClientConfig) (role : Role) :
    Plan (Except ClientError BrokerConnection) := do
  match ← config.retry.policy.run ClientError.isRetryable Plan.sleep (connectRound config role) with
  | .delivered connection => return .ok connection
  | .rejected e => return .error e
  | .exhausted attempts last => return .error (.exhausted attempts last)

/-- Sends a request and waits for the reply; an error packet is an error of the broker. -/
def requestWithin (b : BrokerConnection) (p : Packet) (limit : Duration) :
    Plan (Except ClientError Packet × BrokerConnection) := do
  match ← b.connection.request p limit with
  | (.error e, connection) => return (.error (.ofConnection e), { b with connection })
  | (.ok (.error code text), connection) => return (.error (.broker code text), { b with connection })
  | (.ok reply, connection) => return (.ok reply, { b with connection })

def request (b : BrokerConnection) (p : Packet) :
    Plan (Except ClientError Packet × BrokerConnection) :=
  b.requestWithin p b.requestTimeout

def close (b : BrokerConnection) : Plan BrokerConnection := do
  let connection ←
    if b.isOpen then do
      let (_, connection) ← b.connection.send .goodbye
      pure connection
    else pure b.connection
  return { b with connection := ← connection.close }

end BrokerConnection

/-- A client's session: its set-up, its role, and the connection it holds. -/
structure Session where
  config : ClientConfig
  role : Role
  connection : Option BrokerConnection

abbrev Client := StateT Session Plan

namespace Session

def connect (config : ClientConfig) (role : Role) : Plan (Except ClientError Session) := do
  match config.validate with
  | .error e => return .error e
  | .ok () =>
    match ← BrokerConnection.connectWithRetry config role with
    | .error e => return .error e
    | .ok connection => return .ok { config, role, connection := some connection }

def reset : Client Unit := do
  let s ← get
  match s.connection with
  | none => return ()
  | some b =>
    let b ← (b.close : Plan BrokerConnection)
    Plan.act (.discard b.connection.link)
    set { s with connection := none }

def ensureConnected : Client (Except ClientError BrokerConnection) := do
  let s ← get
  match s.connection with
  | some b => if b.isOpen then return .ok b else reconnect
  | none => reconnect
where
  reconnect : Client (Except ClientError BrokerConnection) := do
    reset
    let s ← get
    match ← (BrokerConnection.connect s.config s.role : Plan _) with
    | .error e => return .error e
    | .ok b =>
      set { s with connection := some b }
      return .ok b

/-- Sends a request; a failure that is worth another attempt costs the connection. -/
def requestWithin (p : Packet) (limit : Duration) : Client (Except ClientError Packet) := do
  match ← ensureConnected with
  | .error e => return .error e
  | .ok b =>
    let (result, b) ← (b.requestWithin p limit : Plan _)
    modify fun s => { s with connection := some b }
    match result with
    | .ok reply => return .ok reply
    | .error e => do
      if e.isRetryable then reset
      return .error e

def request (p : Packet) : Client (Except ClientError Packet) := do
  requestWithin p (← get).config.requestTimeout

/-- A reply of the wrong kind costs the connection. -/
def unexpected {α : Type} (wanted : String) (got : Packet) : Client (Except ClientError α) := do
  reset
  return .error (.protocol s!"expected {wanted}, got {got.kind}")

end Session

/-- A span of time as a packet carries it: whole milliseconds, as many as fit. -/
def Duration.toUInt32 (d : Duration) : UInt32 := UInt32.ofNat (min d.millis maxHeaderValue)

end WorkBroker
