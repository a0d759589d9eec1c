import WorkBroker.Client.Roles
/-!
A scripted run against a broker: a producer pushes a number of messages, a consumer takes them back,
compares every payload byte by byte, and settles each delivery.  The first thing that goes wrong
ends the run and is named in its report.
-/

set_option autoImplicit false
set_option relaxedAutoImplicit false

namespace WorkBroker

open WorkBroker.Net

inductive ExitStatus
  | success
  /-- The set-up of the client is unusable. -/
  | usage
  /-- No broker could be reached within the retry budget. -/
  | connectFailed
  /-- A push used up its retries, or an expected message never came. -/
  | deliveryFailed
  /-- A message was refused for good. -/
  | rejected
  /-- The broker broke the protocol, or a payload was not the one that was pushed. -/
  | protocolFailed
  deriving DecidableEq, Repr, Inhabited

namespace ExitStatus

def all : List ExitStatus :=
  [.success, .usage, .connectFailed, .deliveryFailed, .rejected, .protocolFailed]

def name : ExitStatus → String
  | .success => "Success"
  | .usage => "Usage"
  | .connectFailed => "ConnectFailed"
  | .deliveryFailed => "DeliveryFailed"
  | .rejected => "Rejected"
  | .protocolFailed => "ProtocolFailed"

def code : ExitStatus → Nat
  | .success => 0
  | .usage => 1
  | .connectFailed => 2
  | .deliveryFailed => 3
  | .rejected => 4
  | .protocolFailed => 5

def describe : ExitStatus → String
  | .success => "success"
  | .usage => "usage error"
  | .connectFailed => "connect failed"
  | .deliveryFailed => "delivery failed"
  | .rejected => "rejected"
  | .protocolFailed => "protocol failed"

def message (s : ExitStatus) : String := s!"{s.describe} ({s.code})"

def isSuccess (s : ExitStatus) : Bool := s = .success

def ofError : ClientError → ExitStatus
  | .invalidConfig _ => .usage
  | .exhausted _ _ => .deliveryFailed
  | e =>
    if e.isRejection then .rejected
    else if e.isRetryable then .deliveryFailed
    else .protocolFailed

def ofRefusedPush (e : ClientError) : ExitStatus :=
  if ofError e = .protocolFailed then .protocolFailed else .rejected

/-- What a settlement that failed makes of a run: a delivery that was just made cannot be refused by
a broker that keeps to the protocol. -/
def ofFailedAck (e : ClientError) : ExitStatus :=
  if ofError e = .rejected then .protocolFailed else ofError e

end ExitStatus

/-- What a scripted run does: how many messages of which size and priority, and how long the
consumer waits for each. -/
structure Script where
  messages : Nat := 1
  size : Nat := 100
  priority : UInt8 := 0
  popWait : Duration := Duration.ofMillis 5000
  deriving Inhabited

structure Report where
  status : ExitStatus := .success
  pushed : Nat := 0
  received : Nat := 0
  acked : Nat := 0
  detail : Option String := none
  deriving DecidableEq, Repr, Inhabited

namespace Report

def fail (r : Report) (status : ExitStatus) (detail : String) : Report :=
  { r with status, detail := some detail }

def failureLine (status : ExitStatus) (detail : String) : LogLine :=
  ⟨.error, "mqueue_client::driver", s!"Script failed with {status.message}: {detail}"⟩

def closingLine (r : Report) : LogLine :=
  ⟨.info, "mqueue_client::driver",
    s!"Script finished: {r.status.message} (pushed {r.pushed}, received {r.received}, acked {r.acked}"⟩

end Report

/-- The payload of a message of a script: both ends can compute it. -/
def payloadFor (index size : Nat) : Bytes :=
  (List.range size).map fun i => UInt8.ofNat ((index * 31 + i) % UInt64.size % 251)

namespace Script

def messageId (clientId process : String) (index : Nat) : String := s!"{clientId}-{process}-{index}"

def record (s : Script) (clientId process : String) (index : Nat) : PushRecord :=
  { id := messageId clientId process index, priority := s.priority, delay := Duration.zero,
    payload := payloadFor index s.size }

/-- The messages that have not come back yet: their ids and payloads. -/
abbrev Expected := List (String × Bytes)

def expected (s : Script) (clientId process : String) : Expected :=
  (List.range s.messages).map fun index =>
    (messageId clientId process index, payloadFor index s.size)

def stop (r : Report) (status : ExitStatus) (detail : String) : Plan Report := do
  Plan.act (.log (Report.failureLine status detail))
  return r.fail status detail

/-- Pushes messages in turn, until one is not accepted. -/
def pushAll : List PushRecord → Report → Client Report
  | [], r => return r
  | record :: rest, r => do
    match ← Producer.push record with
    | .delivered _ => pushAll rest { r with pushed := r.pushed + 1 }
    | .rejected e =>
      stop r (.ofRefusedPush e) s!"push of {record.id} rejected: {e.message}"
    | .exhausted attempts last =>
      stop r .deliveryFailed
        s!"push of {record.id} failed after {attempts} attempts: {last.message}"

/-- Settles a delivery; while more messages are expected, the next one is asked for in the same
exchange. -/
def settle (s : Script) (d : Delivery) (more : Bool) :
    Client (Except ClientError (Option Delivery)) := do
  if more then Consumer.settleAndPop d false Duration.zero s.popWait
  else
    match ← Consumer.ack d with
    | .ok () => return .ok none
    | .error e => return .error e

/-- Checks and settles deliveries, from one whose outcome is known on, until every expected message
has come back. -/
def takeAll (s : Script) (expected : Expected) (next : Except ClientError (Option Delivery))
    (r : Report) : Client Report :=
  match next with
  | .error e => stop r (.ofError e) s!"pop failed: {e.message}"
  | .ok none => stop r .deliveryFailed s!"{expected.length} expected messages never arrived"
  | .ok (some d) => do
    let r := { r with received := r.received + 1 }
    match _h : expected.find? (·.1 == d.id) with
    | none => stop r .protocolFailed s!"unexpected message {d.id}"
    | some (_, payload) => do
      let rest := expected.eraseP (·.1 == d.id)
      if payload ≠ d.payload then stop r .protocolFailed s!"payload mismatch for {d.id}"
      else
        match ← s.settle d (!rest.isEmpty) with
        | .error e => stop r (.ofFailedAck e) s!"ack of {d.id} failed: {e.message}"
        | .ok following => do
          let r := { r with acked := r.acked + 1 }
          if rest.isEmpty then return r else takeAll s rest (.ok following) r
termination_by expected.length
decreasing_by
  have found := List.mem_of_find?_eq_some _h
  have matched := List.find?_some _h
  have : (expected.eraseP fun e => e.1 == d.id).length = expected.length - 1 :=
    List.length_eraseP_of_mem found matched
  have := List.length_pos_of_mem found
  omega

def popAll (s : Script) (expected : Expected) (r : Report) : Client Report := do
  if expected.isEmpty then return r
  else s.takeAll expected (← Consumer.pop s.popWait) r

def finish (session : Session) : Plan Unit := do
  let _ ← Session.reset.run session
  return ()

/-- Plays a script with two sessions, one that pushes and one that pops. -/
def playWith (s : Script) (config : ClientConfig) (process : String)
    (producer consumer : Session) : Plan Report := do
  let records := (List.range s.messages).map (s.record config.name process)
  let (r, producer) ← (pushAll records {}).run producer
  let (r, consumer) ←
    if r.status.isSuccess then (s.popAll (s.expected config.name process) r).run consumer
    else pure (r, consumer)
  finish producer
  finish consumer
  return r

def play (s : Script) (config : ClientConfig) (process : String) : Plan Report := do
  match config.validate with
  | .error e => stop {} .usage e.message
  | .ok () =>
    match ← Session.connect config .producer with
    | .error e => stop {} .connectFailed e.message
    | .ok producer =>
      match ← Session.connect config .consumer with
      | .error e => do
        finish producer
        stop {} .connectFailed e.message
      | .ok consumer => s.playWith config process producer consumer

def run (s : Script) (config : ClientConfig) (process : String) : Plan Report := do
  let r ← s.play config process
  Plan.act (.log r.closingLine)
  return r

end Script
end WorkBroker
