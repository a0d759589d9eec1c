import WorkBroker.Client.Session
import WorkBroker.Queue.Basic
/-!
What producers, consumers and monitors do within their sessions.
-/

set_option autoImplicit false
set_option relaxedAutoImplicit false

namespace WorkBroker

open WorkBroker.Net

structure PushRecord where
  id : String
  priority : UInt8
  delay : Duration
  payload : Bytes
  deriving Inhabited

def PushRecord.toPacket (r : PushRecord) : Packet := .push r.id r.priority r.delay.toUInt32 r.payload

namespace Producer

/-- One attempt to push a message.  A payload above the broker's limit is not sent; from the second
attempt on a duplicate means that an earlier attempt was accepted. -/
def tryPush (r : PushRecord) (attempt : Nat) : Client (Except ClientError String) := do
  let limit := (← get).connection.map (·.connection.maxMessageSize)
  match limit with
  | some limit =>
    if r.payload.length > limit then return .error (.messageTooLarge r.payload.length limit)
    else transmit
  | none => transmit
where
  transmit : Client (Except ClientError String) := do
    match ← Session.request r.toPacket with
    | .ok (.accepted id) => return .ok id
    | .ok other => Session.unexpected "Accepted" other
    | .error e =>
      if attempt > 1 && e.brokerCode? == some .duplicateMessage then return .ok r.id
      else return .error e

def push (r : PushRecord) : Client (Outcome ClientError String) := do
  let policy := (← get).config.retry.policy
  policy.run ClientError.isRetryable (fun d => (Plan.sleep d : Plan Unit)) (tryPush r)

end Producer

namespace Consumer

/-- Sends a request for a delivery, and allows for the wait at the broker. -/
def receive (p : Packet) (wait : Duration) :
    Client (Except ClientError (Option Delivery)) := do
  let limit : Duration := ⟨(← get).config.requestTimeout.nanos + wait.nanos⟩
  match ← Session.requestWithin p limit with
  | .error e => return .error e
  | .ok (.deliver id token attempt payload) =>
    return .ok (some { id, token := token.toNat, attempt := attempt.toNat, payload })
  | .ok .empty => return .ok none
  | .ok other => Session.unexpected "Deliver" other

def pop (wait : Duration) : Client (Except ClientError (Option Delivery)) :=
  receive (.pop wait.toUInt32) wait

def settleAndPop (d : Delivery) (requeue : Bool) (delay wait : Duration) :
    Client (Except ClientError (Option Delivery)) :=
  receive (.ackPop d.id (UInt64.ofNat d.token) requeue delay.toUInt32 wait.toUInt32) wait

def settle (d : Delivery) (requeue : Bool) (delay : Duration) :
    Client (Except ClientError Unit) := do
  match ← Session.request (.ack d.id (UInt64.ofNat d.token) requeue delay.toUInt32) with
  | .error e => return .error e
  | .ok (.acked id) =>
    if id = d.id then return .ok () else Session.unexpected "Acked" (.acked id)
  | .ok other => Session.unexpected "Acked" other

def ack (d : Delivery) : Client (Except ClientError Unit) := settle d false Duration.zero

end Consumer

namespace Monitor

def counts : Client (Except ClientError QueueCounts) := do
  match ← Session.request .count with
  | .error e => return .error e
  | .ok (.counts capacity active failed free) =>
    return .ok
      { capacity := capacity.toNat, active := active.toNat, failed := failed.toNat,
        free := free.toNat }
  | .ok other => Session.unexpected "Counts" other

def failed (limit : UInt32) : Client (Except ClientError (List String × Bool)) := do
  match ← Session.request (.listFailed limit) with
  | .error e => return .error e
  | .ok (.failed ids truncated) => return .ok (ids, truncated)
  | .ok other => Session.unexpected "Failed" other

/-- A list cut into pieces of at most `size + 1` elements. -/
def chunks {α : Type} (size : Nat) (xs : List α) : List (List α) :=
  match xs with
  | [] => []
  | x :: rest => (x :: rest.take size) :: chunks size (rest.drop size)
termination_by xs.length
decreasing_by
  rw [List.length_drop, List.length_cons]
  omega

def eraseChunks : List (List String) → Client (Except ClientError (List String))
  | [] => return .ok []
  | ids :: rest => do
    match ← Session.request (.eraseFailed ids) with
    | .error e => return .error e
    | .ok (.erased erased) =>
      match ← eraseChunks rest with
      | .error e => return .error e
      | .ok others => return .ok (erased ++ others)
    | .ok other => Session.unexpected "Erased" other

/-- Removes failed messages and tells which were removed; long lists go in several packets. -/
def eraseFailed (ids : List String) : Client (Except ClientError (List String)) :=
  eraseChunks (chunks (maxIds - 1) ids)

/-- How far a purge has come: it is done when no page is left, and unfinished when it has had its
rounds before that.  Both tell how many messages were removed. -/
inductive Purge
  | done (total : Nat)
  | unfinished (total : Nat)
  deriving DecidableEq, Repr, Inhabited

def purgeFrom : Nat → Nat → Client (Except ClientError Purge)
  | 0, total => return .ok (.unfinished total)
  | rounds + 1, total => do
    match ← failed (UInt32.ofNat maxIds) with
    | .error e => return .error e
    | .ok ([], _) => return .ok (.done total)
    | .ok (ids, truncated) =>
      match ← eraseFailed ids with
      | .error e => return .error e
      | .ok erased =>
        let total := total + erased.length
        if !truncated || erased.isEmpty then return .ok (.done total) else purgeFrom rounds total

/-- Removes every failed message, page by page, in at most `rounds` pages. -/
def purgeFailed (rounds : Nat) : Client (Except ClientError Purge) := purgeFrom rounds 0

end Monitor
end WorkBroker
