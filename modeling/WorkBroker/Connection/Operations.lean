import WorkBroker.Connection.Basic
/-!
The operations of a connection that wait for its transport.
-/

set_option autoImplicit false
set_option relaxedAutoImplicit false

namespace WorkBroker.Connection

open WorkBroker.Net

/-- Writes all of some bytes, as room allows. -/
def writeAll (link : Nat) (bytes : Bytes) : Plan (Except IoFailure Unit) :=
  match bytes with
  | [] => return .ok ()
  | first :: rest =>
    .ask (.write link (first :: rest)) fun (outcome : WriteOutcome) =>
      match outcome with
      | .accepted more => writeAll link (rest.drop more)
      | .failed failure => return .error failure
termination_by bytes.length
decreasing_by
  rw [List.length_drop, List.length_cons]
  omega

/-- Sends a packet whatever the state of the connection. -/
def write (c : Connection) (p : Packet) : Plan (Except ConnectionError Unit × Connection) := do
  match c.encode p with
  | (.error e, c) => return (.error e, c)
  | (.ok bytes, c) =>
    match ← writeAll c.link bytes with
    | .ok () => return (.ok (), c)
    | .error failure =>
      let (e, c) := c.writeFailed failure
      return (.error e, c)

/-- Reads until a packet is there.  The end of the stream is a reason to look once more. -/
def readPacket (c : Connection) (deadline : Option Instant) : Plan (Received × Connection) :=
  .ask (.read c.link deadline c.makeRoom.inbox.room) fun (outcome : ReadOutcome) =>
    match outcome with
    | .bytes first rest =>
      match _h : (c.makeRoom.withBytes (first :: rest)).look with
      | some found => return found
      | none => readPacket (c.makeRoom.withBytes (first :: rest)).await deadline
    | .ended => return c.makeRoom.look.getD (c.atEnd, c.makeRoom)
    | .failed failure => return (.failed (.io failure), c.makeRoom)
    | .elapsed => return (.elapsed, c.makeRoom)
termination_by headerSize + c.codec.maxFrameSize - c.inbox.bytes.length
decreasing_by
  have := length_lt_of_look_eq_none _h
  simp only [withBytes, await, makeRoom, Inbox.bytes_append, Inbox.bytes_await, Inbox.bytes_reserve,
    List.length_append, List.length_cons] at this ⊢
  omega

def awaitPacket (c : Connection) (deadline : Option Instant) : Plan (Received × Connection) :=
  if c.inbox.fresh then
    match c.look with
    | some found => return found
    | none => c.await.readPacket deadline
  else c.readPacket deadline

def awaitPacketFor (c : Connection) (limit : Duration) : Plan (Received × Connection) := do
  c.awaitPacket (some (← Plan.deadline limit))

def greet (c : Connection) (role : Role) (clientId : String) (limit : Duration) :
    Plan (Except ConnectionError Welcome × Connection) := do
  match c.expect .connecting with
  | .error e => return (.error e, c)
  | .ok () =>
    match ← c.write (.hello role clientId) with
    | (.error e, c) => return (.error e, c)
    | (.ok (), c) =>
      let (received, c) ← c.awaitPacketFor limit
      return c.concludeWelcome limit received

def awaitHello (c : Connection) (limit : Duration) :
    Plan (Except ConnectionError (Role × String) × Connection) := do
  match c.expect .connecting with
  | .error e => return (.error e, c)
  | .ok () =>
    let (received, c) ← c.awaitPacketFor limit
    return c.concludeHello limit received

def acceptHello (c : Connection) (terms : Welcome) :
    Plan (Except ConnectionError Unit × Connection) := do
  match c.expect .connecting with
  | .error e => return (.error e, c)
  | .ok () =>
    match ← c.write (.welcome terms) with
    | (.error e, c) => return (.error e, c)
    | (.ok (), c) => return (.ok (), { c with state := .open })

def close (c : Connection) : Plan Connection := do
  if c.state = .closed then return c
  else do
    Plan.act (.shutdown c.link)
    return { c with state := .closed }

/-- The most reads that a connection spends on a peer that it has refused. -/
def lingerReads : Nat := 1000000

/-- Reads and forgets packets until the peer ends, sends something malformed, or time is over. -/
def drain (deadline : Instant) : Nat → Connection → Plan Unit
  | 0, _ => return ()
  | reads + 1, c => do
    match ← c.awaitPacket (some deadline) with
    | (.packet _, c) => drain deadline reads c
    | _ => return ()

/-- The broker refuses the peer: sends the reason, announces the end, and reads on for a while so
that the refusal is not lost.  A connection past its handshake is just closed. -/
def reject (c : Connection) (reason : RejectReason) (linger : Duration) : Plan Connection := do
  if c.state ≠ .connecting then c.close
  else
    match ← c.write (.rejected reason) with
    | (.error _, c) => return { c with state := .closed }
    | (.ok (), c) => do
      Plan.act (.shutdown c.link)
      drain (← Plan.deadline linger) lingerReads c
      return { c with state := .closed }

def send (c : Connection) (p : Packet) : Plan (Except ConnectionError Unit × Connection) := do
  match c.expect .open with
  | .error e => return (.error e, c)
  | .ok () => c.write p

def receive (c : Connection) : Plan (Except ConnectionError Packet × Connection) := do
  match c.expect .open with
  | .error e => return (.error e, c)
  | .ok () =>
    let (received, c) ← c.awaitPacket none
    return c.conclude Duration.zero received

/-- Waits for a packet over an open connection for at most the given time; when time runs out the
connection stays open and keeps the bytes that have come. -/
def receiveFor (c : Connection) (limit : Duration) :
    Plan (Except ConnectionError Packet × Connection) := do
  match c.expect .open with
  | .error e => return (.error e, c)
  | .ok () =>
    let (received, c) ← c.awaitPacketFor limit
    return c.conclude limit received

def request (c : Connection) (p : Packet) (limit : Duration) :
    Plan (Except ConnectionError Packet × Connection) := do
  match ← c.send p with
  | (.error e, c) => return (.error e, c)
  | (.ok (), c) => c.receiveFor limit

end WorkBroker.Connection
