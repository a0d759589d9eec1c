import WorkBroker.Connection.Error
import WorkBroker.Connection.Inbox
import WorkBroker.Net.Plan
import WorkBroker.Wire.PacketCodec
/-!
A connection carries packets over a link and keeps track of where it stands.  Only packets of the
handshake move while it is connecting; requests and replies need it to be open; once it is closing
nothing is read or written.

The rules are split in two.  What an outcome of the transport means to a connection is told by
functions without effects; the operations that wait for the transport are plans.
-/

set_option autoImplicit false
set_option relaxedAutoImplicit false

namespace WorkBroker

structure Connection where
  id : UInt64
  peer : String
  state : ConnectionState
  codec : PacketCodec
  link : Nat
  inbox : Inbox

inductive Received
  | packet (p : Packet)
  | failed (error : CodecError)
  | ended
  | elapsed
  deriving Inhabited

namespace Connection

def ofLink (id : UInt64) (peer : String) (link : Nat) (maxMessageSize : Nat) : Connection :=
  { id, peer, state := .connecting, codec := PacketCodec.ofLimit maxMessageSize, link,
    inbox := Inbox.empty }

def isOpen (c : Connection) : Bool := c.state == .open

def maxMessageSize (c : Connection) : Nat := c.codec.maxMessageSize

def setMaxMessageSize (c : Connection) (n : Nat) : Connection :=
  { c with codec := PacketCodec.ofLimit n }

def describe (c : Connection) : String :=
  "Connection \x7b id: " ++ toString c.id.toNat ++ ", peer: " ++ Text.quoted c.peer ++ ", state: " ++
    c.state.name ++ " \x7d"

def expect (c : Connection) (expected : ConnectionState) : Except ConnectionError Unit :=
  if c.state = expected then .ok ()
  else
    match c.state with
    | .closing | .closed => .error .closed
    | state => .error (.handshake (.wrongState state expected))

/-- The bytes of a packet, and what their lack means: a packet that is too large leaves the
connection as it was, any other refusal makes it close. -/
def encode (c : Connection) (p : Packet) : Except ConnectionError Bytes × Connection :=
  match c.codec.encode p with
  | .ok bytes => (.ok bytes, c)
  | .error (.oversize size limit) => (.error (.oversize size limit), c)
  | .error e => (.error (.ofCodec e), { c with state := .closing })

/-- A failed write makes the connection close. -/
def writeFailed (c : Connection) (failure : IoFailure) : ConnectionError × Connection :=
  (.ofIo failure, { c with state := .closing })

def look (c : Connection) : Option (Received × Connection) :=
  match c.codec.scan c.inbox.bytes with
  | .incomplete => none
  | .tooLong declared =>
    some (.failed (.malformed (.frameTooLong declared c.codec.maxFrameSize)), c)
  | .frame (.ok p) rest => some (.packet p, { c with inbox := c.inbox.keep rest })
  | .frame (.error e) rest => some (.failed e, { c with inbox := c.inbox.keep rest })

/-- The connection after a look has found nothing: the inbox makes room for the frame that has begun,
and is not looked at again before more bytes have come. -/
def await (c : Connection) : Connection :=
  { c with inbox := c.inbox.await (PacketCodec.missing c.inbox.bytes) }

def makeRoom (c : Connection) : Connection := { c with inbox := c.inbox.reserve 1 }

def withBytes (c : Connection) (bytes : Bytes) : Connection :=
  { c with inbox := c.inbox.append bytes }

/-- What the end of the stream means when the inbox holds no whole frame. -/
def atEnd (c : Connection) : Received :=
  if c.inbox.bytes.isEmpty then .ended else .failed (.io .bytesLeft)

/-- The result of a wait for a packet that did not run out of time: anything but a packet makes the
connection close. -/
def conclude (c : Connection) (limit : Duration) :
    Received → Except ConnectionError Packet × Connection
  | .packet p => (.ok p, c)
  | .failed e => (.error (.ofCodec e), { c with state := .closing })
  | .ended => (.error .closed, { c with state := .closing })
  | .elapsed => (.error (.ofTimeout limit), c)

/-- The result of a wait for a packet of the handshake: running out of time makes the connection
close as well. -/
def concludeHandshake (c : Connection) (limit : Duration) (r : Received) :
    Except ConnectionError Packet × Connection :=
  match r with
  | .elapsed => (.error (.ofTimeout limit), { c with state := .closing })
  | r => c.conclude limit r

def concludeWelcome (c : Connection) (limit : Duration) (r : Received) :
    Except ConnectionError Welcome × Connection :=
  match c.concludeHandshake limit r with
  | (.error e, c) => (.error e, c)
  | (.ok (.welcome terms), c) => (.ok terms, { c with id := terms.connectionId, state := .open })
  | (.ok (.rejected reason), c) => (.error (.rejected reason), { c with state := .closing })
  | (.ok p, c) => (.error (.handshake (.unexpected "Welcome" p.kind)), { c with state := .closing })

def concludeHello (c : Connection) (limit : Duration) (r : Received) :
    Except ConnectionError (Role × String) × Connection :=
  match c.concludeHandshake limit r with
  | (.error e, c) => (.error e, c)
  | (.ok (.hello role clientId), c) => (.ok (role, clientId), c)
  | (.ok p, c) => (.error (.handshake (.unexpected "Hello" p.kind)), { c with state := .closing })

theorem length_lt_of_look_eq_none {c : Connection} (h : c.look = none) :
    c.inbox.bytes.length < headerSize + c.codec.maxFrameSize := by
  apply PacketCodec.length_lt_of_scan_eq_incomplete
  unfold look at h
  split at h <;> simp_all

end Connection
end WorkBroker
