import WorkBroker.Duration
import WorkBroker.Wire.Packet
/-!
The states of a connection and the ways in which its operations fail.
-/

set_option autoImplicit false
set_option relaxedAutoImplicit false

namespace WorkBroker

/-- Where a connection stands, from the first byte to the last. -/
inductive ConnectionState
  | connecting
  | open
  | closing
  | closed
  deriving DecidableEq, Repr, Inhabited

namespace ConnectionState

def name : ConnectionState → String
  | .connecting => "Connecting"
  | .open => "Open"
  | .closing => "Closing"
  | .closed => "Closed"

def rank : ConnectionState → Nat
  | .connecting => 0
  | .open => 1
  | .closing => 2
  | .closed => 3

end ConnectionState

inductive HandshakeFault
  | wrongState (actual expected : ConnectionState)
  | unexpected (wanted kind : String)
  | described (text : String)
  deriving DecidableEq, Repr, Inhabited

def HandshakeFault.message : HandshakeFault → String
  | .wrongState actual expected => s!"connection is {actual.name}, expected {expected.name}"
  | .unexpected wanted kind => s!"expected {wanted}, got {kind}"
  | .described text => text

inductive ConnectionError
  | closed
  | timeout (ms : Nat)
  | oversize (size limit : Nat)
  | malformed (cause : Malformation)
  | rejected (reason : RejectReason)
  | handshake (fault : HandshakeFault)
  | io (failure : IoFailure)
  deriving DecidableEq, Repr, Inhabited

def timeoutMessage (ms : Nat) : String := s!"Operation timed out after {ms}ms"

namespace ConnectionError

def kind : ConnectionError → String
  | .closed => "Closed"
  | .timeout _ => "Timeout"
  | .oversize _ _ => "Oversize"
  | .malformed _ => "MalformedFrame"
  | .rejected _ => "AdmissionRejected"
  | .handshake _ => "Handshake"
  | .io _ => "Io"

def message : ConnectionError → String
  | .closed => "Connection closed"
  | .timeout ms => timeoutMessage ms
  | .oversize size limit => oversizeMessage size limit
  | .malformed cause => "Malformed frame: " ++ cause.message
  | .rejected reason => "Connection rejected by broker: " ++ reason.message
  | .handshake fault => "Handshake failed: " ++ fault.message
  | .io failure => "I/O error: " ++ failure.text

/-- The end of a wait of the given length, in whole milliseconds as far as 64 bits hold
them. -/
def ofTimeout (d : Duration) : ConnectionError := .timeout (d.millis % UInt64.size)

def isTransient : ConnectionError → Bool
  | .closed | .timeout _ | .rejected _ | .io _ => true
  | .oversize _ _ | .malformed _ | .handshake _ => false

/-- A transport failure; one that only says that the peer is gone means that the connection is
closed. -/
def ofIo (failure : IoFailure) : ConnectionError :=
  if failure.kind.meansPeerGone then .closed else .io failure

def ofCodec : CodecError → ConnectionError
  | .oversize size limit => .oversize size limit
  | .malformed cause => .malformed cause
  | .io failure => ofIo failure

end ConnectionError
end WorkBroker
