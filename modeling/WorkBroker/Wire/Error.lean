import WorkBroker.Text.Quoted
/-!
What can go wrong between a packet and its bytes: a payload above a limit, bytes that follow no
layout, and failures of the transport underneath.
-/

set_option autoImplicit false
set_option relaxedAutoImplicit false

namespace WorkBroker

inductive IoKind
  | brokenPipe
  | connectionReset
  | connectionAborted
  | unexpectedEnd
  | connectionRefused
  | addressInUse
  | other
  deriving DecidableEq, Repr, Inhabited

def IoKind.ofName (name : String) : IoKind :=
  match name with
  | "BrokenPipe" => .brokenPipe
  | "ConnectionReset" => .connectionReset
  | "ConnectionAborted" => .connectionAborted
  | "UnexpectedEof" => .unexpectedEnd
  | "ConnectionRefused" => .connectionRefused
  | "AddrInUse" => .addressInUse
  | _ => .other

/-- Whether a failure of this kind only says that the peer is gone. -/
def IoKind.meansPeerGone : IoKind → Bool
  | .brokenPipe | .connectionReset | .connectionAborted | .unexpectedEnd => true
  | _ => false

structure IoFailure where
  kind : IoKind
  text : String
  deriving DecidableEq, Repr, Inhabited

namespace IoFailure

def bytesLeft : IoFailure := ⟨.other, "bytes remaining on stream"⟩

def brokenPipe : IoFailure := ⟨.brokenPipe, "broken pipe"⟩

def refused : IoFailure := ⟨.connectionRefused, "Connection refused (os error 111)"⟩

def addressInUse : IoFailure := ⟨.addressInUse, "Address already in use (os error 98)"⟩

end IoFailure

/-- Why bytes are no frame or no packet, or why a packet has no bytes. -/
inductive Malformation
  | headerTooShort (available : Nat)
  | declaredTooLong (declared limit : Nat)
  | payloadTooShort (declared available : Nat)
  | bytesAfterFrame (count : Nat)
  | truncated (field : String) (needed available : Nat)
  | badFlag (field : String) (value : Nat)
  | notText (field : String)
  | emptyId (field : String)
  | longId (field : String) (size : Nat)
  | tooManyIds (count : Nat)
  | longErrorMessage
  | unknownRole (value : Nat)
  | unknownRejectReason (value : Nat)
  | unknownPacketType (value : UInt8)
  | bytesAfterPacket (count : Nat) (kind : String)
  | frameTooLong (declared limit : Nat)
  | notFromClient (kind : String)
  | described (text : String)
  deriving DecidableEq, Repr, Inhabited

def headerSize : Nat := 4

/-- The longest message id or client id, in bytes. -/
def maxIdSize : Nat := 255

def maxIds : Nat := 200

/-- The longest error message, in bytes. -/
def maxErrorMessage : Nat := 1024

def hexByte (b : UInt8) : String :=
  let digits := Text.hex b.toNat
  if digits.length < 2 then "0" ++ digits else digits

def Malformation.message : Malformation → String
  | .headerTooShort available => s!"frame header needs {headerSize} bytes, {available} available"
  | .declaredTooLong declared limit => s!"declared length {declared} exceeds limit {limit}"
  | .payloadTooShort declared available => s!"frame declares {declared} bytes, {available} available"
  | .bytesAfterFrame count => s!"{count} trailing bytes after frame"
  | .truncated field needed available =>
    s!"truncated {field}: need {needed} bytes, {available} available"
  | .badFlag field value => s!"invalid {field} flag {value}"
  | .notText field => s!"{field} is not UTF-8"
  | .emptyId field => s!"{field} is empty"
  | .longId field size => s!"{field} of {size} bytes exceeds {maxIdSize}"
  | .tooManyIds count => s!"{count} ids exceed the per-packet limit of {maxIds}"
  | .longErrorMessage => "error message too long"
  | .unknownRole value => s!"unknown role {value}"
  | .unknownRejectReason value => s!"unknown reject reason {value}"
  | .unknownPacketType value => "unknown packet type 0x" ++ hexByte value
  | .bytesAfterPacket count kind => s!"{count} trailing bytes after {kind}"
  | .frameTooLong declared limit => s!"frame of {declared} bytes exceeds limit {limit}"
  | .notFromClient kind => s!"unexpected {kind} from client"
  | .described text => text

inductive CodecError
  | oversize (size limit : Nat)
  | malformed (cause : Malformation)
  | io (failure : IoFailure)
  deriving DecidableEq, Repr, Inhabited

def oversizeMessage (size limit : Nat) : String := s!"Message size {size} exceeds maximum {limit}"

def CodecError.kind : CodecError → String
  | .oversize _ _ => "Oversize"
  | .malformed _ => "MalformedFrame"
  | .io _ => "Io"

def CodecError.message : CodecError → String
  | .oversize size limit => oversizeMessage size limit
  | .malformed cause => "Malformed frame: " ++ cause.message
  | .io failure => "I/O error: " ++ failure.text

end WorkBroker
