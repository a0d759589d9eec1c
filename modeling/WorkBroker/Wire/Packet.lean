import WorkBroker.Bytes
import WorkBroker.Text.Boundary
import WorkBroker.Wire.Error
/-!
The packets that brokers and clients exchange, the roles of clients, and the codes of errors.
-/

set_option autoImplicit false
set_option relaxedAutoImplicit false

namespace WorkBroker

inductive Role
  | producer
  | consumer
  | monitor
  deriving DecidableEq, Repr, Inhabited

namespace Role

def name : Role → String
  | .producer => "producer"
  | .consumer => "consumer"
  | .monitor => "monitor"

def ofName? (s : String) : Option Role :=
  if s = "producer" then some .producer
  else if s = "consumer" then some .consumer
  else if s = "monitor" then some .monitor
  else none

def toByte : Role → UInt8
  | .producer => 1
  | .consumer => 2
  | .monitor => 3

def ofByte? (b : UInt8) : Option Role :=
  if b = 1 then some .producer
  else if b = 2 then some .consumer
  else if b = 3 then some .monitor
  else none

theorem ofName?_name (r : Role) : ofName? r.name = some r := by cases r <;> decide

theorem ofByte?_toByte (r : Role) : ofByte? r.toByte = some r := by cases r <;> decide

end Role

inductive RejectReason
  | admissionLimit
  | shuttingDown
  deriving DecidableEq, Repr, Inhabited

namespace RejectReason

def name : RejectReason → String
  | .admissionLimit => "AdmissionLimit"
  | .shuttingDown => "ShuttingDown"

def ofName? (s : String) : Option RejectReason :=
  if s = "AdmissionLimit" then some .admissionLimit
  else if s = "ShuttingDown" then some .shuttingDown
  else none

theorem ofName?_name (r : RejectReason) : ofName? r.name = some r := by cases r <;> decide

def message : RejectReason → String
  | .admissionLimit => "admission limit reached"
  | .shuttingDown => "broker shutting down"

def toByte : RejectReason → UInt8
  | .admissionLimit => 1
  | .shuttingDown => 2

def ofByte? (b : UInt8) : Option RejectReason :=
  if b = 1 then some .admissionLimit else if b = 2 then some .shuttingDown else none

theorem ofByte?_toByte (r : RejectReason) : ofByte? r.toByte = some r := by cases r <;> decide

end RejectReason

inductive ErrorCode
  | unknown
  | invalidPriority
  | duplicateMessage
  | queueFull
  | unknownMessage
  | invalidToken
  | invalidState
  | roleViolation
  | messageTooLarge
  | invalidMessage
  | shuttingDown
  deriving DecidableEq, Repr, Inhabited

namespace ErrorCode

def toUInt16 : ErrorCode → UInt16
  | .unknown => 1
  | .invalidPriority => 2
  | .duplicateMessage => 3
  | .queueFull => 4
  | .unknownMessage => 5
  | .invalidToken => 6
  | .invalidState => 7
  | .roleViolation => 8
  | .messageTooLarge => 9
  | .invalidMessage => 10
  | .shuttingDown => 11

def ofUInt16 (n : UInt16) : ErrorCode :=
  match n.toNat with
  | 2 => .invalidPriority
  | 3 => .duplicateMessage
  | 4 => .queueFull
  | 5 => .unknownMessage
  | 6 => .invalidToken
  | 7 => .invalidState
  | 8 => .roleViolation
  | 9 => .messageTooLarge
  | 10 => .invalidMessage
  | 11 => .shuttingDown
  | _ => .unknown

def name : ErrorCode → String
  | .unknown => "Unknown"
  | .invalidPriority => "InvalidPriority"
  | .duplicateMessage => "DuplicateMessage"
  | .queueFull => "QueueFull"
  | .unknownMessage => "UnknownMessage"
  | .invalidToken => "InvalidToken"
  | .invalidState => "InvalidState"
  | .roleViolation => "RoleViolation"
  | .messageTooLarge => "MessageTooLarge"
  | .invalidMessage => "InvalidMessage"
  | .shuttingDown => "ShuttingDown"

theorem ofUInt16_toUInt16 (c : ErrorCode) : ofUInt16 c.toUInt16 = c := by cases c <;> decide

end ErrorCode

structure Welcome where
  connectionId : UInt64
  maxMessageSize : UInt32
  maxRetries : UInt32
  deriving DecidableEq, Repr, Inhabited

inductive Packet
  | hello (role : Role) (clientId : String)
  | push (id : String) (priority : UInt8) (delayMs : UInt32) (payload : Bytes)
  | pop (waitMs : UInt32)
  | ack (id : String) (token : UInt64) (requeue : Bool) (delayMs : UInt32)
  | ackPop (id : String) (token : UInt64) (requeue : Bool) (delayMs waitMs : UInt32)
  | count
  | listFailed (limit : UInt32)
  | eraseFailed (ids : List String)
  | goodbye
  | welcome (terms : Welcome)
  | rejected (reason : RejectReason)
  | accepted (id : String)
  | deliver (id : String) (token : UInt64) (attempt : UInt32) (payload : Bytes)
  | empty
  | acked (id : String)
  | counts (capacity active failed free : UInt64)
  | failed (ids : List String) (truncated : Bool)
  | erased (ids : List String)
  | error (code : ErrorCode) (message : String)
  deriving DecidableEq, Repr, Inhabited

namespace Packet

def kind : Packet → String
  | .hello .. => "Hello"
  | .push .. => "Push"
  | .pop .. => "Pop"
  | .ack .. => "Ack"
  | .ackPop .. => "AckPop"
  | .count => "Count"
  | .listFailed .. => "ListFailed"
  | .eraseFailed .. => "EraseFailed"
  | .goodbye => "Goodbye"
  | .welcome .. => "Welcome"
  | .rejected .. => "Rejected"
  | .accepted .. => "Accepted"
  | .deliver .. => "Deliver"
  | .empty => "Empty"
  | .acked .. => "Acked"
  | .counts .. => "Counts"
  | .failed .. => "Failed"
  | .erased .. => "Erased"
  | .error .. => "Error"

def typeByte : Packet → UInt8
  | .hello .. => 0x01
  | .push .. => 0x02
  | .pop .. => 0x03
  | .ack .. => 0x04
  | .count => 0x05
  | .listFailed .. => 0x06
  | .eraseFailed .. => 0x07
  | .goodbye => 0x08
  | .ackPop .. => 0x09
  | .welcome .. => 0x81
  | .rejected .. => 0x82
  | .accepted .. => 0x83
  | .deliver .. => 0x84
  | .empty => 0x85
  | .acked .. => 0x86
  | .counts .. => 0x87
  | .failed .. => 0x88
  | .erased .. => 0x89
  | .error .. => 0x8a

/-- Whether only clients may send the packet: its type byte has the high bit clear. -/
def isFromClient (p : Packet) : Bool := p.typeByte < 0x80

/-- A text cut at its last boundary within the longest error message. -/
def cutMessage (message : String) : String :=
  if Bytes.sizeOfText message ≤ maxErrorMessage then message
  else Text.cutAt message (Text.lastBoundary message maxErrorMessage)
    (Text.isBoundary_lastBoundary message maxErrorMessage)

def ofError (code : ErrorCode) (message : String) : Packet := .error code (cutMessage message)

end Packet
end WorkBroker
