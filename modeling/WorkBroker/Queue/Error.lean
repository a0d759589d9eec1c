import WorkBroker.Wire.Packet
/-!
Why the queue refuses an operation.
-/

set_option autoImplicit false
set_option relaxedAutoImplicit false

namespace WorkBroker

inductive QueueError
  | invalidPriority (priority levels : Nat)
  | duplicateMessage (id : String)
  | queueFull (capacity : Nat)
  | unknownMessage (id : String)
  | invalidToken (id : String)
  | invalidState (id : String)
  deriving DecidableEq, Repr, Inhabited

namespace QueueError

def kind : QueueError → String
  | .invalidPriority _ _ => "InvalidPriority"
  | .duplicateMessage _ => "DuplicateMessage"
  | .queueFull _ => "QueueFull"
  | .unknownMessage _ => "UnknownMessage"
  | .invalidToken _ => "InvalidToken"
  | .invalidState _ => "InvalidState"

def message : QueueError → String
  | .invalidPriority priority levels => s!"Invalid priority {priority}: {levels} levels configured"
  | .duplicateMessage id => s!"Duplicate message id '{id}'"
  | .queueFull capacity => s!"Queue full: capacity {capacity}"
  | .unknownMessage id => s!"No message with id '{id}'"
  | .invalidToken id => s!"Invalid token for message '{id}'"
  | .invalidState id => s!"Message '{id}' is not running"

def code : QueueError → ErrorCode
  | .invalidPriority _ _ => .invalidPriority
  | .duplicateMessage _ => .duplicateMessage
  | .queueFull _ => .queueFull
  | .unknownMessage _ => .unknownMessage
  | .invalidToken _ => .invalidToken
  | .invalidState _ => .invalidState

end QueueError
end WorkBroker
