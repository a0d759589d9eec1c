import WorkBroker.Connection.Error
/-!
Failures that the client library reports, and which of them are worth another attempt.
-/

set_option autoImplicit false
set_option relaxedAutoImplicit false

namespace WorkBroker

inductive ClientError
  | connection (error : ConnectionError)
  | connect (broker : String) (failure : IoFailure)
  | timeout (ms : Nat)
  | messageTooLarge (size limit : Nat)
  | broker (code : ErrorCode) (text : String)
  | protocol (text : String)
  | invalidConfig (text : String)
  | noBrokers
  | exhausted (attempts : Nat) (last : ClientError)
  deriving DecidableEq, Repr, Inhabited

namespace ClientError

def kind : ClientError → String
  | .connection _ => "Connection"
  | .connect _ _ => "Connect"
  | .timeout _ => "Timeout"
  | .messageTooLarge _ _ => "MessageTooLarge"
  | .broker _ _ => "Broker"
  | .protocol _ => "Protocol"
  | .invalidConfig _ => "InvalidConfig"
  | .noBrokers => "NoBrokersAvailable"
  | .exhausted _ _ => "Exhausted"

def message : ClientError → String
  | .connection error => "Connection error: " ++ error.message
  | .connect address failure => s!"Failed to connect to {address}: {failure.text}"
  | .timeout ms => timeoutMessage ms
  | .messageTooLarge size limit => oversizeMessage size limit
  | .broker code text => s!"Broker error ({code.name}): {text}"
  | .protocol text => "Protocol error: " ++ text
  | .invalidConfig text => "Invalid configuration: " ++ text
  | .noBrokers => "No available brokers"
  | .exhausted attempts last => s!"Gave up after {attempts} attempts: {last.message}"

def ofConnection : ConnectionError → ClientError
  | .oversize size limit => .messageTooLarge size limit
  | .timeout ms => .timeout ms
  | error => .connection error

/-- The code that the broker reported, also under attempts that were given up. -/
def brokerCode? : ClientError → Option ErrorCode
  | .broker code _ => some code
  | .exhausted _ last => last.brokerCode?
  | _ => none

/-- Whether another attempt may succeed: failures of the transport and a broker that is going
away, but nothing that was refused on its merits. -/
def isRetryable : ClientError → Bool
  | .connection error => error.isTransient
  | .connect _ _ | .timeout _ | .noBrokers => true
  | .broker code _ => code = .shuttingDown
  | _ => false

def isConnectionError : ClientError → Bool
  | .connection _ | .connect _ _ | .noBrokers => true
  | _ => false

def isTimeout : ClientError → Bool
  | .timeout _ | .connection (.timeout _) => true
  | _ => false

/-- Whether a well-formed request was refused for good because of its payload or the state of the
queue. -/
def isRejection : ClientError → Bool
  | .messageTooLarge _ _ => true
  | .broker code _ =>
    match code with
    | .queueFull | .messageTooLarge | .invalidPriority | .invalidMessage | .duplicateMessage => true
    | _ => false
  | _ => false

end ClientError
end WorkBroker
