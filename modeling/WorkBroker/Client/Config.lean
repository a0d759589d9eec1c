import WorkBroker.Client.Error
import WorkBroker.Retry.Policy
import WorkBroker.Text.Blank
import WorkBroker.Wire.Frame
/-!
How a client is set up, and what makes a set-up unusable.
-/

set_option autoImplicit false
set_option relaxedAutoImplicit false

namespace WorkBroker

structure RetryConfig where
  maxRetries : Nat := 3
  initialDelay : Duration := Duration.ofMillis 100
  maxDelay : Duration := Duration.ofMillis 5000
  multiplier : Float := 2.0
  deriving Inhabited

def RetryConfig.policy (c : RetryConfig) : RetryPolicy :=
  ⟨c.maxRetries, .exponential c.initialDelay c.maxDelay c.multiplier⟩

/-- How a client is set up.  Brokers are tried in order; the frame limit holds until the broker
announces its own. -/
structure ClientConfig where
  brokers : List String := ["127.0.0.1:9092"]
  connectionTimeout : Duration := Duration.ofMillis 5000
  requestTimeout : Duration := Duration.ofMillis 30000
  retry : RetryConfig := {}
  clientId : Option String := none
  maxMessageSize : Nat := 1048576
  deriving Inhabited

namespace ClientConfig

def name (c : ClientConfig) : String := c.clientId.getD "mqclient"

/-- What is wrong with a set-up, the first fault in the order of the fields. -/
def fault? (c : ClientConfig) : Option String :=
  if c.brokers.isEmpty then some "At least one broker must be specified"
  else
    match c.brokers.find? Text.isBlank with
    | some broker => some s!"Invalid broker address '{broker}'"
    | none =>
      if c.connectionTimeout.isZero then some "connection_timeout must be greater than zero"
      else if c.requestTimeout.isZero then some "request_timeout must be greater than zero"
      else if c.maxMessageSize = 0 || c.maxMessageSize > maxHeaderValue then
        some s!"max_message_size must be between 1 and {maxHeaderValue}"
      else if (c.clientId.map Bytes.sizeOfText).getD 0 > maxIdSize then
        some s!"client_id is longer than {maxIdSize} bytes"
      else if !c.retry.multiplier.isFinite || c.retry.multiplier < 1.0 then
        some "retry multiplier must be at least 1.0"
      else if c.retry.maxDelay.nanos < c.retry.initialDelay.nanos then
        some "retry max_delay must not be below initial_delay"
      else none

def validate (c : ClientConfig) : Except ClientError Unit :=
  match c.fault? with
  | some fault => .error (.invalidConfig fault)
  | none => .ok ()

end ClientConfig
end WorkBroker
