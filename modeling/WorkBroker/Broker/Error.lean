import WorkBroker.Connection.Error
import WorkBroker.Queue.Error
/-!
Failures that the broker reports to whoever runs it or waits for its queue.
-/

set_option autoImplicit false
set_option relaxedAutoImplicit false

namespace WorkBroker

inductive BrokerError
  | bind (address : String) (failure : IoFailure)
  | listenerClosed
  | admissionRejected (limit : Nat)
  | connection (error : ConnectionError)
  | queue (error : QueueError)
  | config (text : String)
  | shuttingDown
  | io (failure : IoFailure)
  deriving DecidableEq, Repr, Inhabited

namespace BrokerError

/-- The name of the kind of a failure; one that comes from a connection or from the queue keeps its
own. -/
def kind : BrokerError → String
  | .bind _ _ => "Bind"
  | .listenerClosed => "ListenerClosed"
  | .admissionRejected _ => "AdmissionRejected"
  | .connection error => error.kind
  | .queue error => error.kind
  | .config _ => "Config"
  | .shuttingDown => "ShuttingDown"
  | .io _ => "Io"

def message : BrokerError → String
  | .bind address failure => s!"Failed to bind {address}: {failure.text}"
  | .listenerClosed => "Listener closed"
  | .admissionRejected limit => s!"Admission rejected: limit of {limit} connections reached"
  | .connection error => error.message
  | .queue error => error.message
  | .config text => "Configuration error: " ++ text
  | .shuttingDown => "Broker is shutting down"
  | .io failure => "I/O error: " ++ failure.text

end BrokerError
end WorkBroker
