import WorkBroker.Broker.Settings
/-!
The fields of a set-up by name.  Every field but the host is a number of bounded width.
-/

set_option autoImplicit false
set_option relaxedAutoImplicit false

namespace WorkBroker.Settings

inductive Field
  | port
  | maxConnections
  | maxRetries
  | maxMessageSize
  | queueCapacity
  | priorityLevels
  | ackTimeout
  | boostTimeout
  | handshakeTimeout
  | idleTimeout
  | monitorPeriod
  | shutdownGrace
  deriving DecidableEq, Repr, Inhabited

def hostName : String := "host"

namespace Field

def all : List Field :=
  [.port, .maxConnections, .maxRetries, .maxMessageSize, .queueCapacity, .priorityLevels,
    .ackTimeout, .boostTimeout, .handshakeTimeout, .idleTimeout, .monitorPeriod, .shutdownGrace]

def name : Field → String
  | .port => "port"
  | .maxConnections => "max_connections"
  | .maxRetries => "max_retries"
  | .maxMessageSize => "max_message_size"
  | .queueCapacity => "queue_capacity"
  | .priorityLevels => "priority_levels"
  | .ackTimeout => "ack_timeout_ms"
  | .boostTimeout => "boost_timeout_ms"
  | .handshakeTimeout => "handshake_timeout_ms"
  | .idleTimeout => "idle_timeout_ms"
  | .monitorPeriod => "monitor_period_ms"
  | .shutdownGrace => "shutdown_grace_ms"

def ofName? (name : String) : Option Field := all.find? (·.name == name)

def width : Field → Nat
  | .priorityLevels => 8
  | .port => 16
  | .maxRetries => 32
  | _ => 64

def bound : Field → Nat
  | .priorityLevels => UInt8.size
  | .port => UInt16.size
  | .maxRetries => UInt32.size
  | _ => UInt64.size

def get (f : Field) (s : Settings) : Nat :=
  match f with
  | .port => s.port.toNat
  | .maxConnections => s.maxConnections.toNat
  | .maxRetries => s.maxRetries.toNat
  | .maxMessageSize => s.maxMessageSize.toNat
  | .queueCapacity => s.queueCapacity.toNat
  | .priorityLevels => s.priorityLevels.toNat
  | .ackTimeout => s.ackTimeout.toNat
  | .boostTimeout => s.boostTimeout.toNat
  | .handshakeTimeout => s.handshakeTimeout.toNat
  | .idleTimeout => s.idleTimeout.toNat
  | .monitorPeriod => s.monitorPeriod.toNat
  | .shutdownGrace => s.shutdownGrace.toNat

/-- The set-up with a field changed; only the bits that fit are kept. -/
def set (f : Field) (n : Nat) (s : Settings) : Settings :=
  match f with
  | .port => { s with port := UInt16.ofNat n }
  | .maxConnections => { s with maxConnections := UInt64.ofNat n }
  | .maxRetries => { s with maxRetries := UInt32.ofNat n }
  | .maxMessageSize => { s with maxMessageSize := UInt64.ofNat n }
  | .queueCapacity => { s with queueCapacity := UInt64.ofNat n }
  | .priorityLevels => { s with priorityLevels := UInt8.ofNat n }
  | .ackTimeout => { s with ackTimeout := UInt64.ofNat n }
  | .boostTimeout => { s with boostTimeout := UInt64.ofNat n }
  | .handshakeTimeout => { s with handshakeTimeout := UInt64.ofNat n }
  | .idleTimeout => { s with idleTimeout := UInt64.ofNat n }
  | .monitorPeriod => { s with monitorPeriod := UInt64.ofNat n }
  | .shutdownGrace => { s with shutdownGrace := UInt64.ofNat n }

def set? (f : Field) (n : Int) (s : Settings) : Option Settings :=
  if 0 ≤ n ∧ n < f.bound then some (f.set n.toNat s) else none

theorem get_set {f : Field} {n : Nat} {s : Settings} (h : n < f.bound) :
    f.get (f.set n s) = n := by
  cases f with
  | port => exact UInt16.toNat_ofNat_of_lt h
  | maxRetries => exact UInt32.toNat_ofNat_of_lt h
  | priorityLevels => exact UInt8.toNat_ofNat_of_lt h
  | maxConnections | maxMessageSize | queueCapacity | ackTimeout | boostTimeout
  | handshakeTimeout | idleTimeout | monitorPeriod | shutdownGrace =>
    exact UInt64.toNat_ofNat_of_lt h

end Field
end WorkBroker.Settings
