import WorkBroker.Queue.Basic
import WorkBroker.Wire.PacketCodec
/-!
How a broker is set up, and what makes a set-up unusable.
-/

set_option autoImplicit false
set_option relaxedAutoImplicit false

namespace WorkBroker

/-- How a broker is set up.  Times are in milliseconds; an acknowledgement or boost timeout of zero
never fires. -/
structure Settings where
  host : String := "0.0.0.0"
  port : UInt16 := 9092
  maxConnections : UInt64 := 1000
  maxRetries : UInt32 := 2
  maxMessageSize : UInt64 := 1048576
  queueCapacity : UInt64 := 10000
  priorityLevels : UInt8 := 3
  ackTimeout : UInt64 := 30000
  boostTimeout : UInt64 := 5000
  handshakeTimeout : UInt64 := 5000
  idleTimeout : UInt64 := 300000
  monitorPeriod : UInt64 := 100
  shutdownGrace : UInt64 := 2000
  deriving DecidableEq, Repr, Inhabited

/-- The most connections that a limiter can count. -/
def maxPermits : Nat := 2305843009213693951

namespace Settings

def bindAddress (s : Settings) : String := s!"{s.host}:{s.port.toNat}"

def withAddress (s : Settings) (host : String) (port : UInt16) : Settings := { s with host, port }

/-- The span of some milliseconds, unless there are none. -/
def timer (ms : UInt64) : Option Duration :=
  if ms = 0 then none else some (Duration.ofMillis ms.toNat)

def ackTimer (s : Settings) : Option Duration := timer s.ackTimeout

def boostTimer (s : Settings) : Option Duration := timer s.boostTimeout

def handshakeLimit (s : Settings) : Duration := Duration.ofMillis s.handshakeTimeout.toNat

def idleLimit (s : Settings) : Duration := Duration.ofMillis s.idleTimeout.toNat

def sweepPeriod (s : Settings) : Duration := Duration.ofMillis s.monitorPeriod.toNat

def gracePeriod (s : Settings) : Duration := Duration.ofMillis s.shutdownGrace.toNat

def queue (s : Settings) : QueueSettings :=
  { capacity := s.queueCapacity.toNat, priorityLevels := s.priorityLevels.toNat,
    maxRetries := s.maxRetries.toNat, ackTimeout := s.ackTimer, boostTimeout := s.boostTimer }

/-- The largest payload limit for which every packet fits a frame header. -/
def maxPayloadLimit : Nat := maxHeaderValue - envelopeRoom

/-- What is wrong with a set-up, the first fault in the order of the fields. -/
def fault? (s : Settings) : Option String :=
  if s.maxConnections = 0 then some "max_connections must be > 0"
  else if s.maxConnections.toNat > maxPermits then some s!"max_connections must be <= {maxPermits}"
  else if s.maxMessageSize = 0 then some "max_message_size must be > 0"
  else if s.maxMessageSize.toNat > maxPayloadLimit then
    some s!"max_message_size must be <= {maxPayloadLimit}"
  else if s.queueCapacity = 0 then some "queue_capacity must be > 0"
  else if s.priorityLevels = 0 then some "priority_levels must be > 0"
  else if s.handshakeTimeout = 0 then some "handshake_timeout_ms must be > 0"
  else if s.idleTimeout = 0 then some "idle_timeout_ms must be > 0"
  else if s.monitorPeriod = 0 then some "monitor_period_ms must be > 0"
  else none

def IsValid (s : Settings) : Prop := s.fault? = none

instance (s : Settings) : Decidable s.IsValid := inferInstanceAs (Decidable (s.fault? = none))

end Settings
end WorkBroker
