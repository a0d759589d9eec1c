/-!
Counters of a broker's traffic.
-/

set_option autoImplicit false
set_option relaxedAutoImplicit false

namespace WorkBroker

inductive Occasion
  | connectionOpened
  | connectionClosed
  | connectionRejected
  | handshakeFailed
  | requestReceived
  | errorSent
  | protocolViolation
  deriving DecidableEq, Repr, Inhabited

structure Metrics where
  opened : Nat := 0
  closed : Nat := 0
  rejected : Nat := 0
  handshakeFailures : Nat := 0
  requests : Nat := 0
  errors : Nat := 0
  violations : Nat := 0
  deriving DecidableEq, Repr, Inhabited

namespace Metrics

def note (m : Metrics) : Occasion → Metrics
  | .connectionOpened => { m with opened := m.opened + 1 }
  | .connectionClosed => { m with closed := m.closed + 1 }
  | .connectionRejected => { m with rejected := m.rejected + 1 }
  | .handshakeFailed => { m with handshakeFailures := m.handshakeFailures + 1 }
  | .requestReceived => { m with requests := m.requests + 1 }
  | .errorSent => { m with errors := m.errors + 1 }
  | .protocolViolation => { m with violations := m.violations + 1 }

def active (m : Metrics) : Nat := m.opened - m.closed

def entries (m : Metrics) : List (String × Nat) :=
  [("connections_opened", m.opened), ("connections_closed", m.closed),
    ("connections_active", m.active), ("connections_rejected", m.rejected),
    ("handshake_failures", m.handshakeFailures), ("requests_received", m.requests),
    ("errors_sent", m.errors), ("protocol_violations", m.violations)]

end Metrics
end WorkBroker
