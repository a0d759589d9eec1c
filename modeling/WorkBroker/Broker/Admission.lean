import WorkBroker.Broker.Error
import WorkBroker.Broker.Settings
/-!
Admission: how many connections a broker holds at a time, and how many it has admitted and turned
away.
-/

set_option autoImplicit false
set_option relaxedAutoImplicit false

namespace WorkBroker

/-- A limiter of connections.  `active` never exceeds `limit` as long as only admitted connections
are released. -/
structure Limiter where
  limit : Nat
  active : Nat
  admitted : Nat
  rejected : Nat
  deriving DecidableEq, Repr, Inhabited

namespace Limiter

/-- A limiter for `n` connections, or as many as can be counted. -/
def ofLimit (n : Nat) : Limiter := ⟨min n maxPermits, 0, 0, 0⟩

def canAdmit (l : Limiter) : Bool := l.active < l.limit

def enter (l : Limiter) : Except BrokerError Unit × Limiter :=
  if l.canAdmit then
    (.ok (), { l with active := l.active + 1, admitted := l.admitted + 1 })
  else (.error (.admissionRejected l.limit), { l with rejected := l.rejected + 1 })

def release (l : Limiter) : Limiter := { l with active := l.active - 1 }

/-- The share of the places that are taken, zero if there are none. -/
def utilization (l : Limiter) : Float :=
  if l.limit = 0 then 0.0 else Float.ofNat l.active / Float.ofNat l.limit

end Limiter

/-- A limiter and the places that are taken, numbered as they were handed out. -/
structure Permits where
  limiter : Limiter
  next : Nat
  held : List Nat
  deriving DecidableEq, Repr, Inhabited

namespace Permits

def ofLimit (n : Nat) : Permits := ⟨Limiter.ofLimit n, 0, []⟩

def take (p : Permits) : Except BrokerError Nat × Permits :=
  match p.limiter.enter with
  | (.ok (), limiter) => (.ok p.next, ⟨limiter, p.next + 1, p.next :: p.held⟩)
  | (.error e, limiter) => (.error e, { p with limiter })

def giveBack (p : Permits) (number : Nat) : Bool × Permits :=
  if p.held.contains number then
    (true, { p with limiter := p.limiter.release, held := p.held.erase number })
  else (false, p)

def giveBackAll (p : Permits) : Permits :=
  ⟨p.held.foldl (fun l _ => l.release) p.limiter, 0, []⟩

end Permits
end WorkBroker
