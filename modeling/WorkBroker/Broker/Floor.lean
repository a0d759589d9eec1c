import WorkBroker.Broker.Admission
import WorkBroker.Broker.Metrics
import WorkBroker.Wire.Packet
/-!
The books of a broker: who is connected, how many more may come, and what has been counted.  Every
connection gets the next number, whether it is admitted or not.
-/

set_option autoImplicit false
set_option relaxedAutoImplicit false

namespace WorkBroker

/-- A connection that was admitted, and who is at its other end once that is known. -/
structure Guest where
  id : Nat
  role : Option Role
  clientId : Option String
  deriving DecidableEq, Repr, Inhabited

structure Floor where
  limiter : Limiter
  metrics : Metrics
  guests : List Guest
  nextId : Nat
  deriving DecidableEq, Repr, Inhabited

namespace Floor

def ofLimit (n : Nat) : Floor := ⟨Limiter.ofLimit n, {}, [], 1⟩

def note (f : Floor) (o : Occasion) : Floor := { f with metrics := f.metrics.note o }

/-- Numbers a new connection and admits it, or turns it away. -/
def arrive (f : Floor) : (Nat × Bool) × Floor :=
  match f.limiter.enter with
  | (.ok (), limiter) =>
    ((f.nextId, true),
      { f with
        limiter
        metrics := f.metrics.note .connectionOpened
        guests := f.guests ++ [⟨f.nextId, none, none⟩]
        nextId := f.nextId + 1 })
  | (.error _, limiter) =>
    ((f.nextId, false),
      { f with limiter, metrics := f.metrics.note .connectionRejected, nextId := f.nextId + 1 })

def introduce (f : Floor) (id : Nat) (role : Role) (clientId : String) : Floor :=
  { f with guests := f.guests.map fun g =>
      if g.id = id then { g with role := some role, clientId := some clientId } else g }

def leave (f : Floor) (id : Nat) : Floor :=
  { f with
    limiter := f.limiter.release
    metrics := f.metrics.note .connectionClosed
    guests := f.guests.filter (·.id ≠ id) }

def knows (f : Floor) (id : Nat) : Bool := f.guests.any (·.id = id)

end Floor
end WorkBroker
