import WorkBroker.Bytes
import WorkBroker.Net.Plan
/-!
A one-way stream of bytes with limited room.  What was written before it was closed can still be
read; nothing more can be written.
-/

set_option autoImplicit false
set_option relaxedAutoImplicit false

namespace WorkBroker.Net

/-- The bytes on their way, the most that may be on their way, and whether either end has gone. -/
structure Pipe where
  bytes : Bytes
  capacity : Nat
  closed : Bool
  deriving DecidableEq, Repr, Inhabited

namespace Pipe

def ofCapacity (capacity : Nat) : Pipe := ⟨[], capacity, false⟩

/-- Takes what has arrived, at most `most` bytes but never none of some; `none` while there is nothing
to say. -/
def read (p : Pipe) (most : Nat) : Option (ReadOutcome × Pipe) :=
  match p.bytes with
  | first :: rest =>
    some (.bytes first (rest.take (most - 1)), { p with bytes := rest.drop (most - 1) })
  | [] => if p.closed then some (.ended, p) else none

def write (p : Pipe) (bytes : Bytes) : Option (WriteOutcome × Pipe) :=
  if p.closed then some (.failed .brokenPipe, p)
  else
    let room := p.capacity - p.bytes.length
    let count := min room bytes.length
    if count = 0 then none
    else some (.accepted (count - 1), { p with bytes := p.bytes ++ bytes.take count })

def close (p : Pipe) : Pipe := { p with closed := true }

end Pipe

/-- Two pipes in opposite directions, seen from one end. -/
structure Link where
  outgoing : Pipe
  incoming : Pipe
  deriving DecidableEq, Repr, Inhabited

namespace Link

def ofCapacity (capacity : Nat) : Link := ⟨Pipe.ofCapacity capacity, Pipe.ofCapacity capacity⟩

def flip (l : Link) : Link := ⟨l.incoming, l.outgoing⟩

def shutdown (l : Link) : Link := { l with outgoing := l.outgoing.close }

def drop (l : Link) : Link := ⟨l.outgoing.close, l.incoming.close⟩

theorem flip_flip (l : Link) : l.flip.flip = l := rfl

end Link
end WorkBroker.Net
