import WorkBroker.Bytes
/-!
The inbox of a connection: bytes that have arrived and were not yet understood, and the room that is
kept for more.  A read never takes more than there is room for, so the room decides how many bytes
stay with the peer.  Making room keeps the bytes.
-/

set_option autoImplicit false
set_option relaxedAutoImplicit false

namespace WorkBroker

/-- Bytes that wait to be understood.  They lie behind `spent` bytes that have been understood and
whose room is not free yet; altogether there is room for `size` bytes. -/
structure Inbox where
  bytes : Bytes
  spent : Nat
  size : Nat
  /-- Whether it is worth looking at the bytes: some have come since a look found nothing. -/
  fresh : Bool
  deriving DecidableEq, Repr, Inhabited

namespace Inbox

def usualSize : Nat := 8192

def empty : Inbox := ⟨[], 0, usualSize, false⟩

/-- How many bytes can be put in behind the others. -/
def room (i : Inbox) : Nat := i.size - i.spent - i.bytes.length

/-- Makes room for `n` more bytes.  If there is too little, the bytes move to the front, provided that
this frees enough and that they are no more than the bytes that make way; else the inbox grows, at
least to twice its size. -/
def reserve (i : Inbox) (n : Nat) : Inbox :=
  if n ≤ i.room then i
  else if i.bytes.length + n ≤ i.size && i.bytes.length ≤ i.spent then { i with spent := 0 }
  else { i with size := max (2 * i.size) (i.spent + i.bytes.length + n) }

def append (i : Inbox) (more : Bytes) : Inbox := { i with bytes := i.bytes ++ more, fresh := true }

/-- Keeps only `rest`, the last of the bytes; those before it have been understood. -/
def keep (i : Inbox) (rest : Bytes) : Inbox :=
  { i with bytes := rest, spent := i.spent + (i.bytes.length - rest.length) }

/-- A look at the bytes has found nothing; `n` more are needed. -/
def await (i : Inbox) (n : Nat) : Inbox := { i.reserve n with fresh := false }

@[simp] theorem bytes_reserve (i : Inbox) (n : Nat) : (i.reserve n).bytes = i.bytes := by
  unfold reserve
  split
  · rfl
  · split <;> rfl

@[simp] theorem bytes_append (i : Inbox) (more : Bytes) :
    (i.append more).bytes = i.bytes ++ more := rfl

@[simp] theorem bytes_await (i : Inbox) (n : Nat) : (i.await n).bytes = i.bytes :=
  bytes_reserve i n

end Inbox
end WorkBroker
