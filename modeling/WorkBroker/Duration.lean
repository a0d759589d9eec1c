/-!
Spans of time and points on a clock, both counted in whole nanoseconds.
-/

set_option autoImplicit false
set_option relaxedAutoImplicit false

namespace WorkBroker

structure Duration where
  nanos : Nat
  deriving DecidableEq, Repr, Inhabited

namespace Duration

def zero : Duration := ⟨0⟩

def ofMillis (n : Nat) : Duration := ⟨n * 1000000⟩

def ofParts (seconds nanos : Nat) : Duration := ⟨seconds * 1000000000 + nanos⟩

def millis (d : Duration) : Nat := d.nanos / 1000000

def wholeSeconds (d : Duration) : Nat := d.nanos / 1000000000

def subsecNanos (d : Duration) : Nat := d.nanos % 1000000000

def isZero (d : Duration) : Bool := d.nanos == 0

/-- The span `a`, cut to `limit`. -/
def atMost (a limit : Duration) : Duration := if a.nanos ≤ limit.nanos then a else limit

/-- The longest wait there is, thirty years of 365 days: a longer one ends after this time. -/
def longestWait : Duration := ofParts 946080000 0

theorem millis_ofMillis (n : Nat) : (ofMillis n).millis = n := by
  simp [ofMillis, millis]

theorem ofParts_wholeSeconds_subsecNanos (d : Duration) :
    ofParts d.wholeSeconds d.subsecNanos = d := by
  simp only [ofParts, wholeSeconds, subsecNanos, Nat.div_add_mod']

end Duration

/-- A point in time: nanoseconds since the clock started. -/
structure Instant where
  nanos : Nat
  deriving DecidableEq, Repr, Inhabited

namespace Instant

def start : Instant := ⟨0⟩

def ofMillis (n : Nat) : Instant := ⟨n * 1000000⟩

def millis (t : Instant) : Nat := t.nanos / 1000000

/-- The moment `d` after `t`.  This clock has no end, so it is not modelled that a real one may hold no
such moment, where asking for it is a failure of the whole program and not of a call. -/
def after (t : Instant) (d : Duration) : Instant := ⟨t.nanos + d.nanos⟩

/-- The span from `earlier` to `t`, zero if `t` comes first. -/
def since (t earlier : Instant) : Duration := ⟨t.nanos - earlier.nanos⟩

/-- The first whole millisecond that is not before `t`: timers fire on whole milliseconds. -/
def ceilMillis (t : Instant) : Instant := ⟨(t.nanos + 999999) / 1000000 * 1000000⟩

/-- The moment at which a wait of `d` that begins at `t` is over. -/
def afterWait (t : Instant) (d : Duration) : Instant :=
  (t.after (d.atMost Duration.longestWait)).ceilMillis

instance : LE Instant := ⟨fun a b => a.nanos ≤ b.nanos⟩
instance : LT Instant := ⟨fun a b => a.nanos < b.nanos⟩
instance (a b : Instant) : Decidable (a ≤ b) := inferInstanceAs (Decidable (a.nanos ≤ b.nanos))
instance (a b : Instant) : Decidable (a < b) := inferInstanceAs (Decidable (a.nanos < b.nanos))

/-- The earlier of two moments, as far as there are any. -/
def earliest (a b : Option Instant) : Option Instant :=
  match a, b with
  | some a, some b => some (if a ≤ b then a else b)
  | some a, none => some a
  | none, b => b

end Instant
end WorkBroker
