import WorkBroker.Duration
/-!
How long to wait before a retry.  An exponential delay is computed in doubles from whole
milliseconds, and never exceeds its maximum.
-/

set_option autoImplicit false
set_option relaxedAutoImplicit false

namespace WorkBroker

inductive Backoff
  | fixed (delay : Duration)
  | exponential (initial max : Duration) (multiplier : Float)
  deriving Inhabited

namespace Backoff

private def squaring (x : Float) (acc : Float) (n : Nat) : Float :=
  let acc := if n % 2 = 1 then acc * x else acc
  if h : n / 2 = 0 then acc else squaring (x * x) acc (n / 2)
termination_by n
decreasing_by omega

/-- The power of a double by repeated squaring, lowest binary digit of the exponent first. -/
def power (x : Float) (n : Nat) : Float := squaring x 1.0 n

def nearest (n : Nat) : Float := Float.ofScientific n false 0

/-- The largest exponent that a delay is computed with. -/
def maxExponent : Nat := 64

/-- The factor between the first delay and the one before retry number `retry`.  A multiplier below
one, or one that is no number, counts as one. -/
def growth (multiplier : Float) (retry : Nat) : Float :=
  power (if multiplier > 1.0 then multiplier else 1.0) (Nat.min (retry - 1) maxExponent)

/-- The wait before retry number `retry`, the first retry being number one. -/
def delayFor (b : Backoff) (retry : Nat) : Duration :=
  match b with
  | .fixed delay => delay
  | .exponential initial max multiplier =>
    let millis := nearest initial.millis * growth multiplier retry
    if !millis.isFinite || millis >= nearest max.millis then max
    else (Duration.ofMillis millis.toUInt64.toNat).atMost max

theorem delayFor_exponential_le (initial max : Duration) (multiplier : Float) (retry : Nat) :
    ((Backoff.exponential initial max multiplier).delayFor retry).nanos ≤ max.nanos := by
  simp only [delayFor]
  split
  · exact Nat.le_refl _
  · unfold Duration.atMost
    split <;> simp_all

end Backoff
end WorkBroker
