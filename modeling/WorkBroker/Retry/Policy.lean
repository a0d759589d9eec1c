import WorkBroker.Retry.Backoff
/-!
Retrying an operation: the budget, the state between two attempts, and how it all ends.  The main
statement is that a step that asks for another attempt uses up one retry.
-/

set_option autoImplicit false
set_option relaxedAutoImplicit false

namespace WorkBroker

structure RetryPolicy where
  maxRetries : Nat
  backoff : Backoff
  deriving Inhabited

namespace RetryPolicy

/-- Two retries, the first after 100 ms, the wait doubling up to five seconds. -/
def standard : RetryPolicy :=
  ⟨2, .exponential (Duration.ofMillis 100) (Duration.ofMillis 5000) 2.0⟩

def never : RetryPolicy := ⟨0, .fixed Duration.zero⟩

/-- How often an operation runs at most, as far as 32 bits can tell. -/
def maxAttempts (p : RetryPolicy) : Nat := Nat.min (p.maxRetries + 1) 4294967295

end RetryPolicy

inductive Outcome (ε α : Type)
  | delivered (value : α)
  | rejected (error : ε)
  | exhausted (attempts : Nat) (last : ε)
  deriving Inhabited

namespace Outcome

variable {ε α β : Type}

def kind : Outcome ε α → String
  | .delivered _ => "Delivered"
  | .rejected _ => "Rejected"
  | .exhausted _ _ => "Exhausted"

def isDelivered : Outcome ε α → Bool
  | .delivered _ => true
  | _ => false

def delivered? : Outcome ε α → Option α
  | .delivered value => some value
  | _ => none

def map (f : α → β) : Outcome ε α → Outcome ε β
  | .delivered value => .delivered (f value)
  | .rejected error => .rejected error
  | .exhausted attempts last => .exhausted attempts last

def message (describe : ε → String) : Outcome ε α → String
  | .delivered _ => "delivered"
  | .rejected error => "rejected: " ++ describe error
  | .exhausted attempts last => s!"exhausted after {attempts} attempts: {describe last}"

end Outcome

/-- Where a retried operation stands: attempts are counted from one. -/
inductive RetryState
  | attempting (attempt remaining : Nat)
  | finished
  deriving DecidableEq, Repr, Inhabited

inductive RetryStep (ε α : Type)
  | retry (delay : Duration)
  | done (outcome : Outcome ε α)

namespace RetryState

variable {ε α : Type}

def start (p : RetryPolicy) : RetryState := .attempting 1 p.maxRetries

def attempt : RetryState → Nat
  | .attempting attempt _ => attempt
  | .finished => 0

def remaining : RetryState → Nat
  | .attempting _ remaining => remaining
  | .finished => 0

def isFinished : RetryState → Bool
  | .attempting _ _ => false
  | .finished => true

/-- What follows the result of the current attempt: a success and a permanent error end the
operation, a transient error does so once no retry is left. -/
def advance (transient : ε → Bool) (p : RetryPolicy) (s : RetryState) (result : Except ε α) :
    RetryStep ε α × RetryState :=
  match s, result with
  | .finished, .ok value => (.done (.delivered value), .finished)
  | .finished, .error e => (.done (.rejected e), .finished)
  | .attempting _ _, .ok value => (.done (.delivered value), .finished)
  | .attempting attempt remaining, .error e =>
    if !transient e then (.done (.rejected e), .finished)
    else if remaining = 0 then (.done (.exhausted attempt e), .finished)
    else (.retry (p.backoff.delayFor attempt), .attempting (attempt + 1) (remaining - 1))

theorem remaining_lt_of_retry {transient : ε → Bool} {p : RetryPolicy} {s next : RetryState}
    {result : Except ε α} {delay : Duration}
    (h : s.advance transient p result = (.retry delay, next)) : next.remaining < s.remaining := by
  unfold advance at h
  split at h
  · simp at h
  · simp at h
  · simp at h
  · split at h
    · simp at h
    · split at h
      · simp at h
      · simp only [Prod.mk.injEq] at h
        rw [← h.2]
        simp only [remaining]
        omega

end RetryState
end WorkBroker
