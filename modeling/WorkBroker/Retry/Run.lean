import WorkBroker.Retry.Policy
/-!
Running an operation under a retry policy, in any setting that can sleep.
-/

set_option autoImplicit false
set_option relaxedAutoImplicit false

namespace WorkBroker.RetryPolicy

variable {m : Type → Type} [Monad m] {ε α : Type}

/-- Runs an operation from a given state on, sleeping between two attempts. -/
def runFrom (p : RetryPolicy) (transient : ε → Bool) (sleep : Duration → m Unit)
    (operation : Nat → m (Except ε α)) (s : RetryState) : m (Outcome ε α) := do
  let result ← operation s.attempt
  match _h : s.advance transient p result with
  | (.done outcome, _) => return outcome
  | (.retry delay, next) => do
    sleep delay
    runFrom p transient sleep operation next
termination_by s.remaining
decreasing_by exact RetryState.remaining_lt_of_retry _h

/-- Runs an operation until it succeeds, fails for good, or has used up the policy's retries.  The
operation is given the number of the attempt. -/
def run (p : RetryPolicy) (transient : ε → Bool) (sleep : Duration → m Unit)
    (operation : Nat → m (Except ε α)) : m (Outcome ε α) :=
  p.runFrom transient sleep operation (RetryState.start p)

end WorkBroker.RetryPolicy
