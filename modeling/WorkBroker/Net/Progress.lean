import WorkBroker.Net.Pipe
/-!
Plans whose actions all concern one link, carried out as far as the link and the clock allow.
-/

set_option autoImplicit false
set_option relaxedAutoImplicit false

namespace WorkBroker.Net

/-- Carries out an action at this end of a link, if it can be done now.  Over a link nothing else can
be reached. -/
def Link.attempt (now : Instant) (l : Link) : (action : Action) → Option (action.Outcome × Link)
  | .clock => some (now, l)
  | .dial _ _ => some (DialOutcome.failed .refused, l)
  | .read _ deadline most =>
    match l.incoming.read most with
    | some (outcome, incoming) => some (outcome, { l with incoming })
    | none =>
      match deadline with
      | some moment => if moment ≤ now then some (ReadOutcome.elapsed, l) else none
      | none => none
  | .write _ bytes =>
    match l.outgoing.write bytes with
    | some (outcome, outgoing) => some (outcome, { l with outgoing })
    | none => none
  | .shutdown _ => some ((), l.shutdown)
  | .discard _ => some ((), l.drop)
  | .sleepUntil moment => if moment ≤ now then some ((), l) else none
  | .log _ => some ((), l)

/-- When an action that cannot be done now can be done at the latest. -/
def Action.dueAt? : Action → Option Instant
  | .read _ deadline _ => deadline
  | .sleepUntil moment => some moment
  | _ => none

namespace Plan

variable {α : Type}

/-- Goes on with a plan as far as possible, and tells whether that was anywhere; `moved` is what is
known of that before. -/
def advance (now : Instant) (moved : Bool) : Plan α → Link → Bool × Plan α × Link
  | .done value, l => (moved, .done value, l)
  | .ask action next, l =>
    match l.attempt now action with
    | none => (moved, .ask action next, l)
    | some (outcome, l) => advance now true (next outcome) l

def dueAt? : Plan α → Option Instant
  | .done _ => none
  | .ask action _ => action.dueAt?

def value? : Plan α → Option α
  | .done value => some value
  | .ask _ _ => none

/-- A plan that waits for bytes gives up waiting. -/
def interrupt : Plan α → Plan α
  | .ask (.read _ _ _) next => next ReadOutcome.elapsed
  | p => p

end Plan
end WorkBroker.Net
