import WorkBroker.Bytes
import WorkBroker.Duration
import WorkBroker.Log
import WorkBroker.Wire.Error
/-!
What a client does on the network, as a finite tree: each node asks for one action and goes on with
its outcome.  The same plan can be played against any surroundings (`Plan.run`).
-/

set_option autoImplicit false
set_option relaxedAutoImplicit false

namespace WorkBroker.Net

inductive DialOutcome
  | connected (link : Nat)
  | failed (failure : IoFailure)
  | elapsed
  deriving DecidableEq, Repr, Inhabited

/-- How a wait for bytes ends; bytes that have arrived are at least one. -/
inductive ReadOutcome
  | bytes (first : UInt8) (rest : Bytes)
  | ended
  | failed (failure : IoFailure)
  | elapsed
  deriving DecidableEq, Repr, Inhabited

/-- How an attempt to write ends: one byte was taken and some more, or the link failed. -/
inductive WriteOutcome
  | accepted (more : Nat)
  | failed (failure : IoFailure)
  deriving DecidableEq, Repr, Inhabited

/-- An action on the network or the clock.  A link is named by a number. -/
inductive Action
  /-- Look at the clock. -/
  | clock
  /-- Reach an address before a deadline. -/
  | dial (address : String) (deadline : Instant)
  /-- Wait for bytes, if need be until a deadline, and take at most so many. -/
  | read (link : Nat) (deadline : Option Instant) (most : Nat)
  /-- Write a front part of some bytes, as soon as there is room. -/
  | write (link : Nat) (bytes : Bytes)
  /-- Announce that no more will be written. -/
  | shutdown (link : Nat)
  /-- Let go of a link. -/
  | discard (link : Nat)
  | sleepUntil (moment : Instant)
  /-- Add a line to the log. -/
  | log (line : LogLine)
  deriving DecidableEq, Repr, Inhabited

def Action.Outcome : Action → Type
  | .clock => Instant
  | .dial _ _ => DialOutcome
  | .read _ _ _ => ReadOutcome
  | .write _ _ => WriteOutcome
  | .shutdown _ | .discard _ | .sleepUntil _ | .log _ => Unit

/-- A plan that ends in a value of `α`. -/
inductive Plan (α : Type) : Type
  | done (value : α)
  | ask (action : Action) (next : action.Outcome → Plan α)

namespace Plan

variable {α β γ σ : Type}

def bind (p : Plan α) (f : α → Plan β) : Plan β :=
  match p with
  | .done value => f value
  | .ask action next => .ask action fun outcome => (next outcome).bind f

instance : Monad Plan where
  pure := .done
  bind := Plan.bind

instance : Inhabited (Plan Unit) := ⟨.done ()⟩

def act (action : Action) : Plan action.Outcome := .ask action .done

def clock : Plan Instant := act .clock

def deadline (d : Duration) : Plan Instant := return (← clock).afterWait d

def sleep (d : Duration) : Plan Unit := do act (.sleepUntil (← deadline d))

def log (level : LogLevel) (speaker text : String) : Plan Unit := act (.log ⟨level, speaker, text⟩)

def run (perform : (action : Action) → σ → action.Outcome × σ) : Plan α → σ → α × σ
  | .done value, s => (value, s)
  | .ask action next, s =>
    let (outcome, s) := perform action s
    run perform (next outcome) s

@[simp] theorem bind_done (value : α) (f : α → Plan β) : (Plan.done value).bind f = f value := rfl

theorem bind_pure_done (p : Plan α) : p.bind .done = p := by
  induction p with
  | done value => rfl
  | ask action next ih => simp only [Plan.bind, ih]

theorem bind_assoc (p : Plan α) (f : α → Plan β) (g : β → Plan γ) :
    (p.bind f).bind g = p.bind fun a => (f a).bind g := by
  induction p with
  | done value => rfl
  | ask action next ih => simp only [Plan.bind, ih]

theorem run_bind (perform : (action : Action) → σ → action.Outcome × σ) (p : Plan α)
    (f : α → Plan β) (s : σ) :
    (p.bind f).run perform s =
      (f (p.run perform s).1).run perform (p.run perform s).2 := by
  induction p generalizing s with
  | done value => rfl
  | ask action next ih => simp only [Plan.bind, run, ih]

end Plan
end WorkBroker.Net
