import WorkBroker.Duration
/-!
Who acts next in a broker on the network.  Alarms that go off at one moment go off in the order in
which they were set, and whoever is called acts after all that were called before.
-/

set_option autoImplicit false
set_option relaxedAutoImplicit false

namespace WorkBroker.Net

inductive Actor
  | hub
  | line (id : Nat)
  deriving DecidableEq, Repr, Inhabited

inductive Alarm
  /-- The periodic sweep. -/
  | sweep
  /-- A delayed message falls due. -/
  | delayed
  /-- A line has waited for long enough. -/
  | line (id : Nat)
  deriving DecidableEq, Repr, Inhabited

def Alarm.actor : Alarm → Actor
  | .sweep | .delayed => .hub
  | .line id => .line id

/-- Alarms in the order in which they were set, and those who are to act, in order. -/
structure Agenda where
  alarms : List (Alarm × Instant)
  called : List Actor
  deriving DecidableEq, Repr, Inhabited

namespace Agenda

def empty : Agenda := ⟨[], []⟩

/-- Calls somebody, who may have been called before. -/
def call (a : Agenda) (actor : Actor) : Agenda :=
  if actor ∈ a.called then a else { a with called := a.called ++ [actor] }

def disarm (a : Agenda) (alarm : Alarm) : Agenda :=
  { a with alarms := a.alarms.filter (·.1 ≠ alarm) }

def arm (a : Agenda) (alarm : Alarm) (moment : Instant) : Agenda :=
  if alarm ∈ a.alarms.map (·.1) then a else { a with alarms := a.alarms ++ [(alarm, moment)] }

/-- Sets an alarm anew, or takes it back if there is nothing to wait for. -/
def rearm (a : Agenda) (alarm : Alarm) (moment : Option Instant) : Agenda :=
  match moment with
  | some moment => (a.disarm alarm).arm alarm moment
  | none => a.disarm alarm

def ring (a : Agenda) (now : Instant) : Agenda :=
  let due := a.alarms.filter (·.2 ≤ now)
  let left := a.alarms.filter fun e => !decide (e.2 ≤ now)
  due.foldl (fun a e => a.call e.1.actor) { a with alarms := left }

def nextAlarm? (a : Agenda) : Option Instant :=
  a.alarms.foldl (fun first e => Instant.earliest first (some e.2)) none

end Agenda
end WorkBroker.Net
