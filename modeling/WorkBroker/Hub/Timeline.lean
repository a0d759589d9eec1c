import WorkBroker.Hub.Desk
/-!
A desk on a clock that jumps from timer to timer.  The hub sweeps at every multiple of a period and
whenever a delayed message falls due.  Between two calls everything that can happen at the current
moment has happened.
-/

set_option autoImplicit false
set_option relaxedAutoImplicit false

namespace WorkBroker

/-- A desk at a moment of its clock.  `nextSweep` is when the periodic sweep is due again. -/
structure Timeline where
  desk : Desk
  now : Instant
  period : Duration
  nextSweep : Instant
  deriving Inhabited

namespace Timeline

def step (t : Timeline) : Nat := max t.period.nanos 1

def sweepsDue (t : Timeline) : Nat :=
  if t.desk.stopped then 0
  else if t.nextSweep ≤ t.now then (t.now.nanos - t.nextSweep.nanos) / t.step + 1
  else 0

/-- Does one thing at the desk after another, and collects the calls that were replied to. -/
def andThen (r : List Nat × Timeline) (f : Desk → List Nat × Desk) : List Nat × Timeline :=
  let (more, desk) := f r.2.desk
  (r.1 ++ more, { r.2 with desk })

/-- The sweep for delayed messages, if one is due. -/
def sweepDelayed (now : Instant) (d : Desk) : List Nat × Desk :=
  match d.nextDue? with
  | some due => if due ≤ now then d.tick now else ([], d)
  | none => ([], d)

/-- The hub does what it has to do at the current moment: it looks at every request, sweeps if a
delayed message is due, and then sweeps once for every period that is over.  The numbers are those of
the calls that it replies to, in order. -/
def turn (t : Timeline) : List Nat × Timeline :=
  let r := andThen ([], t) fun d => d.workAll t.now
  let r := andThen r (sweepDelayed t.now)
  let (replied, t) := (List.range t.sweepsDue).foldl (fun r _ => andThen r (·.tick t.now)) r
  (replied, { t with nextSweep := ⟨t.nextSweep.nanos + t.sweepsDue * t.step⟩ })

/-- Does everything that is due at the current moment: first the hub, and then the callers whose time
is over. -/
def settle (t : Timeline) : Timeline :=
  let t := t.turn.2
  { t with desk := t.desk.collectAll.expire t.now |>.collectAll }

def ofSettings (settings : QueueSettings) (period : Duration) : Timeline :=
  settle
    { desk := Desk.ofSettings settings, now := Instant.start, period, nextSweep := Instant.start }

def nextTimer? (t : Timeline) : Option Instant :=
  let sweeping := if t.desk.stopped then none else some t.nextSweep.ceilMillis
  Instant.earliest sweeping (Instant.earliest t.desk.nextDue? t.desk.nextDeadline?)

/-- Jumps from timer to timer, until `done` holds or no timer is left before `target`; then the clock
stands at `target`. -/
def advance (done : Timeline → Bool) (target : Instant) : Nat → Timeline → Timeline
  | 0, t => t
  | fuel + 1, t =>
    if done t then t
    else
      match t.nextTimer? with
      | some next =>
        if next ≤ target then advance done target fuel { t with now := next }.settle
        else { t with now := target }.settle
      | none => { t with now := target }.settle

def timersBefore (t : Timeline) (target : Instant) : Nat :=
  (target.nanos - t.now.nanos) / t.step + t.desk.hub.queue.delayed.length +
    t.desk.calls.length + 2

def advanceTo (t : Timeline) (target : Instant) : Timeline :=
  advance (fun _ => false) target (t.timersBefore target) t

def sleep (t : Timeline) (d : Duration) : Timeline :=
  if d.isZero then t else t.advanceTo (t.now.afterWait d)

def ask (t : Timeline) (request : Request) (wait : Option Duration) : Nat × Timeline :=
  let (number, desk) := t.desk.ask request wait t.now
  (number, { t with desk }.settle)

/-- Makes a call whose caller goes before the hub looks at it, and tells whether the caller has had a
result by then. -/
def askAndLeave (t : Timeline) (request : Request) (wait : Option Duration) : Bool × Timeline :=
  let (number, desk) := t.desk.submit request wait t.now
  let desk := desk.expire t.now
  ((desk.result? number).isSome, { t with desk := desk.leave number }.settle)

def submit (t : Timeline) (request : Request) (wait : Option Duration) : Nat × Timeline :=
  let (number, desk) := t.desk.submit request wait t.now
  (number, { t with desk })

def look (t : Timeline) (number : Nat) : Timeline := { t with desk := t.desk.look number t.now }

/-- Waits for the result of a call and fetches it. -/
def join (t : Timeline) (number : Nat) : Option (Except BrokerError Answer) × Timeline :=
  let answered (t : Timeline) : Bool := (t.desk.result? number).isSome
  let t := match (t.desk.find? number).bind (·.deadline?) with
    | some deadline => advance answered deadline (t.timersBefore deadline) t
    | none => t
  (t.desk.result? number, { t with desk := t.desk.forget number })

def call (t : Timeline) (request : Request) (wait : Option Duration) :
    Option (Except BrokerError Answer) × Timeline :=
  let (number, t) := t.ask request wait
  t.join number

def cancel (t : Timeline) (number : Nat) : Timeline :=
  { t with desk := t.desk.cancel number }.settle

def leave (t : Timeline) (number : Nat) : Timeline :=
  { t with desk := t.desk.leave number }.settle

def stop (t : Timeline) : Timeline := { t with desk := t.desk.stop }.settle

end Timeline
end WorkBroker
