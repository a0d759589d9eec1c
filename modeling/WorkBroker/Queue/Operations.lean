import WorkBroker.Queue.Basic
import WorkBroker.Queue.Error
/-!
What can be done to a queue.  Messages are pushed, popped by an owner, and settled with the token
of their delivery; a sweep acts on what time has brought about; the release of an owner counts one
failed attempt for each message the owner holds.  Messages that fail together do so in some order,
of which nothing is promised.
-/

set_option autoImplicit false
set_option relaxedAutoImplicit false

namespace WorkBroker

/-- An order in which a queue comes to messages that fail together: each of them once. -/
structure VisitOrder where
  arrange : List String → List String
  arrange_perm : ∀ ids, (arrange ids).Perm ids

def VisitOrder.arrival : VisitOrder := ⟨id, fun ids => .refl ids⟩

namespace Queue

/-- Makes a message ready, at the end of its lane. -/
def enqueue (q : Queue) (id : String) (now : Instant) : Queue :=
  match q.find? id with
  | none => q
  | some m =>
    let q := (q.modify id fun m => { m with state := .queued, queuedAt := now }).pushBack m.lane id
    { q with queued := q.queued + 1 }

def insertAppointment (a : Appointment) : List Appointment → List Appointment
  | [] => [a]
  | b :: rest => if a.before b then a :: b :: rest else b :: insertAppointment a rest

def park (q : Queue) (id : String) (until_ : Instant) : Queue :=
  match q.find? id with
  | none => q
  | some _ =>
    let q := q.modify id fun m => { m with state := .delayed }
    { q with
      delayed := insertAppointment ⟨until_, q.nextNumber, id⟩ q.delayed
      nextNumber := q.nextNumber + 1 }

def enqueueAfter (q : Queue) (id : String) (delay : Duration) (now : Instant) : Queue :=
  if delay.isZero then q.enqueue id now else q.park id (now.after delay)

/-- Takes a new message in.  A bad priority is noticed before a duplicate, and that before a full
queue. -/
def push (q : Queue) (id : String) (payload : Bytes) (priority : Nat) (delay : Duration)
    (now : Instant) : Except QueueError Unit × Queue :=
  if priority ≥ q.lanes.length then (.error (.invalidPriority priority q.lanes.length), q)
  else if (q.find? id).isSome then (.error (.duplicateMessage id), q)
  else if q.size ≥ q.settings.capacity then (.error (.queueFull q.settings.capacity), q)
  else
    let m : Message :=
      { id, priority, lane := priority, payload, state := .queued, queuedAt := now, failures := 0 }
    let q := { q with messages := q.messages ++ [m] }
    let q := q.count fun s => { s with accepted := s.accepted + 1 }
    (.ok (), q.enqueueAfter id delay now)

def ready? (q : Queue) (id : String) : Option Message :=
  match q.find? id with
  | some m => if m.state == .queued then some m else none
  | none => none

/-- The first ready message of a lane, and what is left of the lane; ids in front of it that name no
ready message are dropped. -/
def takeFromLane (q : Queue) : List String → Option Message × List String
  | [] => (none, [])
  | id :: rest =>
    match q.ready? id with
    | some m => (some m, rest)
    | none => q.takeFromLane rest

def takeFromLanes (q : Queue) : List (List String) → Option Message × List (List String)
  | [] => (none, [])
  | lane :: rest =>
    match q.takeFromLane lane with
    | (some m, lane) => (some m, lane :: rest)
    | (none, lane) =>
      let (found, rest) := q.takeFromLanes rest
      (found, lane :: rest)

def pop (q : Queue) (owner : Nat) (now : Instant) : Option Delivery × Queue :=
  match q.takeFromLanes q.lanes with
  | (none, lanes) => (none, { q with lanes })
  | (some m, lanes) =>
    let token := q.nextToken
    let q := { q with lanes, nextToken := token + 1, queued := q.queued - 1 }
    let q := q.modify m.id fun m => { m with state := .running token owner now }
    let q := q.count fun s => { s with delivered := s.delivered + 1 }
    (some { id := m.id, token, attempt := m.failures + 1, payload := m.payload }, q)

/-- Puts a delivery back that never reached its consumer: the message stands at the front of its
lane again and no failure is counted.  Tells whether there was such a delivery. -/
def unpop (q : Queue) (id : String) (token : Nat) : Bool × Queue :=
  match q.find? id with
  | none => (false, q)
  | some m =>
    match m.state with
    | .running current _ _ =>
      if current = token then
        let q := (q.modify id fun m => { m with state := .queued }).pushFront m.lane id
        let q := { q with queued := q.queued + 1 }
        (true, q.count fun s => { s with delivered := s.delivered - 1 })
      else (false, q)
    | _ => (false, q)

/-- Settles a delivery: the message is done, or it is to be delivered again, which counts no
failure. -/
def ack (q : Queue) (id : String) (token : Nat) (requeue : Bool) (delay : Duration)
    (now : Instant) : Except QueueError Unit × Queue :=
  match q.find? id with
  | none => (.error (.unknownMessage id), q)
  | some m =>
    match m.state with
    | .running current _ _ =>
      if current ≠ token then (.error (.invalidToken id), q)
      else if !requeue then
        (.ok (), (q.remove id).count fun s => { s with completed := s.completed + 1 })
      else
        let q := q.modify id fun m => { m with lane := m.priority }
        let q := q.count fun s => { s with requeued := s.requeued + 1 }
        (.ok (), q.enqueueAfter id delay now)
    | _ => (.error (.invalidState id), q)

/-- Settles a delivery and takes the next message; a refused settlement takes nothing. -/
def ackPop (q : Queue) (id : String) (token : Nat) (requeue : Bool) (delay : Duration)
    (owner : Nat) (now : Instant) : Except QueueError (Option Delivery) × Queue :=
  match q.ack id token requeue delay now with
  | (.error e, q) => (.error e, q)
  | (.ok (), q) =>
    let (delivery, q) := q.pop owner now
    (.ok delivery, q)

def recordFailure (q : Queue) (id : String) (now : Instant) : Bool × Queue :=
  match q.find? id with
  | none => (false, q)
  | some m =>
    if m.failures + 1 > q.settings.maxRetries then
      let q := q.modify id fun m => { m with failures := m.failures + 1, state := .failed }
      let q := { q with failed := q.failed + 1 }
      (true, q.count fun s => { s with failed := s.failed + 1 })
    else
      let q := q.modify id fun m => { m with failures := m.failures + 1, lane := m.priority }
      let q := q.count fun s => { s with redelivered := s.redelivered + 1 }
      (false, q.enqueue id now)

/-- Makes a delayed message ready, at the front of its lane, and tells whether it was delayed. -/
def promote (q : Queue) (id : String) (now : Instant) : Bool × Queue :=
  match q.find? id with
  | none => (false, q)
  | some m =>
    if m.state == .delayed then
      let q := (q.modify id fun m => { m with state := .queued, queuedAt := now }).pushFront m.lane id
      (true, { q with queued := q.queued + 1 })
    else (false, q)

/-- Moves a ready message to the end of the first lane and tells whether it was in its lane. -/
def boost (q : Queue) (id : String) : Bool × Queue :=
  match q.find? id with
  | none => (false, q)
  | some m =>
    if (q.lanes.getD m.lane []).contains id then
      let q := { q with lanes := q.lanes.modify m.lane (·.erase id) }
      let q := (q.modify id fun m => { m with lane := 0 }).pushBack 0 id
      (true, q.count fun s => { s with boosted := s.boosted + 1 })
    else (false, q)

/-- Applies an operation to each of some ids in turn and counts how often it says yes. -/
def tally (f : Queue → String → Bool × Queue) (ids : List String) (q : Queue) : Nat × Queue :=
  ids.foldl
    (fun (n, q) id =>
      let (yes, q) := f q id
      (if yes then n + 1 else n, q))
    (0, q)

/-- Makes every delayed message ready that has fallen due, earliest first. -/
def promoteDue (q : Queue) (now : Instant) : Nat × Queue :=
  let due := q.delayed.takeWhile fun a => decide (a.due ≤ now)
  let later := q.delayed.dropWhile fun a => decide (a.due ≤ now)
  tally (fun q id => q.promote id now) (due.map (·.id)) { q with delayed := later }

def expired (q : Queue) (now : Instant) : List String :=
  match q.settings.ackTimeout with
  | none => []
  | some timeout => (q.messages.filter fun m => m.state.isExpired timeout now).map (·.id)

/-- Whether a ready message outside the first lane has waited for the given time. -/
def isStarving (timeout : Duration) (now : Instant) (m : Message) : Bool :=
  m.state == .queued && m.lane > 0 && timeout.nanos ≤ (now.since m.queuedAt).nanos

/-- The order in which starving messages are boosted: by the time they became ready, then by id. -/
def starvingLe (a b : Message) : Bool :=
  a.queuedAt.nanos < b.queuedAt.nanos ||
    (a.queuedAt.nanos == b.queuedAt.nanos && Bytes.textLe a.id b.id)

def starving (q : Queue) (now : Instant) : List String :=
  match q.settings.boostTimeout with
  | none => []
  | some timeout => ((q.messages.filter (isStarving timeout now)).mergeSort starvingLe).map (·.id)

/-- Acts on what time has brought about: due messages become ready, deliveries that were out for too
long count a failed attempt, and starving messages move to the first lane. -/
def sweepIn (order : VisitOrder) (q : Queue) (now : Instant) : SweepReport × Queue :=
  let (promoted, q) := q.promoteDue now
  let late := order.arrange (q.expired now)
  let (failed, q) := tally (fun q id => q.recordFailure id now) late q
  let (boosted, q) := tally boost (q.starving now) q
  ({ promoted, redelivered := late.length - failed, failed, boosted }, q)

def sweep (q : Queue) (now : Instant) : SweepReport × Queue := q.sweepIn .arrival now

def heldBy (q : Queue) (owner : Nat) : List String :=
  (q.messages.filter (·.state.isHeldBy owner)).map (·.id)

/-- Takes back what an owner holds, each message counting one failed attempt, and tells how many
messages that are. -/
def releaseIn (order : VisitOrder) (q : Queue) (owner : Nat) (now : Instant) : Nat × Queue :=
  let held := order.arrange (q.heldBy owner)
  (held.length, (tally (fun q id => q.recordFailure id now) held q).2)

def release (q : Queue) (owner : Nat) (now : Instant) : Nat × Queue :=
  q.releaseIn .arrival owner now

def isFailed (q : Queue) (id : String) : Bool :=
  match q.find? id with
  | some m => m.state == .failed
  | none => false

def eraseOne (q : Queue) (id : String) : Bool × Queue :=
  if q.isFailed id then
    let q := { q.remove id with failed := q.failed - 1 }
    (true, q.count fun s => { s with erased := s.erased + 1 })
  else (false, q)

def eraseFailed (q : Queue) : List String → List String × Queue
  | [] => ([], q)
  | id :: rest =>
    match q.eraseOne id with
    | (true, q) =>
      let (erased, q) := q.eraseFailed rest
      (id :: erased, q)
    | (false, q) => q.eraseFailed rest

/-- Takes messages until at most `limit` are taken or none is ready. -/
def popMany (owner : Nat) (now : Instant) : Nat → Queue → List Delivery × Queue
  | 0, q => ([], q)
  | limit + 1, q =>
    match q.pop owner now with
    | (none, q) => ([], q)
    | (some d, q) =>
      let (others, q) := popMany owner now limit q
      (d :: others, q)

def drain (q : Queue) (owner : Nat) (now : Instant) : List Delivery × Queue :=
  popMany owner now (q.size + 1) q

end Queue
end WorkBroker
