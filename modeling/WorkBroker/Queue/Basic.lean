import WorkBroker.Bytes
import WorkBroker.Duration
/-!
The messages that the broker holds, the lanes in which they wait, and the counters beside them.  A
lane per priority holds the ids of ready messages, front first; delayed messages wait in a list
sorted by the moment they fall due.
-/

set_option autoImplicit false
set_option relaxedAutoImplicit false

namespace WorkBroker

/-- What a queue may hold and when it acts on its own.  A timeout that is absent never fires. -/
structure QueueSettings where
  capacity : Nat
  priorityLevels : Nat
  maxRetries : Nat
  ackTimeout : Option Duration
  boostTimeout : Option Duration
  deriving DecidableEq, Repr, Inhabited

/-- Ten thousand messages on three levels, two retries, thirty seconds to acknowledge, and a boost
after five. -/
def QueueSettings.standard : QueueSettings :=
  ⟨10000, 3, 2, some (Duration.ofMillis 30000), some (Duration.ofMillis 5000)⟩

/-- A message on its way to a consumer. -/
structure Delivery where
  id : String
  token : Nat
  /-- Counted from one: the failed attempts so far, and this one.  It has no bound, as `failures` in
  `Message` has none. -/
  attempt : Nat
  payload : Bytes
  deriving DecidableEq, Repr, Inhabited

structure QueueStats where
  accepted : Nat := 0
  delivered : Nat := 0
  completed : Nat := 0
  requeued : Nat := 0
  redelivered : Nat := 0
  failed : Nat := 0
  erased : Nat := 0
  boosted : Nat := 0
  deriving DecidableEq, Repr, Inhabited

def QueueStats.entries (s : QueueStats) : List (String × Nat) :=
  [("accepted", s.accepted), ("delivered", s.delivered), ("completed", s.completed),
    ("requeued", s.requeued), ("redelivered", s.redelivered), ("failed", s.failed),
    ("erased", s.erased), ("boosted", s.boosted)]

/-- How full a queue is; `active` leaves out failed messages. -/
structure QueueCounts where
  capacity : Nat
  active : Nat
  failed : Nat
  free : Nat
  deriving DecidableEq, Repr, Inhabited

def QueueCounts.entries (c : QueueCounts) : List (String × Nat) :=
  [("capacity", c.capacity), ("active", c.active), ("failed", c.failed), ("free", c.free)]

structure SweepReport where
  promoted : Nat := 0
  redelivered : Nat := 0
  failed : Nat := 0
  boosted : Nat := 0
  deriving DecidableEq, Repr, Inhabited

def SweepReport.entries (r : SweepReport) : List (String × Nat) :=
  [("promoted", r.promoted), ("redelivered", r.redelivered), ("failed", r.failed),
    ("boosted", r.boosted)]

def SweepReport.isEmpty (r : SweepReport) : Bool :=
  r.promoted == 0 && r.redelivered == 0 && r.failed == 0 && r.boosted == 0

inductive MessageState
  | queued
  | delayed
  | running (token owner : Nat) (since : Instant)
  | failed
  deriving DecidableEq, Repr, Inhabited

namespace MessageState

def isRunning : MessageState → Bool
  | .running .. => true
  | _ => false

def isHeldBy (owner : Nat) : MessageState → Bool
  | .running _ holder _ => holder == owner
  | _ => false

def isExpired (timeout : Duration) (now : Instant) : MessageState → Bool
  | .running _ _ since => timeout.nanos ≤ (now.since since).nanos
  | _ => false

end MessageState

/-- A message as the queue holds it.  `lane` is where it waits when it is ready. -/
structure Message where
  id : String
  priority : Nat
  lane : Nat
  payload : Bytes
  state : MessageState
  queuedAt : Instant
  /-- The attempts that have failed, without a bound.  A number of 32 bits would say the same, unless
  `maxRetries` is the largest of these and one message fails as many times. -/
  failures : Nat
  deriving DecidableEq, Repr, Inhabited

/-- A message that becomes ready later; numbers tell appointments of the same moment apart. -/
structure Appointment where
  due : Instant
  number : Nat
  id : String
  deriving DecidableEq, Repr, Inhabited

def Appointment.before (a b : Appointment) : Bool :=
  a.due.nanos < b.due.nanos || (a.due.nanos == b.due.nanos && a.number < b.number)

/-- A bounded queue of messages with priorities.  `queued` and `failed` count the ready and the
failed messages; messages stand in the order of their arrival. -/
structure Queue where
  settings : QueueSettings
  lanes : List (List String)
  messages : List Message
  delayed : List Appointment
  queued : Nat
  failed : Nat
  nextToken : Nat
  nextNumber : Nat
  stats : QueueStats
  deriving DecidableEq, Repr, Inhabited

namespace Queue

/-- A queue that holds nothing; it has at least one lane. -/
def ofSettings (settings : QueueSettings) : Queue where
  settings := settings
  lanes := List.replicate (max settings.priorityLevels 1) []
  messages := []
  delayed := []
  queued := 0
  failed := 0
  nextToken := 1
  nextNumber := 0
  stats := {}

def size (q : Queue) : Nat := q.messages.length

def isEmpty (q : Queue) : Bool := q.messages.isEmpty

def hasReady (q : Queue) : Bool := q.queued > 0

def find? (q : Queue) (id : String) : Option Message := q.messages.find? (·.id == id)

def modify (q : Queue) (id : String) (f : Message → Message) : Queue :=
  { q with messages := q.messages.map fun m => if m.id == id then f m else m }

def remove (q : Queue) (id : String) : Queue :=
  { q with messages := q.messages.filter (·.id != id) }

def count (q : Queue) (f : QueueStats → QueueStats) : Queue := { q with stats := f q.stats }

def pushBack (q : Queue) (lane : Nat) (id : String) : Queue :=
  { q with lanes := q.lanes.modify lane (· ++ [id]) }

def pushFront (q : Queue) (lane : Nat) (id : String) : Queue :=
  { q with lanes := q.lanes.modify lane (id :: ·) }

def counts (q : Queue) : QueueCounts where
  capacity := q.settings.capacity
  active := q.size - q.failed
  failed := q.failed
  free := q.settings.capacity - q.size

def nextDue? (q : Queue) : Option Instant := q.delayed.head?.map (·.due)

/-- The ids of failed messages in the order of their bytes, at most `limit` of them, and whether
there are more. -/
def failedIds (q : Queue) (limit : Nat) : List String × Bool :=
  let ids := ((q.messages.filter (·.state == .failed)).map (·.id)).mergeSort Bytes.textLe
  (ids.take limit, ids.length > limit)

end Queue
end WorkBroker
