import WorkBroker.Broker.Basic
import WorkBroker.Connection.Operations
import WorkBroker.Net.Agenda
import WorkBroker.Net.Progress
/-!
A broker on the network.  Every admitted connection has a line, which moves bytes on behalf of its
conversation; connections that were turned away are told so and linger; connections that nobody has
accepted yet wait in the backlog.  Lines and hub take turns: whoever is called goes on until it has to
wait for something (`Agenda`).

The links themselves belong to the surroundings.  They are numbered, and a service sees them from
the end that was dialled.
-/

set_option autoImplicit false
set_option relaxedAutoImplicit false

namespace WorkBroker.Net

open WorkBroker.Conversation (Event)

inductive Errand
  /-- Waiting for a packet, for at most some time. -/
  | hearing (limit : Duration) (plan : Plan (Received × Connection))
  | sending (plan : Plan (Except ConnectionError Unit × Connection))
  | refusing (plan : Plan Connection)
  /-- Waiting for the hub. -/
  | resting
  deriving Inhabited

/-- The transport of an admitted connection.  `id` is the number of the connection. -/
structure Line where
  id : Nat
  connection : Connection
  errand : Errand

/-- A connection that was turned away, on its way out. -/
structure Leaver where
  link : Nat
  plan : Plan Connection

/-- A broker on the network.  `grace` is the moment at which a shutdown no longer waits. -/
structure Service where
  broker : Broker
  lines : List Line
  leavers : List Leaver
  backlog : List Nat
  grace : Option Instant
  agenda : Agenda

/-- How long a connection that was turned away may linger. -/
def lingerLimit : Duration := Duration.ofMillis 1000

/-- The links of the surroundings, each seen from the end that dialled. -/
abbrev Links := Array Link

def Links.change {α : Type} (links : Links) (number : Nat) (f : Link → α × Link) : Option α × Links :=
  match links[number]? with
  | none => (none, links)
  | some l =>
    let (value, l) := f l.flip
    (some value, links.set! number l.flip)

namespace Line

def listen (id : Nat) (c : Connection) (limit : Duration) : Line :=
  ⟨id, c, .hearing limit (c.awaitPacketFor limit)⟩

def heard (stage : Stage) (limit : Duration) (c : Connection) (r : Received) : Event × Connection :=
  match stage with
  | .greeting =>
    let (result, c) := c.concludeHello limit r
    (.greeted result, c)
  | _ =>
    let (result, c) := c.conclude limit r
    (.received result, c)

def interrupted (l : Line) : Connection :=
  match l.errand with
  | .hearing _ plan =>
    match plan.interrupt with
    | .done (_, c) => c
    | _ => l.connection
  | _ => l.connection

/-- Whether a conversation at this stage ends when the broker is cancelled. -/
def heedsCancel : Stage → Bool
  | .greeting | .listening _ => true
  | _ => false

/-- Goes on with what a line is busy with.  The event is what the conversation is to be told. -/
def advance (now : Instant) (cancelled : Bool) (stage : Stage) (l : Line) (link : Link) :
    (Bool × Line × Option Event) × Link :=
  match l.errand with
  | .hearing limit plan =>
    if cancelled && heedsCancel stage then
      ((true, { l with connection := l.interrupted, errand := .resting }, some .cancelled), link)
    else
      match plan.advance now false link with
      | (_, .done (received, c), link) =>
        let (event, c) := heard stage limit c received
        ((true, { l with connection := c, errand := .resting }, some event), link)
      | (moved, plan, link) => ((moved, { l with errand := .hearing limit plan }, none), link)
  | .sending plan =>
    match plan.advance now false link with
    | (_, .done (result, c), link) =>
      ((true, { l with connection := c, errand := .resting }, some (.sent result)), link)
    | (moved, plan, link) => ((moved, { l with errand := .sending plan }, none), link)
  | .refusing plan =>
    match plan.advance now false link with
    | (_, .done c, link) =>
      ((true, { l with connection := c, errand := .resting }, some .refused), link)
    | (moved, plan, link) => ((moved, { l with errand := .refusing plan }, none), link)
  | .resting => ((false, l, none), link)

def obey (l : Line) : Order → Line
  | .send (.welcome terms) => { l with errand := .sending (l.connection.acceptHello terms) }
  | .send p => { l with errand := .sending (l.connection.send p) }
  | .refuse reason => { l with errand := .refusing (l.connection.reject reason lingerLimit) }

def dueAt? (l : Line) : Option Instant :=
  match l.errand with
  | .hearing _ plan => plan.dueAt?
  | .sending plan => plan.dueAt?
  | .refusing plan => plan.dueAt?
  | .resting => none

end Line

namespace Service

def ofBroker (b : Broker) : Service :=
  { broker := b, lines := [], leavers := [], backlog := [], grace := none,
    agenda := Agenda.empty.arm .sweep b.hub.nextSweep.ceilMillis }

def isListening (s : Service) : Bool := !s.broker.cancelled

def dialled (s : Service) (link : Nat) : Service := { s with backlog := s.backlog ++ [link] }

def setLine (s : Service) (l : Line) : Service :=
  { s with lines := s.lines.map fun m => if m.id == l.id then l else m }

def accept (s : Service) : Bool × Service :=
  match s.backlog with
  | [] => (false, s)
  | link :: backlog =>
    let ((id, admitted), broker) := s.broker.arrive
    let c := Connection.ofLink (UInt64.ofNat id) "peer" link s.broker.settings.maxMessageSize.toNat
    let s := { s with broker, backlog }
    if admitted then
      (true, { s with lines := s.lines ++ [.listen id c s.broker.settings.handshakeLimit] })
    else (true, { s with leavers := s.leavers ++ [⟨link, c.reject .admissionLimit lingerLimit⟩] })

def hangUp (s : Service) (l : Line) (links : Links) : Service × Links :=
  let (_, links) := links.change l.connection.link fun link => ((), link.drop)
  ({ s with
      broker := s.broker.depart l.id
      lines := s.lines.filter (·.id != l.id)
      agenda := s.agenda.disarm (.line l.id) },
    links)

/-- Tells the conversation on a line about an event, which ends the wait of the line, and does what
follows from that. -/
def tell (s : Service) (l : Line) (event : Event) (links : Links) : Service × Links :=
  let (orders, broker) := s.broker.occur l.id event
  let agenda := s.agenda.disarm (.line l.id)
  let s := { s with broker, agenda := if broker.isAsked then agenda.call .hub else agenda }
  let l := orders.foldl Line.obey l
  match broker.talk? l.id with
  | some { stage := .over _, .. } => s.hangUp l links
  | some { stage := .listening _, .. } =>
    (s.setLine (.listen l.id l.connection broker.settings.idleLimit), links)
  | _ => (s.setLine l, links)

def advanceLine (now : Instant) (s : Service) (id : Nat) (links : Links) :
    Bool × Service × Links :=
  match s.lines.find? (·.id == id), s.broker.talk? id with
  | some l, some t =>
    match s.broker.fetch id with
    | some (result, broker) => (true, { s with broker }.tell l (.answered result) links)
    | none =>
      match links.change l.connection.link (l.advance now s.broker.cancelled t.stage) with
      | (some (moved, l, none), links) => (moved, s.setLine l, links)
      | (some (_, l, some event), links) => (true, (s.setLine l).tell l event links)
      | (none, links) => (false, s, links)
  | _, _ => (false, s, links)

/-- The line of a connection waits: its alarm is set, unless that has been done. -/
def armLine (s : Service) (id : Nat) : Service :=
  let moment := match (s.lines.find? (·.id == id)).bind (·.dueAt?) with
    | some moment => some moment
    | none => s.broker.patienceOf? id
  match moment with
  | some moment => { s with agenda := s.agenda.arm (.line id) moment }
  | none => s

/-- How many steps a line may take at a time.  A line that has taken them all looks like one that
waits, but for its alarm, which is not set. -/
def lineSteps : Nat := 100000000

def runLine (now : Instant) (id : Nat) : Nat → Bool → Service → Links → Bool × Service × Links
  | 0, moved, s, links => (moved, s, links)
  | steps + 1, moved, s, links =>
    match s.advanceLine now id links with
    | (true, s, links) => runLine now id steps true s links
    | (false, s, links) => (moved, s.armLine id, links)

def runLines (now : Instant) : List Nat → Bool → Service → Links → Bool × Service × Links
  | [], moved, s, links => (moved, s, links)
  | id :: rest, moved, s, links =>
    let (moved, s, links) := s.runLine now id lineSteps moved links
    runLines now rest moved s links

/-- The hub goes on: it calls the lines that it replies to, and sets its alarms anew. -/
def runHub (s : Service) : Service :=
  let (ids, broker) := s.broker.turn
  let agenda := ids.foldl (fun a id => a.call (.line id)) s.agenda
  let agenda := agenda.rearm .delayed broker.hub.desk.nextDue?
  let agenda :=
    if broker.hub.nextSweep = s.broker.hub.nextSweep then agenda
    else agenda.rearm .sweep (some broker.hub.nextSweep.ceilMillis)
  { s with broker, agenda }

/-- Goes on with the connections that were turned away; they do not outlive the broker. -/
def advanceLeavers (now : Instant) (cancelled : Bool) :
    List Leaver → Links → Bool × List Leaver × Links
  | [], links => (false, [], links)
  | l :: rest, links =>
    let gone (links : Links) := (links.change l.link fun link => ((), link.drop)).2
    let (movedHere, kept, links) :=
      if cancelled then (true, [], gone links)
      else
        match links.change l.link fun link =>
          let (moved, plan, link) := l.plan.advance now false link
          ((moved, plan), link) with
        | (some (_, .done _), links) => (true, [], gone links)
        | (some (moved, plan), links) => (moved, [{ l with plan }], links)
        | (none, links) => (true, [], links)
    let (moved, others, links) := advanceLeavers now cancelled rest links
    (movedHere || moved, kept ++ others, links)

/-- Whoever was called first goes on.  If nobody was called, everyone may go on: the lines in the order
of their numbers, the connections that were turned away, and one connection of the backlog. -/
def pass (now : Instant) (s : Service) (links : Links) : Bool × Service × Links :=
  match s.agenda.called with
  | .hub :: called => (true, { s with agenda.called := called }.runHub, links)
  | .line id :: called => runLine now id lineSteps true { s with agenda.called := called } links
  | [] =>
    let (moved, s, links) := runLines now (s.lines.map (·.id)) false s links
    let (movedLeavers, leavers, links) := advanceLeavers now s.broker.cancelled s.leavers links
    let (accepted, s) := { s with leavers }.accept
    (moved || movedLeavers || accepted, s, links)

def abandon (s : Service) (links : Links) : Service × Links :=
  let (s, links) := s.lines.foldl (fun (s, links) l => s.hangUp l links) (s, links)
  let links := s.leavers.foldl
    (fun links l => (links.change l.link fun link => ((), link.drop)).2) links
  ({ s with leavers := [] }, links)

/-- Time passes up to a moment; a shutdown whose grace is over waits for nobody. -/
def elapse (now : Instant) (s : Service) (links : Links) : Service × Links :=
  let s := { s with broker := s.broker.elapse now, agenda := s.agenda.ring now }
  match s.grace with
  | some moment => if moment ≤ now then s.abandon links else (s, links)
  | none => (s, links)

def cancel (now : Instant) (s : Service) (links : Links) : Service × Links :=
  let links := s.backlog.foldl
    (fun links number => (links.change number fun link => ((), link.drop)).2) links
  ({ s with
      broker := s.broker.cancel
      agenda := (s.agenda.disarm .sweep).disarm .delayed
      backlog := []
      grace := some (now.afterWait s.broker.settings.gracePeriod) },
    links)

def isDone (s : Service) : Bool := s.lines.isEmpty && s.leavers.isEmpty

def nextTimer? (s : Service) : Option Instant :=
  let first := s.agenda.nextAlarm?
  let first := s.leavers.foldl (fun first l => Instant.earliest first l.plan.dueAt?) first
  if s.isDone then first else Instant.earliest first s.grace

end Service
end WorkBroker.Net
