import WorkBroker.Net.Playback
import WorkBroker.Net.Service
/-!
Everything that is connected: links, whoever listens at the one address that can be reached,
requests that run in the background, and a clock that jumps to the next timer when nothing else can
happen.
-/

set_option autoImplicit false
set_option relaxedAutoImplicit false

namespace WorkBroker.Net

inductive Server
  | nobody
  | service (s : Service)
  | troupe (t : Troupe)

def Server.isListening : Server → Bool
  | .nobody => false
  | .service s => s.isListening
  | .troupe t => t.isListening

structure Pending where
  name : String
  connection : Connection
  plan : Plan (Except ConnectionError Packet × Connection)

structure World where
  now : Instant
  links : Links
  server : Server
  requests : List Pending
  /-- The log, latest line first. -/
  log : List LogLine

namespace World

def serverAddress : String := "ADDR"

def linkCapacity : Nat := 1048576

/-- How often the world may go on while somebody waits. -/
def patience : Nat := 100000000

def ofServer (server : Server) : World :=
  { now := Instant.start, links := #[], server, requests := [], log := [] }

def answer (server : Server) (link : Nat) : Option Server :=
  if !server.isListening then none
  else
    match server with
    | .nobody => none
    | .service s => some (.service (s.dialled link))
    | .troupe t => some (.troupe (t.dialled link))

def attemptAt (w : World) (link : Nat) (action : Action) : Option (action.Outcome × World) :=
  match w.links[link]? with
  | none => none
  | some l =>
    match l.attempt w.now action with
    | none => none
    | some (outcome, l) => some (outcome, { w with links := w.links.set! link l })

def attempt (w : World) (action : Action) : Option (action.Outcome × World) :=
  match action with
  | .clock => some (w.now, w)
  | .log line => some ((), { w with log := line :: w.log })
  | .sleepUntil moment => if moment ≤ w.now then some ((), w) else none
  | .dial address _ =>
    if address ≠ serverAddress then some (DialOutcome.failed .refused, w)
    else
      match answer w.server w.links.size with
      | none => some (DialOutcome.failed .refused, w)
      | some server =>
        some (DialOutcome.connected w.links.size,
          { w with server, links := w.links.push (Link.ofCapacity linkCapacity) })
  | .read link deadline most => w.attemptAt link (.read link deadline most)
  | .write link bytes => w.attemptAt link (.write link bytes)
  | .shutdown link => w.attemptAt link (.shutdown link)
  | .discard link => w.attemptAt link (.discard link)

def advance {α : Type} (moved : Bool) : Plan α → World → Bool × Plan α × World
  | .done value, w => (moved, .done value, w)
  | .ask action next, w =>
    match w.attempt action with
    | none => (moved, .ask action next, w)
    | some (outcome, w) => advance true (next outcome) w

def passServer (w : World) : Bool × World :=
  match w.server with
  | .nobody => (false, w)
  | .service s =>
    let (moved, s, links) := s.pass w.now w.links
    (moved, { w with server := .service s, links })
  | .troupe t =>
    let (moved, playing, links) := t.playing.foldl
      (fun (moved, playing, links) (link, plan) =>
        match Links.change links link fun l =>
          let (moved, plan, l) := plan.advance w.now false l
          ((moved, plan), l) with
        | (some (movedHere, plan), links) => (moved || movedHere, playing ++ [(link, plan)], links)
        | (none, links) => (moved, playing ++ [(link, plan)], links))
      (false, [], w.links)
    (moved, { w with server := .troupe { t with playing }, links })

def passRequests : List Pending → World → Bool × List Pending × World
  | [], w => (false, [], w)
  | p :: rest, w =>
    let (movedHere, plan, w) := advance false p.plan w
    let (moved, others, w) := passRequests rest w
    (movedHere || moved, { p with plan } :: others, w)

def pass (w : World) : Bool × World :=
  let (moved, w) := w.passServer
  let (movedRequests, requests, w) := passRequests w.requests w
  (moved || movedRequests, { w with requests })

def settleWithin : Nat → World → World
  | 0, w => w
  | rounds + 1, w =>
    match w.pass with
    | (true, w) => settleWithin rounds w
    | (false, w) => w

def settle (w : World) : World := settleWithin patience w

def nextTimer? (w : World) : Option Instant :=
  let first := match w.server with
    | .service s => s.nextTimer?
    | .troupe t => t.playing.foldl (fun first p => Instant.earliest first p.2.dueAt?) none
    | .nobody => none
  w.requests.foldl (fun first p => Instant.earliest first p.plan.dueAt?) first

def jump (w : World) (moment : Instant) : World :=
  let now := if moment ≤ w.now then w.now else moment
  match w.server with
  | .service s =>
    let (s, links) := s.elapse now w.links
    { w with now, links, server := .service s }
  | _ => { w with now }

/-- Waits until `test` gives a result; `due` is the moment at which it does so at the latest.  Whoever
waits looks when a moment begins, and again when nothing more can happen at that moment.  `none` if
nothing can happen any more. -/
def waitFor {α : Type} (due : Option Instant) (test : World → Option (α × World)) :
    Nat → World → Option (α × World)
  | 0, _ => none
  | rounds + 1, w =>
    match test w with
    | some found => some found
    | none =>
      let w := w.settle
      match test w with
      | some found => some found
      | none =>
        match Instant.earliest due w.nextTimer? with
        | none => none
        | some moment => waitFor due test rounds (w.jump moment)

/-- Carries out a plan in the foreground; `none` if it waits for something that never comes. -/
def perform {α : Type} : Plan α → World → Option α × World
  | .done value, w => (some value, w)
  | .ask action next, w =>
    match waitFor action.dueAt? (fun w => w.attempt action) patience w with
    | some (outcome, w) => perform (next outcome) w
    | none => (none, w)


def service? (w : World) : Option Service :=
  match w.server with
  | .service s => some s
  | _ => none

def broker? (w : World) : Option Broker := w.service?.map (·.broker)

/-- Waits until something holds. -/
def waitUntil (test : World → Bool) (w : World) : World :=
  match waitFor none (fun w => if test w then some ((), w) else none) patience w with
  | some ((), w) => w
  | none => w

def cancel (w : World) : World :=
  match w.server with
  | .service s =>
    let (s, links) := s.cancel w.now w.links
    { w with server := .service s, links }
  | _ => w

end World
end WorkBroker.Net
