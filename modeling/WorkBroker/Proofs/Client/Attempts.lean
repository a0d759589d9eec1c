import WorkBroker.Proofs.Client.Pairing
import WorkBroker.Proofs.Connection.Locality
/-!
An attempt to reach a broker: how it may go, and which links are there meanwhile.  It dials once,
and leaves a link only if it succeeds.
-/

set_option autoImplicit false
set_option relaxedAutoImplicit false

namespace WorkBroker

namespace Net

def Action.isOnNetwork : Action → Bool
  | .clock | .sleepUntil _ | .log _ => false
  | .dial _ _ | .read _ _ _ | .write _ _ | .shutdown _ | .discard _ => true

def onNetwork (trace : List Occurrence) : List Occurrence :=
  trace.filter (·.action.isOnNetwork)

theorem onNetwork_append (first later : List Occurrence) :
    onNetwork (first ++ later) = onNetwork first ++ onNetwork later := List.filter_append ..

def Occurrence.dialled? (o : Occurrence) : Option String :=
  match o.action with
  | .dial address _ => some address
  | _ => none

def dialled (trace : List Occurrence) : List String := trace.filterMap (·.dialled?)

theorem dialled_append (first later : List Occurrence) :
    dialled (first ++ later) = dialled first ++ dialled later := List.filterMap_append

theorem dialled_onNetwork (trace : List Occurrence) :
    dialled (onNetwork trace) = dialled trace := by
  rw [dialled, onNetwork, List.filterMap_filter, dialled]
  congr 1
  funext o
  obtain ⟨action, outcome⟩ := o
  cases action <;> rfl

/-- The links that are there: those whose end was not announced, and those that are held. -/
structure OpenLinks where
  speaking : List Nat
  held : List Nat

namespace OpenLinks

def free : OpenLinks := ⟨[], []⟩

def only (link : Nat) : OpenLinks := ⟨[link], [link]⟩

def after (l : OpenLinks) (o : Occurrence) : OpenLinks :=
  match o with
  | ⟨.dial _ _, outcome⟩ =>
    match (outcome : DialOutcome) with
    | .connected link => ⟨link :: l.speaking, link :: l.held⟩
    | .failed _ | .elapsed => l
  | ⟨.shutdown link, _⟩ => { l with speaking := l.speaking.erase link }
  | ⟨.discard link, _⟩ => { l with held := l.held.erase link }
  | _ => l

end OpenLinks

/-- Surroundings in which nobody dials while a link is there. -/
def oneAtATime : Surroundings OpenLinks where
  permits l o := o.dialled?.isSome → l = .free
  after := OpenLinks.after

section OneAtATime

variable {l : OpenLinks} {trace : List Occurrence}

private theorem allow_of_talk {link : Nat} (talk : ∀ o ∈ trace, o.action.TalksOver link) :
    oneAtATime.Allow l trace ∧ oneAtATime.final l trace = l ∧ dialled trace = [] := by
  induction trace with
  | nil => exact ⟨trivial, rfl, rfl⟩
  | cons o rest ih =>
    obtain ⟨first, others⟩ := List.forall_mem_cons.mp talk
    obtain ⟨allowed, same, none⟩ := ih others
    obtain ⟨action, outcome⟩ := o
    cases action with
    | clock | read | write => exact ⟨⟨nofun, allowed⟩, same, none⟩
    | dial | shutdown | discard | sleepUntil | log => exact first.elim

theorem allow_onNetwork_iff :
    (oneAtATime.Allow l (onNetwork trace) ↔ oneAtATime.Allow l trace) ∧
      oneAtATime.final l (onNetwork trace) = oneAtATime.final l trace := by
  induction trace generalizing l with
  | nil => exact ⟨.rfl, rfl⟩
  | cons o rest ih =>
    obtain ⟨allow, final⟩ := ih (l := l.after o)
    obtain ⟨action, outcome⟩ := o
    cases action with
    | dial | read | write | shutdown | discard => exact ⟨and_congr_right fun _ => allow, final⟩
    | clock | sleepUntil | log =>
      exact ⟨allow.trans ⟨fun later => ⟨nofun, later⟩, And.right⟩, final⟩

end OneAtATime

end Net

open Net

namespace BrokerConnection

variable {config : ClientConfig} {role : Role} {trace : List Occurrence}
  {result : Except ClientError BrokerConnection}

/-- An attempt at a broker: what was done, and what came of it. -/
structure Attempt where
  broker : String
  trace : List Occurrence
  result : Except ClientError BrokerConnection

namespace Attempt

def knock (config : ClientConfig) (broker : String) (now : Instant) (outcome : DialOutcome) :
    List Occurrence :=
  [⟨.log ⟨.debug, "mqueue_client::connection", s!"Creating connection to broker: {broker}"⟩, ()⟩,
    ⟨.clock, now⟩, ⟨.dial broker (now.afterWait config.connectionTimeout), outcome⟩]

def greeting (config : ClientConfig) (role : Role) (broker : String) (link : Nat) :
    Plan (Except ConnectionError Welcome × Connection) :=
  (Connection.ofLink 0 broker link config.maxMessageSize).greet role config.name
    config.connectionTimeout

/-- How an attempt may go: there is no link in time, or none at all; or the client is not welcome,
for whatever reason, and ends the link; or it is welcome and keeps to the limit that it is told. -/
inductive Goes (config : ClientConfig) (role : Role) : Attempt → Prop
  | late (broker : String) (now : Instant) :
      Goes config role ⟨broker, knock config broker now .elapsed,
        .error (.timeout (config.connectionTimeout.millis % UInt64.size))⟩
  | unreached (broker : String) (now : Instant) (failure : IoFailure) :
      Goes config role ⟨broker, knock config broker now (.failed failure),
        .error (.connect broker failure)⟩
  | turnedAway {broker : String} (now : Instant) {link : Nat} {talk : List Occurrence}
      {e : ConnectionError} {c : Connection}
      (greeted : (greeting config role broker link).Traces talk (.error e, c)) :
      Goes config role ⟨broker, knock config broker now (.connected link) ++
        (talk ++ [⟨.shutdown link, ()⟩, ⟨.discard link, ()⟩]), .error (.ofConnection e)⟩
  | welcomed {broker : String} (now : Instant) {link : Nat} {talk : List Occurrence}
      {terms : Welcome} {c : Connection}
      (greeted : (greeting config role broker link).Traces talk (.ok terms, c)) (isOpen : c.isOpen)
      (here : c.link = link) :
      Goes config role ⟨broker, knock config broker now (.connected link) ++ talk,
        .ok ⟨broker, c.setMaxMessageSize terms.maxMessageSize.toNat, terms, config.requestTimeout⟩⟩

/-- What is left of an attempt: the link of the connection, if there is one. -/
def leaves : Except ClientError BrokerConnection → OpenLinks
  | .ok b => .only b.connection.link
  | .error _ => .free

theorem goes_of_traces {broker : String}
    (run : (openAt config role broker).Traces trace result) :
    Goes config role ⟨broker, trace, result⟩ := by
  obtain ⟨⟨⟩, _, rfl, afterLog⟩ := Plan.Traces.of_ask run
  obtain ⟨now, _, rfl, afterClock⟩ := Plan.Traces.of_ask afterLog
  obtain ⟨outcome, _, rfl, afterDial⟩ := Plan.Traces.of_ask afterClock
  cases outcome with
  | elapsed =>
    cases afterDial
    exact .late broker now
  | failed failure =>
    cases afterDial
    exact .unreached broker now failure
  | connected link =>
    obtain ⟨talk, later, ⟨greeted, c⟩, rfl, front, back⟩ :=
      Plan.Traces.of_bind (p := greeting config role broker link) afterDial
    obtain ⟨-, here, unclosed, opens⟩ := Plan.Does.of_traces
      (Connection.does_greet (.ofLink 0 broker link config.maxMessageSize) rfl role config.name
        config.connectionTimeout) front
    cases greeted with
    | ok terms =>
      cases back
      rw [List.append_nil]
      exact .welcomed now front (beq_iff_eq.mpr (opens ⟨terms, rfl⟩)) here
    | error e =>
      have closing : c.close =
          .ask (.shutdown c.link) fun _ => .done { c with state := .closed } := by
        rw [Connection.close, if_neg unclosed]
        rfl
      obtain ⟨_, _, _, rfl, shutting, rest⟩ := Plan.Traces.of_bind back
      rw [closing, show c.link = link from here] at shutting
      obtain ⟨⟨⟩, _, rfl, shut⟩ := Plan.Traces.of_ask shutting
      cases shut
      obtain ⟨⟨⟩, _, rfl, discarded⟩ := Plan.Traces.of_ask rest
      cases discarded
      exact .turnedAway now front

section Goes

variable {a : Attempt}

private theorem talk_of_greeted {broker : String} {link : Nat} {talk : List Occurrence}
    {greeted : Except ConnectionError Welcome × Connection}
    (run : (greeting config role broker link).Traces talk greeted) :
    ∀ o ∈ talk, o.action.TalksOver link :=
  (Plan.Does.of_traces (Connection.does_greet (.ofLink 0 broker link config.maxMessageSize) rfl role
    config.name config.connectionTimeout) run).1

theorem Goes.dialled (h : a.Goes config role) : Net.dialled a.trace = [a.broker] := by
  cases h with
  | late | unreached => rfl
  | turnedAway now greeted =>
    have silent := (allow_of_talk (l := .free) (talk_of_greeted greeted)).2.2
    rw [dialled_append, dialled_append, silent]
    rfl
  | welcomed now greeted =>
    have silent := (allow_of_talk (l := .free) (talk_of_greeted greeted)).2.2
    rw [dialled_append, silent]
    rfl

private theorem allow_knock {broker : String} {now : Instant} {outcome : DialOutcome} :
    oneAtATime.Allow .free (knock config broker now outcome) :=
  ⟨nofun, nofun, fun _ => rfl, trivial⟩

private theorem final_knock {broker : String} {now : Instant} {link : Nat} :
    oneAtATime.final .free (knock config broker now (.connected link)) = .only link := rfl

/-- An attempt that starts without a link leaves one only if it succeeds. -/
theorem Goes.allow (h : a.Goes config role) :
    oneAtATime.Allow .free a.trace ∧ oneAtATime.final .free a.trace = leaves a.result := by
  cases h with
  | late | unreached => exact ⟨allow_knock, rfl⟩
  | @turnedAway broker now link talk e c greeted =>
    obtain ⟨allowed, same, -⟩ := allow_of_talk (l := .only link) (talk_of_greeted greeted)
    have ended : OpenLinks.mk ([link].erase link) ([link].erase link) = .free := by
      rw [List.erase_cons_head]
      rfl
    rw [Surroundings.allow_append, Surroundings.final_append, final_knock,
      Surroundings.allow_append, Surroundings.final_append, same]
    exact ⟨⟨allow_knock, allowed, nofun, nofun, trivial⟩, ended⟩
  | @welcomed broker now link talk terms c greeted isOpen here =>
    obtain ⟨allowed, same, -⟩ := allow_of_talk (l := .only link) (talk_of_greeted greeted)
    rw [Surroundings.allow_append, Surroundings.final_append, final_knock, same]
    exact ⟨⟨allow_knock, allowed⟩, by rw [← here]; rfl⟩

theorem Goes.opened {b : BrokerConnection} (h : a.Goes config role) (success : a.result = .ok b) :
    b.isOpen ∧ b.connection.maxMessageSize = b.welcome.maxMessageSize.toNat := by
  cases h with
  | late | unreached | turnedAway => cases success
  | @welcomed _ _ _ _ terms _ greeted isOpen =>
    cases success
    exact ⟨isOpen, Nat.min_eq_left (Nat.le_of_lt_succ terms.maxMessageSize.toNat_lt)⟩

end Goes

end Attempt

end BrokerConnection
end WorkBroker
