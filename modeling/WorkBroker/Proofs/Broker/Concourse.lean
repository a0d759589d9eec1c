import WorkBroker.Proofs.Broker.Replies
import WorkBroker.Proofs.Hub.Parting
/-!
Any number of connections and one hub.  The commands of all conversations reach the hub through one
channel, in the order in which they were sent, while conversations and hub go on at their own pace;
what the hub meets when it looks is left open.  A conversation that ends, whichever way, sends the
release of its connection as its last command, and once the hub has carried that out it has nothing
of the connection any more.
-/

set_option autoImplicit false
set_option relaxedAutoImplicit false

namespace WorkBroker

open Conversation (Concerns Decided decided)

def Stage.isOver : Stage → Bool
  | .over _ => true
  | _ => false

/-- A command on its way to the hub, and the connection that sent it. -/
structure Command where
  sender : Nat
  request : Request
  deriving DecidableEq

namespace Conversation

variable {s : Settings} {id : Nat} {stage : Stage} {event : Event}

def command? (id : Nat) : Effect → Option Command
  | .consult request _ => some ⟨id, request⟩
  | .release => some ⟨id, .release id⟩
  | _ => none

/-- The ways out of a conversation: the handshake fails, the client says goodbye or is not heard any
more, sending fails, a packet of the broker's own has been turned down, or the broker shuts down. -/
inductive Exit : Stage → Event → Prop
  | noHandshake (e : ConnectionError) : Exit .greeting (.greeted (.error e))
  | noWelcome (role : Role) (e : ConnectionError) : Exit (.welcoming role) (.sent (.error e))
  | goodbye (role : Role) : Exit (.listening role) (.received (.ok .goodbye))
  | unheard (role : Role) (e : ConnectionError) : Exit (.listening role) (.received (.error e))
  | noReply (role : Role) (last : Bool) (e : ConnectionError) :
      Exit (.answering role last) (.sent (.error e))
  | turnedDown (kind : String) (result : Except ConnectionError Unit) :
      Exit (.dismissing kind) (.sent result)
  | cancelled (role : Role) : Exit (.listening role) .cancelled
  | shutDown (role : Role) : Exit (.answering role true) (.sent (.ok ()))
  | refused : Exit .refusing .refused

def commands (s : Settings) (id : Nat) (stage : Stage) (event : Event) : List Command :=
  (step s id stage event).1.filterMap (command? id)

theorem commands_of_exit (s : Settings) (id : Nat) (exit : Exit stage event) :
    stage.isOver = false ∧ (step s id stage event).2.isOver ∧
      commands s id stage event = [⟨id, .release id⟩] := by
  cases exit with
  | unheard role e => cases e <;> exact ⟨rfl, rfl, rfl⟩
  | noReply role last e => cases last <;> exact ⟨rfl, rfl, rfl⟩
  | goodbye role => cases role <;> exact ⟨rfl, rfl, rfl⟩
  | _ => exact ⟨rfl, rfl, rfl⟩

theorem filterMap_command_reply (role : Role) (q : Packet) (last : Bool) :
    (reply role q last).1.filterMap (command? id) = [] := by
  rw [reply, List.filterMap_append, List.filterMap_map]
  exact List.append_eq_nil_iff.mpr
    ⟨List.filterMap_eq_nil_iff.mpr fun _ _ => rfl, rfl⟩

theorem commands_of_not_exit (s : Settings) (id : Nat) (stays : ¬Exit stage event) :
    (step s id stage event).2.isOver = stage.isOver ∧
      (commands s id stage event = [] ∨ stage.isOver = false ∧
        ∃ p request, Concerns id p request ∧ commands s id stage event = [⟨id, request⟩]) := by
  have silent (after : (step s id stage event).2.isOver = stage.isOver)
      (none : commands s id stage event = []) : (step s id stage event).2.isOver = stage.isOver ∧
      (commands s id stage event = [] ∨ stage.isOver = false ∧
        ∃ p request, Concerns id p request ∧ commands s id stage event = [⟨id, request⟩]) :=
    ⟨after, .inl none⟩
  cases stage with
  | greeting =>
    cases event with
    | greeted result =>
      cases result with
      | error e => exact absurd (.noHandshake e) stays
      | ok hello => exact silent rfl rfl
    | received | sent | answered | refused | cancelled => exact silent rfl rfl
  | welcoming role =>
    cases event with
    | sent result =>
      cases result with
      | error e => exact absurd (.noWelcome role e) stays
      | ok => exact silent rfl rfl
    | greeted | received | answered | refused | cancelled => exact silent rfl rfl
  | listening role =>
    cases event with
    | received result =>
      cases result with
      | error e => exact absurd (.unheard role e) stays
      | ok p =>
        have d := decided s id role p
        simp only [commands, step, hear] at silent ⊢
        generalize decide s id role p = decision at d silent
        cases d with
        | part goodbye => exact absurd (goodbye ▸ .goodbye role) stays
        | reply client ne unasked complaint =>
          exact silent rfl (filterMap_command_reply role _ false)
        | @consult request wait client ne asked concerns =>
          exact ⟨rfl, .inr ⟨rfl, p, request, concerns, rfl⟩⟩
        | dismiss broker unasked => exact silent rfl rfl
    | cancelled => exact absurd (.cancelled role) stays
    | greeted | sent | answered | refused => exact silent rfl rfl
  | asking role p =>
    cases event with
    | answered result => exact silent rfl (filterMap_command_reply role _ _)
    | greeted | received | sent | refused | cancelled => exact silent rfl rfl
  | answering role last =>
    cases event with
    | sent result =>
      cases result with
      | error e => exact absurd (.noReply role last e) stays
      | ok =>
        cases last with
        | true => exact absurd (.shutDown role) stays
        | false => exact silent rfl rfl
    | greeted | received | answered | refused | cancelled => cases last <;> exact silent rfl rfl
  | dismissing kind =>
    cases event with
    | sent result => exact absurd (.turnedDown kind result) stays
    | greeted | received | answered | refused | cancelled => exact silent rfl rfl
  | refusing =>
    cases event with
    | refused => exact absurd .refused stays
    | greeted | received | sent | answered | cancelled => exact silent rfl rfl
  | «over» result =>
    have still : step s id (.over result) event = ([], .over result) := step_over result event
    exact silent (by rw [still]) (by rw [commands, still]; rfl)

end Conversation

/-- Connections and the hub: where each conversation stands, every command that was sent, how many
of them the hub has carried out, and the hub itself. -/
structure Concourse where
  stage : Nat → Stage
  sent : List Command
  done : Nat
  hub : Hub
  stopped : Bool

namespace Concourse

/-- What can happen: something to a conversation, a turn of the hub for the next command or for a
timer, or the end of the hub. -/
inductive Event
  | occur (id : Nat) (event : Conversation.Event)
  | work (m : Moment)
  | tick (m : Moment)
  | stop

def start (s : Settings) : Concourse where
  stage _ := .greeting
  sent := []
  done := 0
  hub := Hub.ofSettings s.queue
  stopped := false

def step (s : Settings) (c : Concourse) : Event → Concourse
  | .occur id event =>
    { c with
      stage := Function.update c.stage id (Conversation.step s id (c.stage id) event).2
      sent := c.sent ++ Conversation.commands s id (c.stage id) event }
  | .work m =>
    match c.stopped, c.sent[c.done]? with
    | false, some x => { c with done := c.done + 1, hub := (c.hub.turn m c.done x.request).2 }
    | _, _ => c
  | .tick m => if c.stopped then c else { c with hub := (c.hub.tick m).2 }
  | .stop => { c with hub := c.hub.stop.2, stopped := true }

private theorem stage_occur (s : Settings) (c : Concourse) (id : Nat) (event : Conversation.Event)
    (other : Nat) : (c.step s (.occur id event)).stage other =
      if other = id then (Conversation.step s id (c.stage id) event).2 else c.stage other :=
  Function.update_apply ..

private theorem sent_occur (s : Settings) (c : Concourse) (id : Nat) (event : Conversation.Event) :
    (c.step s (.occur id event)).sent =
      c.sent ++ Conversation.commands s id (c.stage id) event := rfl

theorem step_work {c : Concourse} (running : c.stopped = false) (s : Settings) (m : Moment)
    {x : Command} (next : c.sent[c.done]? = some x) :
    c.step s (.work m) =
      { c with done := c.done + 1, hub := (c.hub.turn m c.done x.request).2 } := by
  simp only [step, running, next]

def run (s : Settings) (events : List Event) : Concourse := events.foldl (step s) (start s)

theorem run_concat (s : Settings) (events : List Event) (e : Event) :
    run s (events ++ [e]) = (run s events).step s e := List.foldl_append

def sentBy (id : Nat) (sent : List Command) : List Request :=
  (sent.filter (·.sender == id)).map (·.request)

/-- Whether a command may come after another one: nothing follows the release of its sender. -/
def MayFollow (x y : Command) : Prop := x.request = .release x.sender → y.sender ≠ x.sender

/-- Whether the hub has carried out the release of a connection. -/
def Released (c : Concourse) (id : Nat) : Prop := ⟨id, .release id⟩ ∈ c.sent.take c.done

variable {s : Settings} {c : Concourse} {id : Nat}

structure Sound (s : Settings) (c : Concourse) : Prop where
  coherent : c.hub.queue.Coherent
  settings_eq : c.hub.queue.settings = s.queue
  done_le : c.done ≤ c.sent.length
  own : ∀ x ∈ c.sent, x.request = .release x.sender ∧ (c.stage x.sender).isOver ∨
    ∃ p, Concerns x.sender p x.request
  parted : ∀ id, (c.stage id).isOver → ∃ before, sentBy id c.sent = before ++ [.release id] ∧
    ∀ request ∈ before, ∃ p, Concerns id p request
  last : c.sent.Pairwise MayFollow
  known : c.hub.BelongsTo fun id => ∃ x ∈ c.sent, x.sender = id
  clean : ∀ id, c.Released id → c.hub.BelongsTo (· ≠ id)

private theorem sound_start (s : Settings) : Sound s (start s) where
  coherent := Queue.coherent_ofSettings s.queue
  settings_eq := rfl
  done_le := Nat.le_refl 0
  own _ h := absurd h List.not_mem_nil
  parted _ h := by cases h
  last := .nil
  known := ⟨fun _ hw => absurd hw List.not_mem_nil, fun _ runs => nomatch runs⟩
  clean _ h := absurd h List.not_mem_nil

section Occur

private theorem sentBy_concat (id : Nat) (sent : List Command) (x : Command) :
    sentBy id (sent ++ [x]) = sentBy id sent ++ if x.sender = id then [x.request] else [] := by
  rw [sentBy, sentBy, List.filter_append, List.map_append]
  by_cases e : x.sender = id <;> simp [e]

private theorem Sound.asks (o : Sound s c) {x : Command} (hx : x ∈ c.sent)
    (going : (c.stage x.sender).isOver = false) : ∃ p, Concerns x.sender p x.request := by
  rcases o.own x hx with ⟨-, ended⟩ | asked
  · simp [going] at ended
  · exact asked

theorem Concerns.ne_release {owner : Nat} {p : Packet} {request : Request}
    (h : Concerns owner p request) (id : Nat) : request ≠ .release id := by
  rintro rfl
  cases h

private theorem Sound.stages (o : Sound s c) {stage : Nat → Stage}
    (same : ∀ id, (stage id).isOver = (c.stage id).isOver) : Sound s { c with stage } where
  coherent := o.coherent
  settings_eq := o.settings_eq
  done_le := o.done_le
  own x hx := by
    rw [same]
    exact o.own x hx
  parted id ended := o.parted id (same id ▸ ended)
  last := o.last
  known := o.known
  clean := o.clean

private theorem Sound.last_concat (o : Sound s c) (going : (c.stage id).isOver = false)
    (request : Request) : (c.sent ++ [Command.mk id request]).Pairwise MayFollow := by
  refine List.pairwise_append.mpr ⟨o.last, List.pairwise_singleton _ _, ?_⟩
  intro x hx y hy release
  rw [List.mem_singleton.mp hy]
  rintro rfl
  obtain ⟨p, concerns⟩ := o.asks hx going
  exact Concerns.ne_release concerns _ release

private theorem Sound.known_concat (o : Sound s c) (x : Command) :
    c.hub.BelongsTo fun id => ∃ y ∈ c.sent ++ [x], y.sender = id := by
  refine o.known.mono fun id ⟨y, hy, sender⟩ => ?_
  exact ⟨y, List.mem_append_left _ hy, sender⟩

private theorem Sound.ask (o : Sound s c) (going : (c.stage id).isOver = false) {p : Packet}
    {request : Request} (concerns : Concerns id p request) :
    Sound s { c with sent := c.sent ++ [⟨id, request⟩] } where
  coherent := o.coherent
  settings_eq := o.settings_eq
  done_le := Nat.le_trans o.done_le (by simp)
  own x hx := by
    rcases List.mem_append.mp hx with hx | hx
    · exact o.own x hx
    · rw [List.mem_singleton.mp hx]
      exact .inr ⟨p, concerns⟩
  parted other ended := by
    have ne : id ≠ other := by
      rintro rfl
      simp [going] at ended
    rw [sentBy_concat, if_neg ne, List.append_nil]
    exact o.parted other ended
  last := o.last_concat going request
  known := o.known_concat _
  clean other released := by
    rw [Released, List.take_append_of_le_length o.done_le] at released
    exact o.clean other released

private theorem Sound.exit (o : Sound s c) (going : (c.stage id).isOver = false)
    {stage : Nat → Stage} (ended : (stage id).isOver)
    (others : ∀ other, other ≠ id → (stage other).isOver = (c.stage other).isOver) :
    Sound s { c with stage, sent := c.sent ++ [⟨id, .release id⟩] } where
  coherent := o.coherent
  settings_eq := o.settings_eq
  done_le := Nat.le_trans o.done_le (by simp)
  own x hx := by
    rcases List.mem_append.mp hx with hx | hx
    · -- What it has sent before were all questions about packets.
      by_cases e : x.sender = id
      · exact .inr (o.asks hx (e ▸ going))
      · rw [others x.sender e]
        exact o.own x hx
    · rw [List.mem_singleton.mp hx]
      exact .inl ⟨rfl, ended⟩
  parted other gone := by
    rw [sentBy_concat]
    by_cases e : id = other
    · subst e
      refine ⟨sentBy id c.sent, by rw [if_pos rfl], fun request hrequest => ?_⟩
      obtain ⟨x, hx, rfl⟩ := List.mem_map.mp hrequest
      obtain ⟨there, own⟩ := List.mem_filter.mp hx
      obtain rfl : x.sender = id := by simpa using own
      exact o.asks there going
    · rw [if_neg e, List.append_nil]
      exact o.parted other ((others other (Ne.symm e)).symm.trans gone)
  last := o.last_concat going _
  known := o.known_concat _
  clean other released := by
    rw [Released, List.take_append_of_le_length o.done_le] at released
    exact o.clean other released

private theorem Sound.occur (o : Sound s c) (id : Nat) (event : Conversation.Event) :
    Sound s (c.step s (.occur id event)) := by
  have others : ∀ other, other ≠ id → (Function.update c.stage id
      (Conversation.step s id (c.stage id) event).2 other).isOver = (c.stage other).isOver := by
    intro other ne
    rw [Function.update_of_ne ne]
  rw [step]
  by_cases exit : Conversation.Exit (c.stage id) event
  · obtain ⟨going, ended, sends⟩ := Conversation.commands_of_exit s id exit
    rw [sends]
    refine o.exit going ?_ others
    rw [Function.update_self, ended]
  · obtain ⟨same, sends⟩ := Conversation.commands_of_not_exit s id exit
    have stages : ∀ other, (Function.update c.stage id
        (Conversation.step s id (c.stage id) event).2 other).isOver = (c.stage other).isOver := by
      intro other
      by_cases e : other = id
      · rw [e, Function.update_self, same]
      · exact others other e
    rcases sends with none | ⟨going, p, request, concerns, one⟩
    · rw [none, List.append_nil]
      exact o.stages stages
    · rw [one]
      exact (o.ask going concerns).stages stages

end Occur

section Turns

private theorem Concerns.asker_eq {owner : Nat} {p : Packet} {request : Request}
    (h : Concerns owner p request) {taker : Nat} {stays : Bool}
    (asker : request.asker? = some (taker, stays)) : taker = owner := by
  cases h <;> simp [Request.asker?] at asker <;> exact asker.1.symm

/-- A command gives something to nobody but its sender. -/
theorem Sound.sender_of_asker (o : Sound s c) {x : Command} (hx : x ∈ c.sent) {taker : Nat}
    {stays : Bool} (asker : x.request.asker? = some (taker, stays)) : taker = x.sender := by
  rcases o.own x hx with ⟨release, -⟩ | ⟨p, concerns⟩
  · rw [release] at asker
    cases asker
  · exact Concerns.asker_eq concerns asker

private theorem Sound.carryOut (o : Sound s c) (m : Moment) {x : Command}
    (next : c.sent[c.done]? = some x) :
    Sound s { c with done := c.done + 1, hub := (c.hub.turn m c.done x.request).2 } where
  coherent := (Hub.moves_turn o.coherent m c.done x.request).coherent o.coherent
  settings_eq :=
    ((Hub.moves_turn o.coherent m c.done x.request).follows o.coherent).settings_eq.trans
      o.settings_eq
  done_le := (List.getElem?_eq_some_iff.mp next).1
  own := o.own
  parted := o.parted
  last := o.last
  known := by
    have hx : x ∈ c.sent := List.mem_of_getElem? next
    refine o.known.turn o.coherent m c.done fun taker stays asker => ?_
    exact ⟨x, hx, (o.sender_of_asker hx asker).symm⟩
  clean id released := by
    have taken : c.sent.take (c.done + 1) = c.sent.take c.done ++ [x] := by
      rw [List.take_add_one, next]
      rfl
    have hx : x ∈ c.sent := List.mem_of_getElem? next
    rw [Released, taken] at released
    rcases List.mem_append.mp released with before | now
    · -- Another connection's command, since nothing follows a release.
      have other : x.sender ≠ id := by
        have split := o.last
        rw [← List.take_append_drop c.done c.sent] at split
        have behind : x ∈ c.sent.drop c.done :=
          List.mem_of_getElem? (i := 0) (by rw [List.getElem?_drop, Nat.add_zero, next])
        exact (List.pairwise_append.mp split).2.2 _ before x behind rfl
      refine (o.clean id before).turn o.coherent m c.done fun taker stays asker => ?_
      rw [o.sender_of_asker hx asker]
      exact other
    · rw [← List.mem_singleton.mp now]
      exact Hub.belongsTo_turn_release o.coherent m c.done id

private theorem Sound.step (o : Sound s c) (e : Event) : Sound s (c.step s e) := by
  cases e with
  | occur id event => exact o.occur id event
  | work m =>
    cases running : c.stopped with
    | true =>
      simp only [Concourse.step, running]
      exact o
    | false =>
      cases next : c.sent[c.done]? with
      | none =>
        simp only [Concourse.step, running, next]
        exact o
      | some x =>
        rw [step_work running s m next]
        exact o.carryOut m next
  | tick m =>
    rw [Concourse.step]
    split_ifs
    · exact o
    · have moves := Hub.moves_tick o.coherent m
      exact
        { o with
          coherent := moves.coherent o.coherent
          settings_eq := (moves.follows o.coherent).settings_eq.trans o.settings_eq
          known := o.known.tick o.coherent m
          clean := fun id released => (o.clean id released).tick o.coherent m }
  | stop =>
    have stop {p : Nat → Prop} (b : c.hub.BelongsTo p) : c.hub.stop.2.BelongsTo p :=
      b.shrink (fun w hw => absurd hw List.not_mem_nil) fun _ runs => runs
    exact { o with known := stop o.known, clean := fun id released => stop (o.clean id released) }

theorem sound_run (s : Settings) (events : List Event) : Sound s (run s events) := by
  induction events using List.reverseRecOn with
  | nil => exact sound_start s
  | append_singleton events e ih =>
    rw [run_concat]
    exact ih.step e

end Turns

section Later

theorem Sound.released (o : Sound s c) (all : c.done = c.sent.length)
    (ended : (c.stage id).isOver) : c.Released id := by
  obtain ⟨before, commands, -⟩ := o.parted id ended
  have last : Request.release id ∈ sentBy id c.sent := by
    rw [commands]
    exact List.mem_append_right _ List.mem_cons_self
  obtain ⟨x, hx, release⟩ := List.mem_map.mp last
  obtain ⟨there, own⟩ := List.mem_filter.mp hx
  have same : x = ⟨id, .release id⟩ := by
    cases x
    simp_all
  rw [Released, all, List.take_length, ← same]
  exact there

private theorem Released.step (h : c.Released id) (o : Sound s c) (e : Event) :
    (c.step s e).Released id := by
  cases e with
  | occur other event =>
    rw [Released, Concourse.step, List.take_append_of_le_length o.done_le]
    exact h
  | work m =>
    rw [Concourse.step]
    split
    · exact List.take_subset_take_left c.sent (Nat.le_succ c.done) h
    · exact h
  | tick m =>
    rw [Concourse.step]
    split_ifs <;> exact h
  | stop => exact h

private theorem sentBy_step (ended : (c.stage id).isOver) (e : Event) :
    ((c.step s e).stage id).isOver ∧ sentBy id (c.step s e).sent = sentBy id c.sent := by
  cases e with
  | occur other event =>
    have apart (going : (c.stage other).isOver = false) : other ≠ id := by
      rintro rfl
      simp [going] at ended
    rw [stage_occur, sent_occur]
    by_cases exit : Conversation.Exit (c.stage other) event
    · obtain ⟨going, -, sends⟩ := Conversation.commands_of_exit s other exit
      rw [if_neg (apart going).symm, sends, sentBy_concat, if_neg (apart going), List.append_nil]
      exact ⟨ended, rfl⟩
    · obtain ⟨same, sends⟩ := Conversation.commands_of_not_exit s other exit
      constructor
      · split_ifs with e
        · rw [same, ← e]
          exact ended
        · exact ended
      · rcases sends with none | ⟨going, p, request, -, one⟩
        · rw [none, List.append_nil]
        · rw [one, sentBy_concat, if_neg (apart going), List.append_nil]
  | work m =>
    rw [Concourse.step]
    split <;> exact ⟨ended, rfl⟩
  | tick m =>
    rw [Concourse.step]
    split_ifs <;> exact ⟨ended, rfl⟩
  | stop => exact ⟨ended, rfl⟩

private theorem released_run (events more : List Event) (h : (run s events).Released id) :
    (run s (events ++ more)).Released id := by
  induction more using List.reverseRecOn with
  | nil => rwa [List.append_nil]
  | append_singleton more e ih =>
    rw [← List.append_assoc, run_concat]
    exact ih.step (sound_run s _) e

private theorem sentBy_run (events more : List Event) (ended : ((run s events).stage id).isOver) :
    ((run s (events ++ more)).stage id).isOver ∧
      sentBy id (run s (events ++ more)).sent = sentBy id (run s events).sent := by
  induction more using List.reverseRecOn with
  | nil => rw [List.append_nil]; exact ⟨ended, rfl⟩
  | append_singleton more e ih =>
    rw [← List.append_assoc, run_concat]
    have step := sentBy_step (s := s) ih.1 e
    exact ⟨step.1, step.2.trans ih.2⟩

end Later

/-- A connection that has ended holds nothing.  Whichever way it ends, the last command that it
sends is its release.  The turn in which the hub carries that out takes back every message that the
connection holds, as one failed attempt, and changes no other message but by giving it to someone
else who stands in line.  From then on nobody stands in line for the connection and nothing is out
for it, whatever happens. -/
theorem departed_hold_nothing (s : Settings) (events : List Event) (id : Nat) :
    (∀ event, Conversation.Exit ((run s events).stage id) event →
      ((run s (events ++ [.occur id event])).stage id).isOver) ∧
    (((run s events).stage id).isOver →
      (∃ before, sentBy id (run s events).sent = before ++ [.release id] ∧
        ∀ request ∈ before, ∃ p, Concerns id p request) ∧
      ∀ more, sentBy id (run s (events ++ more)).sent = sentBy id (run s events).sent) ∧
    (∀ m, (run s events).stopped = false →
      (run s events).sent[(run s events).done]? = some ⟨id, .release id⟩ →
      (run s (events ++ [.work m])).Released id ∧
      Hub.Reclaims s.queue.maxRetries m id (run s events).hub (run s (events ++ [.work m])).hub) ∧
    ((run s events).Released id →
      ∀ more, (run s (events ++ more)).hub.BelongsTo (· ≠ id)) := by
  have o := sound_run s events
  refine ⟨fun event exit => ?_, fun ended => ⟨o.parted id ended, fun more => ?_⟩,
    fun m running next => ?_, fun released more => ?_⟩
  · obtain ⟨-, ended, -⟩ := Conversation.commands_of_exit s id exit
    rw [run_concat, stage_occur, if_pos rfl]
    exact ended
  · exact (sentBy_run events more ended).2
  · rw [run_concat, step_work running s m next, ← o.settings_eq]
    refine ⟨?_, Hub.reclaims_turn_release o.coherent m (run s events).done id⟩
    rw [Released, List.take_add_one, next]
    exact List.mem_append_right _ List.mem_cons_self
  · exact (sound_run s _).clean id (released_run events more released)

/-- One client pushes a message, a second one is sent it, a third one waits. -/
def threeClients (m : Moment) : List Event :=
  [.occur 1 (.greeted (.ok (.producer, "writer"))), .occur 1 (.sent (.ok ())),
    .occur 1 (.received (.ok (.push "a" 0 0 [7]))), .work m,
    .occur 2 (.greeted (.ok (.consumer, "reader"))), .occur 2 (.sent (.ok ())),
    .occur 2 (.received (.ok (.pop 0))), .work m,
    .occur 3 (.greeted (.ok (.consumer, "heir"))), .occur 3 (.sent (.ok ())),
    .occur 3 (.received (.ok (.pop 1000))), .work m,
    .occur 2 (.answered (.ok (.delivery (some ⟨"a", 1, 1, [7]⟩))))]

/-- When the second client cannot be reached any more, its message goes to the one who waits, for a
second attempt. -/
theorem lost_reader_leaves_nothing :
    let m := Moment.steady (fun _ => true) Instant.start
    let lost := threeClients m ++ [.occur 2 (.sent (.error .closed))]
    let c := run {} (lost ++ [.work m])
    ((run {} lost).stage 2).isOver ∧
      (∃ before, sentBy 2 (run {} lost).sent = before ++ [.release 2]) ∧
      (c.hub.queue.find? "a").map (fun x => (x.state, x.failures)) =
        some (.running 2 3 Instant.start, 1) ∧
      c.hub.BelongsTo (· ≠ 2) := by
  intro m lost c
  obtain ⟨leaves, -⟩ := departed_hold_nothing {} (threeClients m) 2
  have ended : ((run {} lost).stage 2).isOver :=
    leaves (.sent (.error .closed)) (.noReply .consumer false .closed)
  obtain ⟨-, parted, turn, -⟩ := departed_hold_nothing {} lost 2
  obtain ⟨⟨before, last, -⟩, -⟩ := parted ended
  obtain ⟨released, -⟩ := turn m (by decide +kernel) (by decide +kernel)
  obtain ⟨-, -, -, clean⟩ := departed_hold_nothing {} (lost ++ [.work m]) 2
  have left := clean released []
  rw [List.append_nil] at left
  exact ⟨ended, ⟨before, last⟩, by decide +kernel, left⟩

end Concourse
end WorkBroker
