import WorkBroker.Proofs.Broker.Refusals
/-!
Roles are kept apart.  What reaches the hub on behalf of a client is for the role that the client
has announced and was welcomed in, but for the release at the end; and what is refused to a client
might as well not have been sent.
-/

set_option autoImplicit false
set_option relaxedAutoImplicit false

namespace WorkBroker

def Stage.role? : Stage → Option Role
  | .listening role | .asking role _ | .answering role _ => some role
  | _ => none

namespace Conversation

variable {s : Settings} {stage : Stage} {event : Event}

/-- How a conversation comes to stand where it stands after an event. -/
structure Progress (stage : Stage) (event : Event) (stage' : Stage) : Prop where
  greeting : stage' = .greeting → stage = .greeting ∧
    ∀ role clientId, event ≠ .greeted (.ok (role, clientId))
  welcoming : ∀ role, stage' = .welcoming role → stage = .welcoming role ∨
    stage = .greeting ∧ ∃ clientId, event = .greeted (.ok (role, clientId))
  speaking : ∀ role, stage'.role? = some role → stage.role? = some role ∨
    stage = .welcoming role ∧ event = .sent (.ok ())

private theorem Progress.stay (calm : stage = .greeting → ∀ role clientId,
    event ≠ .greeted (.ok (role, clientId))) : Progress stage event stage where
  greeting here := ⟨here, calm here⟩
  welcoming _ here := .inl here
  speaking _ here := .inl here

private theorem Progress.later {stage' : Stage} (greeted : stage' ≠ .greeting)
    (welcomed : ∀ role, stage' ≠ .welcoming role)
    (same : stage'.role? = none ∨ stage'.role? = stage.role?) : Progress stage event stage' where
  greeting here := absurd here greeted
  welcoming role here := absurd here (welcomed role)
  speaking role here := by
    rcases same with none | same
    · rw [none] at here
      cases here
    · exact .inl (same ▸ here)

private theorem Progress.ended (result : Except ConnectionError Unit) :
    Progress stage event (.over result) :=
  .later (by simp) (by simp) (.inl rfl)

private theorem progress_step (s : Settings) (id : Nat) (stage : Stage) (event : Event) :
    Progress stage event (step s id stage event).2 := by
  cases stage with
  | greeting =>
    cases event with
    | greeted result =>
      cases result with
      | error e => exact .ended _
      | ok hello =>
        obtain ⟨role, clientId⟩ := hello
        refine ⟨fun here => (by cases here), fun role' here => ?_, fun _ here => by cases here⟩
        cases here
        exact .inr ⟨rfl, clientId, rfl⟩
    | cancelled => exact .later (by simp [step]) (by simp [step]) (.inl rfl)
    | received | sent | answered | refused => exact .stay (by simp)
  | welcoming role =>
    cases event with
    | sent result =>
      cases result with
      | error e => exact .ended _
      | ok u =>
        refine ⟨fun here => (by cases here), fun role' here => (by cases here), fun _ here => ?_⟩
        cases here
        exact .inr ⟨rfl, rfl⟩
    | greeted | received | answered | refused | cancelled => exact .stay (by simp)
  | listening role =>
    cases event with
    | received result =>
      cases result with
      | error e =>
        cases e <;> exact .ended _
      | ok p =>
        simp only [step, hear]
        split
        · exact .ended _
        · exact .later (by simp [reply]) (by simp [reply]) (.inr rfl)
        · exact .later (by simp) (by simp) (.inr rfl)
        · exact .later (by simp) (by simp) (.inl rfl)
    | cancelled => exact .ended _
    | greeted | sent | answered | refused => exact .stay (by simp)
  | asking role p =>
    cases event with
    | answered result => exact .later (by simp [step, reply]) (by simp [step, reply]) (.inr rfl)
    | greeted | received | sent | refused | cancelled => exact .stay (by simp)
  | answering role last =>
    cases event with
    | sent result =>
      cases result with
      | error e =>
        cases last <;> exact .ended _
      | ok u =>
        cases last with
        | true => exact .ended _
        | false => exact .later (by simp [step]) (by simp [step]) (.inr rfl)
    | greeted | received | answered | refused | cancelled =>
      cases last <;> exact .stay (by simp)
  | dismissing kind =>
    cases event with
    | sent result => exact .ended _
    | greeted | received | answered | refused | cancelled => exact .stay (by simp)
  | refusing =>
    cases event with
    | refused => exact .ended _
    | greeted | received | sent | answered | cancelled => exact .stay (by simp)
  | «over» result =>
    rw [step_over]
    exact .stay (by simp)

/-- Whether an effect says something to the client, or asks the hub and waits. -/
def Effect.isSpoken : Effect → Bool
  | .send _ | .consult .. => true
  | _ => false

/-- What a conversation says or asks, and on what occasion. -/
inductive Utters (s : Settings) (id : Nat) : Stage → Event → Effect → Prop
  | welcome (role : Role) (clientId : String) :
      Utters s id .greeting (.greeted (.ok (role, clientId))) (.send (welcome s id))
  | complaint {role : Role} {p q : Packet} (decided : decide s id role p = .reply q) :
      Utters s id (.listening role) (.received (.ok p)) (.send q)
  | dismissal {role : Role} {p : Packet} {kind : String}
      (decided : decide s id role p = .dismiss kind) :
      Utters s id (.listening role) (.received (.ok p))
        (.send (Packet.ofError .invalidMessage s!"{kind} may only be sent by the broker"))
  | question {role : Role} {p : Packet} {request : Request} {wait : Option Duration}
      (decided : decide s id role p = .consult request wait) :
      Utters s id (.listening role) (.received (.ok p)) (.consult request wait)
  | answer (role : Role) (p : Packet) (result : Except BrokerError Answer) :
      Utters s id (.asking role p) (.answered result) (.send (conclude p result).1)

private theorem eq_send_of_mem_reply {role : Role} {q : Packet} {last : Bool} {effect : Effect}
    (spoken : effect.isSpoken) (mem : effect ∈ (reply role q last).1) : effect = .send q := by
  rcases List.mem_append.mp mem with noted | said
  · obtain ⟨occasion, -, rfl⟩ := List.mem_map.mp noted
    cases spoken
  · exact List.mem_singleton.mp said

private theorem utters_of_mem_hear {id : Nat} {role : Role} {p : Packet} {effect : Effect}
    (spoken : effect.isSpoken) (mem : effect ∈ (hear s id role p).1) :
    Utters s id (.listening role) (.received (.ok p)) effect := by
  rw [hear] at mem
  cases decided : decide s id role p with
  | part =>
    rw [decided] at mem
    obtain rfl := List.mem_singleton.mp mem
    cases spoken
  | reply q =>
    rw [decided] at mem
    obtain rfl := eq_send_of_mem_reply spoken mem
    exact .complaint decided
  | consult request wait =>
    rw [decided] at mem
    obtain rfl := List.mem_singleton.mp mem
    exact .question decided
  | dismiss kind =>
    rw [decided] at mem
    rcases List.mem_cons.mp mem with rfl | said
    · cases spoken
    · obtain rfl := List.mem_singleton.mp said
      exact .dismissal decided

/-- A conversation says and asks nothing but on these occasions. -/
theorem utters_of_mem {id : Nat} {effect : Effect} (spoken : effect.isSpoken)
    (mem : effect ∈ (step s id stage event).1) : Utters s id stage event effect := by
  have silent (quiet : (step s id stage event).1.any Effect.isSpoken = false) :
      Utters s id stage event effect := by
    rw [List.any_eq_false] at quiet
    exact absurd spoken (quiet effect mem)
  cases stage with
  | greeting =>
    cases event with
    | greeted result =>
      cases result with
      | error e => exact silent rfl
      | ok hello =>
        rcases List.mem_cons.mp mem with rfl | said
        · cases spoken
        · obtain rfl := List.mem_singleton.mp said
          exact .welcome hello.1 hello.2
    | received | sent | answered | refused | cancelled => exact silent rfl
  | welcoming role =>
    cases event with
    | sent result => cases result <;> exact silent rfl
    | greeted | received | answered | refused | cancelled => exact silent rfl
  | listening role =>
    cases event with
    | received result =>
      cases result with
      | error e => cases e <;> exact silent rfl
      | ok p =>
        rcases List.mem_cons.mp mem with rfl | mem
        · cases spoken
        · exact utters_of_mem_hear spoken mem
    | greeted | sent | answered | refused | cancelled => exact silent rfl
  | asking role p =>
    cases event with
    | answered result =>
      obtain rfl := eq_send_of_mem_reply spoken mem
      exact .answer role p result
    | greeted | received | sent | refused | cancelled => exact silent rfl
  | answering role last =>
    cases event with
    | sent result => cases result <;> cases last <;> exact silent rfl
    | greeted | received | answered | refused | cancelled => cases last <;> exact silent rfl
  | dismissing kind =>
    cases event with
    | sent | greeted | received | answered | refused | cancelled => exact silent rfl
  | refusing =>
    cases event with
    | sent | greeted | received | answered | refused | cancelled => exact silent rfl
  | «over» result =>
    rw [step_over] at mem
    cases mem

theorem listening_of_consult {id : Nat} {request : Request} {wait : Option Duration}
    (asks : .consult request wait ∈ (step s id stage event).1) :
    ∃ role p, stage = .listening role ∧ event = .received (.ok p) ∧
      decide s id role p = .consult request wait := by
  cases utters_of_mem rfl asks with
  | question decided => exact ⟨_, _, rfl, rfl, decided⟩

private theorem of_mem_commands {id : Nat} {x : Command} (hx : x ∈ commands s id stage event) :
    (x.request = .release id ∧ (step s id stage event).2.isOver) ∨
      ∃ role, stage = .listening role ∧ Allows id role x.request := by
  by_cases exit : Exit stage event
  · obtain ⟨-, ended, sends⟩ := commands_of_exit s id exit
    rw [sends] at hx
    rw [List.mem_singleton.mp hx]
    exact .inl ⟨rfl, ended⟩
  · obtain ⟨-, none | ⟨-, p, request, concerns, sends⟩⟩ := commands_of_not_exit s id exit
    · rw [none] at hx
      cases hx
    · have only : x.request = request := by
        rw [sends] at hx
        rw [List.mem_singleton.mp hx]
      obtain ⟨effect, asks, sent⟩ := List.mem_filterMap.mp hx
      cases effect with
      | consult request' wait =>
        cases sent
        obtain ⟨role, p, here, -, decided⟩ := listening_of_consult asks
        exact .inr ⟨role, here, (allows_of_consult decided).2⟩
      | release =>
        cases sent
        exact absurd only.symm (Concourse.Concerns.ne_release concerns id)
      | note | introduce | send | refuse => cases sent

end Conversation

namespace Broker

open Conversation (Allows commands)

variable {s : Settings} {events : List Event} {e : Event} {role : Role}

/-- Whether some event of a run was of a kind, given the events before it. -/
def Happened (p : List Event → Event → Prop) (events : List Event) : Prop :=
  ∃ before e later, events = before ++ e :: later ∧ p before e

private theorem happened_concat {p : List Event → Event → Prop} :
    Happened p (events ++ [e]) ↔ Happened p events ∨ p events e := by
  constructor
  · rintro ⟨before, x, later, split, hx⟩
    rcases List.eq_nil_or_concat later with rfl | ⟨later, last, rfl⟩
    · obtain ⟨rfl, same⟩ := List.append_inj' split rfl
      obtain rfl := List.singleton_inj.mp same
      exact .inr hx
    · rw [List.concat_eq_append, ← List.cons_append, ← List.append_assoc] at split
      obtain ⟨rfl, -⟩ := List.append_inj' split rfl
      exact .inl ⟨before, x, later, rfl, hx⟩
  · rintro (⟨before, x, later, rfl, hx⟩ | last)
    · exact ⟨before, x, later ++ [e], by simp, hx⟩
    · exact ⟨events, e, [], rfl, last⟩

/-- Whether the hello of a client has come, and has announced a role. -/
def Announced (s : Settings) (id : Nat) (role : Role) : List Event → Prop :=
  Happened fun before e => (after s before).stage? id = some .greeting ∧
    ∃ clientId, e = .tell id (.greeted (.ok (role, clientId)))

/-- Whether a client has announced a role, and its welcome has been sent. -/
def Welcomed (s : Settings) (id : Nat) (role : Role) : List Event → Prop :=
  Happened fun before e => Announced s id role before ∧
    (after s before).stage? id = some (.welcoming role) ∧ e = .tell id (.sent (.ok ()))

structure Standing (s : Settings) (id : Nat) (events : List Event) (stage : Stage) : Prop where
  unknown : stage = .greeting → ∀ role, ¬Announced s id role events
  announced : ∀ role, stage = .welcoming role ∨ stage.role? = some role →
    ∀ other, Announced s id other events ↔ other = role
  welcomed : ∀ role, stage.role? = some role → Welcomed s id role events

variable {id : Nat} {stage : Stage} {event : Conversation.Event}

private theorem Standing.rest (h : Standing s id events stage)
    (untold : ∀ event, (∀ result, event ≠ .answered result) → e ≠ .tell id event) :
    Standing s id (events ++ [e]) stage := by
  have same : ∀ role, Announced s id role (events ++ [e]) ↔ Announced s id role events := by
    intro role
    refine happened_concat.trans (or_iff_left ?_)
    rintro ⟨-, clientId, told⟩
    exact untold _ (by simp) told
  constructor
  case unknown => exact fun here role announced => h.unknown here role ((same role).mp announced)
  case announced => exact fun role here other => (same other).trans (h.announced role here other)
  case welcomed => exact fun role here => happened_concat.mpr (.inl (h.welcomed role here))

private theorem Brings.eq_of_tell (brings : Brings id e event) {event' : Conversation.Event}
    (told : e = .tell id event') : event = event' := by
  cases brings with
  | tell => exact (Event.tell.inj told).2
  | answer => cases told

private theorem Standing.step (h : Standing s id events stage)
    (there : (after s events).stage? id = some stage) (brings : Brings id e event) :
    Standing s id (events ++ [e]) (Conversation.step s id stage event).2 := by
  have p := Conversation.progress_step s id stage event
  have newly : ∀ role, Announced s id role (events ++ [e]) ↔ Announced s id role events ∨
      stage = .greeting ∧ ∃ clientId, e = .tell id (.greeted (.ok (role, clientId))) := by
    intro role
    rw [Announced, happened_concat, there, Option.some.injEq]
  have before : stage ≠ .greeting → ∀ role,
      Announced s id role (events ++ [e]) ↔ Announced s id role events := by
    intro greeted role
    exact (newly role).trans (or_iff_left fun now => greeted now.1)
  constructor
  case unknown =>
    intro here role announced
    obtain ⟨greeting, calm⟩ := p.greeting here
    rcases (newly role).mp announced with before | ⟨-, clientId, told⟩
    · exact h.unknown greeting role before
    · exact calm role clientId (brings.eq_of_tell told)
  case announced =>
    intro role here other
    have known : stage = .welcoming role ∨ stage.role? = some role →
        (Announced s id other (events ++ [e]) ↔ other = role) := by
      intro known
      have greeted : stage ≠ .greeting := by
        rintro rfl
        rcases known with known | known <;> cases known
      exact (before greeted other).trans (h.announced role known other)
    rcases here with welcoming | speaking
    · rcases p.welcoming role welcoming with same | ⟨greeting, clientId, rfl⟩
      · exact known (.inl same)
      · have told : e = .tell id (.greeted (.ok (role, clientId))) := by
          cases brings
          rfl
        refine (newly other).trans ⟨?_, ?_⟩
        · rintro (before | ⟨-, clientId', told'⟩)
          · exact absurd before (h.unknown greeting other)
          · have same := brings.eq_of_tell told'
            simp only [Conversation.Event.greeted.injEq, Except.ok.injEq, Prod.mk.injEq] at same
            exact same.1.symm
        · rintro rfl
          exact .inr ⟨greeting, clientId, told⟩
    · rcases p.speaking role speaking with same | ⟨welcoming, -⟩
      · exact known (.inr same)
      · exact known (.inl welcoming)
  case welcomed =>
    intro role here
    rcases p.speaking role here with same | ⟨rfl, rfl⟩
    · exact happened_concat.mpr (.inl (h.welcomed role same))
    · have told : e = .tell id (.sent (.ok ())) := by
        cases brings
        rfl
      have announced : Announced s id role events := (h.announced role (.inl rfl) role).mpr rfl
      exact happened_concat.mpr (.inr ⟨announced, there, told⟩)

structure Orderly (s : Settings) (events : List Event) : Prop where
  settings_eq : (after s events).settings = s
  numbered : (after s events).Numbered
  young : ∀ id role, Announced s id role events → id < (after s events).floor.nextId
  standing : ∀ id stage, (after s events).stage? id = some stage → Standing s id events stage
  fresh : ∀ call ∈ (after s events).hub.desk.calls,
    call.number < (after s events).hub.desk.nextCall

private theorem Orderly.step (o : Orderly s events) (e : Event) : Orderly s (events ++ [e]) := by
  obtain ⟨settings, le⟩ := step_same (after s events) e
  have young : ∀ id role, Announced s id role (events ++ [e]) →
      id < (after s (events ++ [e])).floor.nextId := by
    intro id role announced
    rw [after_concat]
    rcases happened_concat.mp announced with before | ⟨greeting, -⟩
    · exact Nat.lt_of_lt_of_le (o.young id role before) le
    · exact Nat.lt_of_lt_of_le (o.numbered id .greeting greeting) le
  constructor
  case settings_eq =>
    rw [after_concat, settings]
    exact o.settings_eq
  case numbered =>
    rw [after_concat]
    exact numbered_step o.numbered e
  case young => exact young
  case standing =>
    intro id stage there
    rw [after_concat] at there
    rcases stage_step there with ⟨before, untold⟩ | ⟨-, rfl, rfl, here, -⟩ |
      ⟨event, before, brings, known, rfl⟩
    · exact (o.standing id stage before).rest untold
    · -- Nobody who has only come has announced anything.
      have unknown : ∀ role, ¬Announced s id role (events ++ [.arrive]) := by
        intro role announced
        rcases happened_concat.mp announced with before | ⟨-, clientId, told⟩
        · exact Nat.ne_of_lt (o.young id role before) here
        · cases told
      refine ⟨fun _ => unknown, fun role known => ?_, fun role known => ?_⟩
      · rcases known with known | known <;> cases known
      · cases known
    · rw [o.settings_eq]
      exact (o.standing id before known).step known brings
  case fresh =>
    rw [after_concat]
    let next := ((after s events).step e).2.hub.desk.nextCall
    have grows : (after s events).hub.desk.nextCall ≤ next := nextCall_le_step (after s events) e
    have old : (Rule.ofCalls fun number _ => number < next).Holds
        (after s events).hub.desk.nextCall (after s events).hub.desk :=
      ⟨trivial, fun call hc => Nat.lt_of_lt_of_le (o.fresh call hc) grows, rfl⟩
    obtain ⟨m, -, all⟩ := holds_step (Rule.lasts_ofCalls _) old e
      fun _ _ _ _ _ _ _ _ _ lt _ _ => lt
    exact all.calls

private theorem orderly (s : Settings) (events : List Event) : Orderly s events := by
  induction events using List.reverseRecOn with
  | nil =>
    constructor
    case settings_eq => rfl
    case numbered => exact numbered_start s
    case young =>
      rintro id role ⟨before, e, later, split, -⟩
      simp at split
    case standing => exact fun id stage there => by cases there
    case fresh =>
      have none : (Rule.ofCalls fun number _ => number < 0).Holds 0
          (Desk.ofSettings s.queue) :=
        ⟨trivial, fun _ hc => absurd hc List.not_mem_nil, rfl⟩
      have settled := none.settle (Rule.lasts_ofCalls _)
        (t := ⟨Desk.ofSettings s.queue, Instant.start, s.sweepPeriod, Instant.start⟩)
      exact fun call hc => absurd (settled.calls call hc) (Nat.not_lt_zero _)
  | append_singleton events e ih => exact ih.step e

/-- Whether a request is made for a client as it should be: it is the last one, or the client has
announced a role, was welcomed, and asks for something that the role is for. -/
def InOrder (s : Settings) (events : List Event) (id : Nat) (stage' : Option Stage)
    (request : Request) : Prop :=
  (request = .release id ∧ ∃ result, stage' = some (.over result)) ∨
    ∃ role, (∀ other, Announced s id other events ↔ other = role) ∧ Welcomed s id role events ∧
      Allows id role request

private theorem inOrder_of_new (s : Settings) (events : List Event) (e : Event) :
    ∀ call ∈ (after s (events ++ [e])).hub.desk.calls,
      (after s events).hub.desk.nextCall ≤ call.number →
        ∃ id event, e = .tell id event ∧
          InOrder s events id ((after s (events ++ [e])).stage? id) call.request := by
  have o := orderly s events
  let made (request : Request) : Prop := ∃ id event, e = .tell id event ∧
    InOrder s events id ((after s (events ++ [e])).stage? id) request
  have old : (Rule.ofCalls fun number request =>
      (after s events).hub.desk.nextCall ≤ number → made request).Holds
        (after s events).hub.desk.nextCall (after s events).hub.desk :=
    ⟨trivial, fun call hc le => absurd (o.fresh call hc) (Nat.not_lt_of_le le), rfl⟩
  have desk : (after s (events ++ [e])).hub.desk = ((after s events).step e).2.hub.desk := by
    rw [after_concat]
  suffices fits : ∀ id event stage, e = .tell id event →
      (after s events).stage? id = some stage →
        ∀ x ∈ commands (after s events).settings id stage event, made x.request by
    obtain ⟨m, -, all⟩ := holds_step (Rule.lasts_ofCalls _) old e
      fun id event stage told there x hx call _ _ request _ _ =>
        request ▸ fits id event stage told there x hx
    rw [desk]
    exact all.calls
  rintro id event stage rfl there x hx
  rw [o.settings_eq] at hx
  refine ⟨id, event, rfl, ?_⟩
  rcases Conversation.of_mem_commands hx with ⟨release, ended⟩ | ⟨role, rfl, allows⟩
  · have unanswered : ∀ result, event ≠ .answered result := by
      rintro result rfl
      rw [commands_answered] at hx
      cases hx
    have after : (after s (events ++ [.tell id event])).stage? id =
        some (Conversation.step s id stage event).2 := by
      rw [after_concat, step_tell _ id unanswered]
      show ((Broker.after s events).occur id event).2.stage? id = _
      rw [stage?_occur, there, o.settings_eq, Option.map_some, if_pos rfl]
    refine .inl ⟨release, ?_⟩
    rw [after]
    generalize (Conversation.step s id stage event).2 = stage' at ended
    cases stage' with
    | «over» result => exact ⟨result, rfl⟩
    | _ => cases ended
  · have standing := o.standing id _ there
    exact .inr ⟨role, standing.announced role (.inr rfl), standing.welcomed role rfl, allows⟩

/-- A run without the packets that were refused in it. -/
def spared (s : Settings) (events : List Event) : List Event :=
  (start s).prune (fun _ => false) events

/-- Roles are isolated.  Without its refused packets a run leaves the hub in the same state, with
the same queue and the same line, and its record is the same but for what is about these packets.
And every call to the hub is the release of a connection whose conversation is over, or is made for
a client that was welcomed in the role that it announced, and is for that role. -/
theorem roles_are_isolated (s : Settings) (events : List Event) :
    (((start s).run (spared s events)).1 =
        ((start s).run events).1.filter (!·.isRefused s) ∧
      (after s (spared s events)).hub = (after s events).hub ∧
      (after s (spared s events)).floor.guests = (after s events).floor.guests) ∧
    ∀ e, ∀ call ∈ (after s (events ++ [e])).hub.desk.calls,
      (after s events).hub.desk.nextCall ≤ call.number →
        ∃ id event, e = .tell id event ∧
          InOrder s events id ((after s (events ++ [e])).stage? id) call.request := by
  obtain ⟨c, said, alike⟩ := (alike_start s).run (numbered_start s) events
  exact ⟨⟨said, alike.same.hub, alike.same.guests⟩, inOrder_of_new s events⟩

end Broker
end WorkBroker
