import WorkBroker.Proofs.Broker.Runs
/-!
Refusals have no consequences.  A client that sends what is not for its role, a second hello or too
large a payload gets a complaint, and otherwise it is as if it had sent nothing: in the run without
the refused packets the hub ends in the same state, and every other packet gets the same replies.
-/

set_option autoImplicit false
set_option relaxedAutoImplicit false

namespace WorkBroker

namespace Conversation

variable {s : Settings} {id : Nat} {role : Role} {p : Packet}

/-- Whether a packet is refused to a client with a role, while the conversation goes on. -/
def refuses (s : Settings) (role : Role) : Packet → Bool
  | .hello .. => true
  | .push _ _ _ payload => role != .producer || payload.length > s.maxMessageSize.toNat
  | .pop _ | .ack .. | .ackPop .. => role != .consumer
  | .listFailed _ | .eraseFailed _ => role != .monitor
  | _ => false

/-- Whether a request is one for clients of a role. -/
def Allows (id : Nat) : Role → Request → Prop
  | _, .counts => True
  | .producer, .push owner .. => owner = id
  | .consumer, .pop owner _ | .consumer, .ackPop owner .. => owner = id
  | .consumer, .ack .. => True
  | .monitor, .listFailed _ | .monitor, .eraseFailed _ => True
  | _, _ => False

private theorem refuses_iff (id : Nat) : refuses s role p ↔ ∃ q, decide s id role p = .reply q := by
  cases p with
  | push x priority delay payload =>
    cases role with
    | producer =>
      by_cases large : payload.length > s.maxMessageSize.toNat
      · simp [refuses, decide, large]
      · simp [refuses, decide, large]
    | consumer | monitor => simp [refuses, decide, Packet.isFromClient, Packet.typeByte]
  | _ => cases role <;> simp [refuses, decide, Packet.isFromClient, Packet.typeByte]

theorem allows_of_consult {request : Request} {wait : Option Duration}
    (consult : decide s id role p = .consult request wait) :
    refuses s role p = false ∧ Allows id role request := by
  refine ⟨?_, ?_⟩
  · by_contra refused
    obtain ⟨q, reply⟩ := (refuses_iff id).mp (by simpa using refused)
    rw [reply] at consult
    cases consult
  · cases p with
    | push x priority delay payload =>
      cases role with
      | producer =>
        by_cases large : payload.length > s.maxMessageSize.toNat
        · simp [decide, large] at consult
        · simp only [decide, if_neg large, Decision.consult.injEq] at consult
          rw [← consult.1]
          exact rfl
      | consumer | monitor => simp [decide, Packet.isFromClient, Packet.typeByte] at consult
    | _ =>
      cases role <;>
        simp [decide, Packet.isFromClient, Packet.typeByte] at consult <;>
        simp [← consult.1, Allows]

end Conversation

namespace Broker

open Conversation (refuses)

/-! ### Leaving refused packets out -/

def Topic.isRefused (s : Settings) : Topic → Bool
  | (some role, p) => refuses s role p
  | (none, _) => false

def Entry.isRefused (s : Settings) (x : Entry) : Bool := x.topic?.any (Topic.isRefused s)

/-- Whether an event brings a conversation a packet that is refused. -/
def refusesAt (b : Broker) (id : Nat) (event : Conversation.Event) : Bool :=
  ((b.stage? id).bind (heard? · event)).any (Topic.isRefused b.settings)

/-- Which conversations have a complaint on its way, when some had one before an event. -/
def complains (b : Broker) (complaining : Nat → Bool) : Event → Nat → Bool
  | .tell id event =>
    match complaining id, event with
    | true, .sent _ => Function.update complaining id false
    | true, _ => complaining
    | false, event => Function.update complaining id (b.refusesAt id event)
  | _ => complaining

/-- What is left of an event without refused packets and complaints.  When a complaint cannot be
sent, the connection is broken, and that remains. -/
def remains (b : Broker) (complaining : Nat → Bool) : Event → Option Event
  | .tell id event =>
    match complaining id, event with
    | true, .sent (.error e) => some (.tell id (.received (.error e)))
    | true, _ => none
    | false, event => if b.refusesAt id event then none else some (.tell id event)
  | e => some e

/-- A run without its refused packets. -/
def prune (b : Broker) (complaining : Nat → Bool) : List Event → List Event
  | [] => []
  | e :: events =>
    (b.remains complaining e).toList ++ (b.step e).2.prune (b.complains complaining e) events

/-! ### Brokers that have refused something or not -/

/-- How a conversation with or without a complaint on its way compares with one in which nothing was
refused. -/
inductive StagesAlike (s : Settings) : Bool → Stage → Stage → Prop
  | same {stage : Stage} (fit : ∀ role p, stage = .asking role p → refuses s role p = false) :
      StagesAlike s false stage stage
  | complaining (role : Role) : StagesAlike s true (.answering role false) (.listening role)
  | ended {complaining : Bool} (result result' : Except ConnectionError Unit) :
      StagesAlike s complaining (.over result) (.over result')

structure TalksAlike (s : Settings) (complaining : Bool) (t t' : Talk) : Prop where
  id_eq : t'.id = t.id
  call_eq : t'.call = t.call
  stage : StagesAlike s complaining t.stage t'.stage

/-- Whether brokers differ at most in their conversations and in what they have counted. -/
structure Same (b b' : Broker) : Prop where
  settings : b'.settings = b.settings
  hub : b'.hub = b.hub
  cancelled : b'.cancelled = b.cancelled
  guests : b'.floor.guests = b.floor.guests
  limiter : b'.floor.limiter = b.floor.limiter
  nextId : b'.floor.nextId = b.floor.nextId

private theorem Same.refl (b : Broker) : Same b b := ⟨rfl, rfl, rfl, rfl, rfl, rfl⟩

private theorem Same.trans {b b' b'' : Broker} (h : Same b b') (h' : Same b' b'') : Same b b'' :=
  ⟨h'.settings.trans h.settings, h'.hub.trans h.hub, h'.cancelled.trans h.cancelled,
    h'.guests.trans h.guests, h'.limiter.trans h.limiter, h'.nextId.trans h.nextId⟩

private theorem Same.symm {b b' : Broker} (h : Same b b') : Same b' b :=
  ⟨h.settings.symm, h.hub.symm, h.cancelled.symm, h.guests.symm, h.limiter.symm, h.nextId.symm⟩

/-- A broker, and one to which nothing was sent that it refuses. -/
structure Alike (complaining : Nat → Bool) (b b' : Broker) : Prop where
  same : Same b b'
  talks : ∀ id, Option.Rel (TalksAlike b.settings (complaining id)) (b.talk? id) (b'.talk? id)
  old : ∀ id, complaining id → id < b.floor.nextId

variable {b b' d d' : Broker} {c : Nat → Bool} {id : Nat}

section Effects

/-- Whether an effect is one that neither the hub nor the books notice, but for what is counted. -/
private def IsQuiet : Conversation.Effect → Prop
  | .note _ | .send _ => True
  | _ => False

private theorem performAll_append (b : Broker) (id : Nat)
    (effects more : List Conversation.Effect) :
    b.performAll id (effects ++ more) =
      ((b.performAll id effects).1 ++ ((b.performAll id effects).2.performAll id more).1,
        ((b.performAll id effects).2.performAll id more).2) := by
  induction effects generalizing b with
  | nil => rfl
  | cons effect rest ih => simp only [List.cons_append, performAll, ih, List.append_assoc]

private theorem performAll_quiet (b : Broker) (id : Nat) {effects : List Conversation.Effect}
    (quiet : ∀ effect ∈ effects, IsQuiet effect) :
    Same b (b.performAll id effects).2 ∧ (b.performAll id effects).2.talks = b.talks := by
  induction effects generalizing b with
  | nil => exact ⟨.refl b, rfl⟩
  | cons effect rest ih =>
    have first : Same b (b.perform id effect).2 ∧ (b.perform id effect).2.talks = b.talks := by
      have noise := quiet effect List.mem_cons_self
      cases effect with
      | note | send => exact ⟨⟨rfl, rfl, rfl, rfl, rfl, rfl⟩, rfl⟩
      | introduce | consult | refuse | release => exact noise.elim
    have rest := ih (b.perform id effect).2 fun effect he =>
      quiet effect (List.mem_cons_of_mem _ he)
    exact ⟨first.1.trans rest.1, rest.2.trans first.2⟩

private theorem Alike.of_same (h : Alike c b b') (left : Same b d) (right : Same b' d')
    {c' : Nat → Bool}
    (talks : ∀ id, Option.Rel (TalksAlike b.settings (c' id)) (d.talk? id) (d'.talk? id))
    (old : ∀ id, c' id → id < b.floor.nextId) : Alike c' d d' where
  same := left.symm.trans (h.same.trans right)
  talks id := left.settings ▸ talks id
  old id complains := left.nextId ▸ old id complains

private theorem rel_map {α : Type} {r r' : α → α → Prop} {x y : Option α} {f g : α → α}
    (h : Option.Rel r x y) (keeps : ∀ a b, r a b → r' (f a) (g b)) :
    Option.Rel r' (x.map f) (y.map g) := by
  cases h with
  | some h => exact .some (keeps _ _ h)
  | none => exact .none

private theorem Alike.perform (h : Alike c b b') (id : Nat) (effect : Conversation.Effect) :
    (b'.perform id effect).1 = (b.perform id effect).1 ∧
      Alike c (b.perform id effect).2 (b'.perform id effect).2 := by
  cases effect with
  | note | send | refuse =>
    exact ⟨rfl, ⟨h.same.settings, h.same.hub, h.same.cancelled, h.same.guests, h.same.limiter,
      h.same.nextId⟩, h.talks, h.old⟩
  | introduce role clientId =>
    refine ⟨rfl, ⟨h.same.settings, h.same.hub, h.same.cancelled, ?_, h.same.limiter,
      h.same.nextId⟩, h.talks, h.old⟩
    exact congrArg (List.map _) h.same.guests
  | release =>
    refine ⟨rfl, ⟨h.same.settings, ?_, h.same.cancelled, h.same.guests, h.same.limiter,
      h.same.nextId⟩, h.talks, h.old⟩
    exact congrArg (fun hub => (hub.submit (.release id) none).2) h.same.hub
  | consult request wait =>
    refine ⟨rfl, ⟨h.same.settings, ?_, h.same.cancelled, h.same.guests, h.same.limiter,
      h.same.nextId⟩, fun other => ?_, h.old⟩
    · exact congrArg (fun hub => (hub.submit request wait).2) h.same.hub
    · rw [talk?_consult, talk?_consult, h.same.hub]
      refine rel_map (h.talks other) fun t t' alike => ?_
      split_ifs
      · exact ⟨alike.id_eq, rfl, alike.stage⟩
      · exact alike

private theorem Alike.performAll (h : Alike c b b') (id : Nat)
    (effects : List Conversation.Effect) :
    (b'.performAll id effects).1 = (b.performAll id effects).1 ∧
      Alike c (b.performAll id effects).2 (b'.performAll id effects).2 := by
  induction effects generalizing b b' with
  | nil => exact ⟨rfl, h⟩
  | cons effect rest ih =>
    obtain ⟨orders, first⟩ := h.perform id effect
    obtain ⟨others, rest⟩ := ih first
    exact ⟨congrArg₂ (· ++ ·) orders others, rest⟩

end Effects

section Conversations

variable {t t' : Talk} {event event' : Conversation.Event} {c' : Nat → Bool}

private theorem Alike.relabel (h : Alike c b b') (id : Nat) (left : Same b d) (right : Same b' d')
    (others : ∀ other, other ≠ id → c' other = c other ∧ d.talk? other = b.talk? other ∧
      d'.talk? other = b'.talk? other)
    (here : Option.Rel (TalksAlike b.settings (c' id)) (d.talk? id) (d'.talk? id))
    (old : c' id → id < b.floor.nextId) : Alike c' d d' := by
  refine h.of_same left right (fun other => ?_) fun other complains => ?_
  · by_cases same : other = id
    · exact same ▸ here
    · obtain ⟨flag, talk, talk'⟩ := others other same
      rw [flag, talk, talk']
      exact h.talks other
  · by_cases same : other = id
    · exact same ▸ old (same ▸ complains)
    · exact h.old other ((others other same).1 ▸ complains)

private theorem same_setTalk (b : Broker) (t : Talk) : Same b (b.setTalk t) :=
  ⟨rfl, rfl, rfl, rfl, rfl, rfl⟩

private theorem occur_quiet (found : b.talk? id = some t)
    (quiet : ∀ effect ∈ (Conversation.step b.settings id t.stage event).1, IsQuiet effect) :
    Same b (b.occur id event).2 ∧
      (∀ other, other ≠ id → (b.occur id event).2.talk? other = b.talk? other) ∧
      (b.occur id event).2.talk? id =
        some { t with stage := (Conversation.step b.settings id t.stage event).2 } := by
  let after : Talk := { t with stage := (Conversation.step b.settings id t.stage event).2 }
  obtain ⟨same, talks⟩ := performAll_quiet (b.setTalk after) id quiet
  have talk : ∀ other, (b.occur id event).2.talk? other = (b.setTalk after).talk? other := by
    intro other
    rw [occur_of_found found, talk?, talks, ← talk?]
  have here : after.id = id := show t.id = id from id_of_talk? found
  refine ⟨?_, fun other ne => ?_, ?_⟩
  · rw [occur_of_found found]
    exact (same_setTalk b after).trans same
  · rw [talk, talk?_setTalk, here]
    simp [ne]
  · rw [talk, talk?_setTalk, here, found]
    simpa [after] using id_of_talk? found

private theorem performAll_notes (b : Broker) (id : Nat) (notes : List Occasion) :
    (b.performAll id (notes.map .note)).1 = [] := by
  induction notes generalizing b with
  | nil => rfl
  | cons note notes ih => exact ih (b.perform id (.note note)).2

private theorem Alike.occur (h : Alike c b b') (found : b.talk? id = some t)
    (found' : b'.talk? id = some t') (others : ∀ other, other ≠ id → c' other = c other)
    (old : c' id → id < b.floor.nextId) {effects : List Conversation.Effect}
    {stage stage' : Stage} {notes : List Occasion}
    (step : Conversation.step b.settings id t.stage event = (effects, stage))
    (step' : Conversation.step b.settings id t'.stage event' = (notes.map .note ++ effects, stage'))
    (alike : StagesAlike b.settings (c' id) stage stage') (call_eq : t'.call = t.call) :
    (b'.occur id event').1 = (b.occur id event).1 ∧
      Alike c' (b.occur id event).2 (b'.occur id event').2 := by
  have here := id_of_talk? found
  have here' := id_of_talk? found'
  let after : Talk := { t with stage }
  let after' : Talk := { t' with stage := stage' }
  let noted := (b'.setTalk after').performAll id (notes.map .note)
  have quiet : ∀ effect ∈ notes.map Conversation.Effect.note, IsQuiet effect := by
    intro effect he
    obtain ⟨note, -, rfl⟩ := List.mem_map.mp he
    trivial
  obtain ⟨same, talks⟩ := performAll_quiet (b'.setTalk after') id quiet
  have talk : ∀ other, noted.2.talk? other = (b'.setTalk after').talk? other := by
    intro other
    rw [talk?, talks, ← talk?]
  have begun : Alike c' (b.setTalk after) noted.2 := by
    refine h.relabel id (same_setTalk b after) ((same_setTalk b' after').trans same)
      (fun other ne => ⟨others other ne, ?_, ?_⟩) ?_ old
    · rw [talk?_setTalk]
      simp [after, here, ne]
    · rw [talk, talk?_setTalk]
      simp [after', here', ne]
    · rw [talk, talk?_setTalk, talk?_setTalk, found, found']
      simp only [after, after', here, here', Option.map_some, if_true]
      exact .some ⟨rfl, call_eq, alike⟩
  obtain ⟨orders, done⟩ := begun.performAll id effects
  have left : b.occur id event = (b.setTalk after).performAll id effects := by
    rw [occur_of_found found, step]
  have right : b'.occur id event' =
      ((noted.2.performAll id effects).1, (noted.2.performAll id effects).2) := by
    rw [occur_of_found found', h.same.settings, step', performAll_append, performAll_notes,
      List.nil_append]
  rw [left, right]
  exact ⟨orders, done⟩

private theorem converse_ignored (found : b.talk? id = some t)
    (ignored : Conversation.step b.settings id t.stage event = ([], t.stage))
    (nothing : heard? t.stage event = none) :
    (b.converse id event).1 = [] ∧ Same b (b.converse id event).2 ∧
      ∀ other, (b.converse id event).2.talk? other = b.talk? other := by
  have silent : (b.occur id event).1 = [] := by
    rw [occur_of_found found, ignored]
    rfl
  have quiet : ∀ effect ∈ (Conversation.step b.settings id t.stage event).1, IsQuiet effect := by
    rw [ignored]
    exact fun _ none => absurd none List.not_mem_nil
  obtain ⟨same, others, here⟩ := occur_quiet found quiet
  refine ⟨?_, same, fun other => ?_⟩
  · simp [converse, stage?, found, entries, nothing, silent]
  · by_cases this : other = id
    · rw [this]
      show (b.occur id event).2.talk? id = b.talk? id
      rw [here, ignored, found]
    · exact others other this

theorem converse_of_absent (absent : b.talk? id = none) (event : Conversation.Event) :
    b.converse id event = ([], b) := by
  rw [converse, Broker.occur, absent, stage?, absent]
  rfl

private theorem Alike.converse (h : Alike c b b') (found : b.talk? id = some t)
    (found' : b'.talk? id = some t') (others : ∀ other, other ≠ id → c' other = c other)
    (old : c' id → id < b.floor.nextId) (stage_eq : t'.stage = t.stage)
    (call_eq : t'.call = t.call)
    (fit : ∀ role p, t.stage = .asking role p → refuses b.settings role p = false)
    (accepted : b.refusesAt id event = false)
    (alike : StagesAlike b.settings (c' id) (Conversation.step b.settings id t.stage event).2
      (Conversation.step b.settings id t.stage event).2) :
    (b'.converse id event).1 = (b.converse id event).1.filter (!·.isRefused b.settings) ∧
      Alike c' (b.converse id event).2 (b'.converse id event).2 := by
  have step' : Conversation.step b.settings id t'.stage event =
      (([] : List Occasion).map .note ++ (Conversation.step b.settings id t.stage event).1,
        (Conversation.step b.settings id t.stage event).2) := by
    rw [stage_eq]
    rfl
  obtain ⟨orders, after⟩ := h.occur found found' others old rfl step' alike call_eq
  refine ⟨?_, after⟩
  have unheard : (heard? t.stage event).any (Topic.isRefused b.settings) = false := by
    simpa [refusesAt, stage?, found] using accepted
  have untouched : (topic? t.stage event).any (Topic.isRefused b.settings) = false := by
    unfold topic?
    split
    · rename_i role p result asking
      exact fit role p asking
    · exact unheard
  have all : ∀ x ∈ (b.converse id event).1, (!x.isRefused b.settings) = true := by
    intro x hx
    simp only [Broker.converse, stage?, found, Option.map_some, Option.elim_some, entries,
      List.mem_append, List.mem_map] at hx
    rcases hx with ⟨topic, there, rfl⟩ | ⟨order, -, rfl⟩
    · rw [Option.mem_toList.mp there] at unheard
      simpa [Entry.isRefused, Entry.topic?] using unheard
    · simpa [Entry.isRefused, Entry.topic?] using untouched
  rw [List.filter_eq_self.mpr all]
  simp only [Broker.converse, stage?, found, found', Option.map_some, Option.elim_some, stage_eq,
    orders]

end Conversations

section Steps

variable {s : Settings} {role : Role} {p : Packet} {event : Conversation.Event}

theorem asking_of_step {stage : Stage} {id : Nat}
    (asks : (Conversation.step s id stage event).2 = .asking role p) :
    stage = .asking role p ∨ event = .received (.ok p) ∧
      ∃ request wait, Conversation.decide s id role p = .consult request wait := by
  cases stage with
  | asking role' p' =>
    cases event with
    | answered result => cases asks
    | greeted | received | sent | refused | cancelled => exact .inl asks
  | listening role' =>
    cases event with
    | received result =>
      cases result with
      | error e => cases e <;> cases asks
      | ok q =>
        simp only [Conversation.step, Conversation.hear] at asks
        split at asks
        · cases asks
        · cases asks
        · rename_i request wait consult
          obtain ⟨rfl, rfl⟩ := Stage.asking.inj asks
          exact .inr ⟨rfl, request, wait, consult⟩
        · cases asks
    | greeted | answered | sent | refused | cancelled => cases asks
  | greeting =>
    cases event with
    | greeted result => cases result <;> cases asks
    | received | answered | sent | refused | cancelled => cases asks
  | welcoming role' =>
    cases event with
    | sent result => cases result <;> cases asks
    | greeted | received | answered | refused | cancelled => cases asks
  | answering role' last =>
    cases event with
    | sent result => cases result <;> cases last <;> cases asks
    | greeted | received | answered | refused | cancelled => cases last <;> cases asks
  | dismissing | refusing | «over» => cases event <;> cases asks

private theorem fit_step {stage : Stage}
    (fit : ∀ role p, stage = .asking role p → refuses s role p = false) (id : Nat)
    (event : Conversation.Event) (role : Role) (p : Packet)
    (asks : (Conversation.step s id stage event).2 = .asking role p) :
    refuses s role p = false := by
  rcases asking_of_step asks with before | ⟨-, request, wait, consult⟩
  · exact fit role p before
  · exact (Conversation.allows_of_consult consult).1

private theorem step_refused (refused : refuses s role p) (id : Nat) :
    (∀ effect ∈ (Conversation.step s id (.listening role) (.received (.ok p))).1, IsQuiet effect) ∧
      (Conversation.step s id (.listening role) (.received (.ok p))).2 = .answering role false := by
  obtain ⟨q, decided⟩ := (Conversation.refuses_iff id).mp refused
  simp only [Conversation.step, Conversation.hear, decided, Conversation.reply]
  refine ⟨fun effect he => ?_, trivial⟩
  rcases List.mem_cons.mp he with rfl | he
  · trivial
  · rcases List.mem_append.mp he with he | he
    · obtain ⟨occasion, -, rfl⟩ := List.mem_map.mp he
      trivial
    · rw [List.mem_singleton.mp he]
      trivial

private theorem step_broken (s : Settings) (id : Nat) (role : Role) (e : ConnectionError) :
    ∃ (notes : List Occasion) (result : Except ConnectionError Unit),
      Conversation.step s id (.listening role) (.received (.error e)) =
        (notes.map .note ++ [.release], .over result) := by
  cases e with
  | malformed cause => exact ⟨[.protocolViolation], _, rfl⟩
  | _ => exact ⟨[], _, rfl⟩

private theorem complains_tell (b : Broker) (c : Nat → Bool) (id : Nat)
    (event : Conversation.Event) :
    (∀ other, other ≠ id → b.complains c (.tell id event) other = c other) ∧
      (b.complains c (.tell id event) id → c id ∨ b.refusesAt id event) := by
  cases flag : c id with
  | false => simp +contextual [complains, flag]
  | true => cases event <;> simp +contextual [complains, flag]

private theorem run_remains (b : Broker) (id : Nat)
    (unanswered : ∀ result, event ≠ .answered result) :
    b.run (some (Event.tell id event)).toList = b.converse id event := by
  simp only [Option.toList, run, step_tell b id unanswered, List.append_nil]

private theorem remains_tell (b : Broker) (c : Nat → Bool) (id : Nat)
    (unanswered : ∀ result, event ≠ .answered result) :
    b.remains c (.tell id event) = none ∨ ∃ event' : Conversation.Event,
      (∀ result, event' ≠ .answered result) ∧
        b.remains c (.tell id event) = some (.tell id event') := by
  cases flag : c id with
  | false =>
    simp only [remains, flag]
    split_ifs
    · exact .inl rfl
    · exact .inr ⟨event, unanswered, rfl⟩
  | true =>
    cases event with
    | sent result =>
      cases result with
      | ok _ => exact .inl (by simp [remains, flag])
      | error e => exact .inr ⟨.received (.error e), by simp, by simp [remains, flag]⟩
    | greeted | received | answered | refused | cancelled =>
      exact .inl (by simp [remains, flag])

end Steps

section Runs

variable {t : Talk} {event : Conversation.Event} {c' : Nat → Bool}

private theorem StagesAlike.cases {s : Settings} {flag : Bool} {stage stage' : Stage}
    (h : StagesAlike s flag stage stage') :
    (flag = false ∧ stage' = stage ∧
        ∀ role p, stage = .asking role p → refuses s role p = false) ∨
      (flag = true ∧ ∃ role, stage = .answering role false ∧ stage' = .listening role) ∨
      ∃ result result', stage = .over result ∧ stage' = .over result' := by
  cases h with
  | same fit => exact .inl ⟨rfl, rfl, fit⟩
  | complaining role => exact .inr (.inl ⟨rfl, role, rfl, rfl⟩)
  | ended result result' => exact .inr (.inr ⟨result, result', rfl, rfl⟩)

private theorem Alike.absent (h : Alike c b b') (found : b.talk? id = none) :
    b'.talk? id = none := by
  have rel := h.talks id
  rw [found] at rel
  generalize b'.talk? id = other at rel
  cases rel
  rfl

private theorem Alike.present (h : Alike c b b') (found : b.talk? id = some t) :
    ∃ t', b'.talk? id = some t' ∧ TalksAlike b.settings (c id) t t' := by
  have rel := h.talks id
  rw [found] at rel
  generalize b'.talk? id = other at rel
  cases rel with
  | some alike => exact ⟨_, rfl, alike⟩

/-- Whether two steps say the same but for refusals, and leave brokers alike. -/
def Agree (s : Settings) (c : Nat → Bool) (x x' : List Entry × Broker) : Prop :=
  x'.1 = x.1.filter (!·.isRefused s) ∧ Alike c x.2 x'.2

private def IsDone (b : Broker) (id : Nat) : Prop :=
  ∀ t, b.talk? id = some t → ∃ result, t.stage = .over result

private theorem IsDone.refusesAt (done : b.IsDone id) (event : Conversation.Event) :
    b.refusesAt id event = false := by
  rw [Broker.refusesAt, stage?]
  cases found : b.talk? id with
  | none => rfl
  | some t =>
    obtain ⟨result, stage⟩ := done t found
    simp [stage, heard?]

private theorem IsDone.converse (done : b.IsDone id) (event : Conversation.Event) :
    (b.converse id event).1 = [] ∧ Same b (b.converse id event).2 ∧
      ∀ other, (b.converse id event).2.talk? other = b.talk? other := by
  cases found : b.talk? id with
  | none =>
    rw [converse_of_absent found]
    exact ⟨rfl, .refl b, fun _ => rfl⟩
  | some t =>
    obtain ⟨result, stage⟩ := done t found
    have ignored : Conversation.step b.settings id t.stage event = ([], t.stage) := by
      rw [stage]
      exact Conversation.step_over result event
    have nothing : heard? t.stage event = none := by
      rw [stage]
      cases event <;> rfl
    exact converse_ignored found ignored nothing

private theorem Alike.isDone (h : Alike c b b') (done : b.IsDone id) : b'.IsDone id := by
  intro t' found'
  cases found : b.talk? id with
  | none =>
    rw [h.absent found] at found'
    cases found'
  | some t =>
    obtain ⟨u, there, alike⟩ := h.present found
    obtain rfl : u = t' := Option.some.inj (there.symm.trans found')
    obtain ⟨result, stage⟩ := done t found
    rcases alike.stage.cases with ⟨-, same, -⟩ | ⟨-, role, answering, -⟩ | ⟨-, result', -, stage'⟩
    · exact ⟨result, same.trans stage⟩
    · rw [stage] at answering
      cases answering
    · exact ⟨result', stage'⟩

private theorem Alike.tell_ended (h : Alike c b b')
    (unanswered : ∀ result, event ≠ .answered result) (done : b.IsDone id) :
    Agree b.settings (b.complains c (.tell id event)) (b.converse id event)
      (b'.run (b.remains c (.tell id event)).toList) := by
  have done' := h.isDone done
  obtain ⟨others, flagged⟩ := complains_tell b c id event
  obtain ⟨said, left, talks⟩ := done.converse event
  have still : (b'.run (b.remains c (.tell id event)).toList).1 = [] ∧
      Same b' (b'.run (b.remains c (.tell id event)).toList).2 ∧
      ∀ other, (b'.run (b.remains c (.tell id event)).toList).2.talk? other = b'.talk? other := by
    rcases remains_tell b c id unanswered with nothing | ⟨event', unanswered', something⟩
    · rw [nothing]
      exact ⟨rfl, .refl b', fun _ => rfl⟩
    · rw [something, run_remains b' id unanswered']
      exact done'.converse event'
  obtain ⟨said', right, talks'⟩ := still
  refine ⟨by rw [said, said']; rfl, h.relabel id left right
    (fun other ne => ⟨others other ne, talks other, talks' other⟩) ?_ fun now => ?_⟩
  · rw [talks, talks']
    cases found : b.talk? id with
    | none =>
      rw [h.absent found]
      exact .none
    | some t =>
      obtain ⟨t', found', alike⟩ := h.present found
      obtain ⟨result, stage⟩ := done t found
      obtain ⟨result', stage'⟩ := done' t' found'
      rw [found']
      refine .some ⟨alike.id_eq, alike.call_eq, ?_⟩
      rw [stage, stage']
      exact .ended result result'
  · rcases flagged now with before | refused
    · exact h.old id before
    · simp [done.refusesAt event] at refused

theorem converse_fst (found : b.talk? id = some t) (event : Conversation.Event) :
    (b.converse id event).1 = entries id t.stage event (b.occur id event).1 := by
  simp only [converse, stage?, found, Option.map_some, Option.elim_some]

section Complaining

variable {t' : Talk} {role : Role}

private theorem Alike.tell_complained (h : Alike c b b') (found : b.talk? id = some t)
    (found' : b'.talk? id = some t') (flag : c id = true)
    (stage : t.stage = .answering role false) (stage' : t'.stage = .listening role)
    (call_eq : t'.call = t.call) :
    Agree b.settings (b.complains c (.tell id (.sent (.ok ())))) (b.converse id (.sent (.ok ())))
      (b'.run (b.remains c (.tell id (.sent (.ok ())))).toList) := by
  obtain ⟨others, -⟩ := complains_tell b c id (.sent (.ok ()))
  have here : t'.id = t.id := (id_of_talk? found').trans (id_of_talk? found).symm
  have lowered : b.complains c (.tell id (.sent (.ok ()))) id = false := by
    simp [complains, flag]
  have nothing : b.remains c (.tell id (.sent (.ok ()))) = none := by
    simp [remains, flag]
  have step : Conversation.step b.settings id t.stage (.sent (.ok ())) = ([], .listening role) := by
    rw [stage]
    rfl
  have quiet : ∀ effect ∈ (Conversation.step b.settings id t.stage (.sent (.ok ()))).1,
      IsQuiet effect := by
    rw [step]
    exact fun _ none => absurd none List.not_mem_nil
  obtain ⟨same, talks, talk⟩ := occur_quiet found quiet
  have there : Option.Rel (TalksAlike b.settings (b.complains c (.tell id (.sent (.ok ()))) id))
      ((b.occur id (.sent (.ok ()))).2.talk? id) (b'.talk? id) := by
    rw [talk, found', lowered, step]
    refine .some ⟨here, call_eq, ?_⟩
    rw [stage']
    exact .same (by simp)
  rw [nothing]
  refine ⟨?_, h.relabel id same (.refl b')
    (fun other ne => ⟨others other ne, talks other ne, rfl⟩) there fun _ => h.old id flag⟩
  rw [converse_fst found, occur_of_found found, step, stage]
  rfl

private theorem Alike.tell_broken (h : Alike c b b') (found : b.talk? id = some t)
    (found' : b'.talk? id = some t') (flag : c id = true)
    (stage : t.stage = .answering role false) (stage' : t'.stage = .listening role)
    (call_eq : t'.call = t.call) (e : ConnectionError) :
    Agree b.settings (b.complains c (.tell id (.sent (.error e))))
      (b.converse id (.sent (.error e)))
      (b'.run (b.remains c (.tell id (.sent (.error e)))).toList) := by
  obtain ⟨others, -⟩ := complains_tell b c id (.sent (.error e))
  obtain ⟨notes, result, broken⟩ := step_broken b.settings id role e
  have step : Conversation.step b.settings id t.stage (.sent (.error e)) =
      ([.release], .over (.error e)) := by
    rw [stage]
    rfl
  have step' : Conversation.step b.settings id t'.stage (.received (.error e)) =
      (notes.map .note ++ [.release], .over result) := by
    rw [stage', broken]
  have something : b.remains c (.tell id (.sent (.error e))) =
      some (.tell id (.received (.error e))) := by
    simp [remains, flag]
  obtain ⟨orders, after⟩ := h.occur found found' others (fun _ => h.old id flag) step step'
    (.ended (.error e) result) call_eq
  have silent : (b.occur id (.sent (.error e))).1 = [] := by
    rw [occur_of_found found, step]
    rfl
  rw [something, run_remains b' id (by simp)]
  refine ⟨?_, after⟩
  rw [converse_fst found, converse_fst found', orders, silent, stage, stage']
  rfl

private theorem Alike.tell_meanwhile (h : Alike c b b') (found : b.talk? id = some t)
    (flag : c id = true) (stage : t.stage = .answering role false)
    (unsent : ∀ result, event ≠ .sent result) :
    Agree b.settings (b.complains c (.tell id event)) (b.converse id event)
      (b'.run (b.remains c (.tell id event)).toList) := by
  have ignored : Conversation.step b.settings id t.stage event = ([], t.stage) := by
    rw [stage]
    cases event with
    | sent result => exact absurd rfl (unsent result)
    | _ => rfl
  have unheard : heard? t.stage event = none := by
    rw [stage]
    cases event <;> rfl
  have same : b.complains c (.tell id event) = c ∧ b.remains c (.tell id event) = none := by
    cases event with
    | sent result => exact absurd rfl (unsent result)
    | _ => simp [complains, remains, flag]
  obtain ⟨said, left, talks⟩ := converse_ignored found ignored unheard
  rw [same.1, same.2]
  refine ⟨by rw [said]; rfl, h.of_same left (.refl b') (fun other => ?_) h.old⟩
  rw [talks]
  exact h.talks other

private theorem Alike.tell_refused (h : Alike c b b') (found : b.talk? id = some t)
    (found' : b'.talk? id = some t') (known : id < b.floor.nextId) (flag : c id = false)
    (stage : t.stage = .listening role) (stage_eq : t'.stage = t.stage) (call_eq : t'.call = t.call)
    {p : Packet} (refused : refuses b.settings role p) :
    Agree b.settings (b.complains c (.tell id (.received (.ok p))))
      (b.converse id (.received (.ok p)))
      (b'.run (b.remains c (.tell id (.received (.ok p)))).toList) := by
  obtain ⟨others, -⟩ := complains_tell b c id (.received (.ok p))
  have here : t'.id = t.id := (id_of_talk? found').trans (id_of_talk? found).symm
  have refusesAt : b.refusesAt id (.received (.ok p)) = true := by
    simpa [Broker.refusesAt, stage?, found, stage, heard?, Topic.isRefused] using refused
  have raised : b.complains c (.tell id (.received (.ok p))) id = true := by
    simp [complains, flag, refusesAt]
  have nothing : b.remains c (.tell id (.received (.ok p))) = none := by
    simp [remains, flag, refusesAt]
  obtain ⟨quiet, after⟩ := step_refused refused id
  rw [← stage] at quiet after
  obtain ⟨same, talks, talk⟩ := occur_quiet found quiet
  have there : Option.Rel
      (TalksAlike b.settings (b.complains c (.tell id (.received (.ok p))) id))
      ((b.occur id (.received (.ok p))).2.talk? id) (b'.talk? id) := by
    rw [talk, found', raised, after]
    refine .some ⟨here, call_eq, ?_⟩
    rw [stage_eq, stage]
    exact .complaining role
  rw [nothing]
  refine ⟨?_, h.relabel id same (.refl b')
    (fun other ne => ⟨others other ne, talks other ne, rfl⟩) there fun _ => known⟩
  have all : ∀ x ∈ (b.converse id (.received (.ok p))).1, ¬(!x.isRefused b.settings) = true := by
    intro x hx
    rw [converse_fst found, stage, entries] at hx
    have topic : x.topic? = some (some role, p) := by
      rcases List.mem_append.mp hx with hx | hx
      · obtain ⟨topic, there, rfl⟩ := List.mem_map.mp hx
        exact (Option.mem_toList.mp there).symm
      · obtain ⟨order, -, rfl⟩ := List.mem_map.mp hx
        rfl
    simpa [Entry.isRefused, topic, Topic.isRefused] using refused
  exact (List.filter_eq_nil_iff.mpr all).symm

end Complaining

private theorem of_refusesAt (found : b.talk? id = some t) (refused : b.refusesAt id event) :
    ∃ role p, t.stage = .listening role ∧ event = .received (.ok p) ∧
      refuses b.settings role p := by
  simp only [refusesAt, stage?, found, Option.map_some, Option.bind_some] at refused
  unfold heard? at refused
  split at refused
  · cases refused
  · rename_i role p listening
    exact ⟨role, p, listening, rfl, refused⟩
  · cases refused

private theorem Alike.tell_accepted (h : Alike c b b') (found : b.talk? id = some t) {t' : Talk}
    (found' : b'.talk? id = some t') (flag : c id = false) (stage_eq : t'.stage = t.stage)
    (call_eq : t'.call = t.call)
    (fit : ∀ role p, t.stage = .asking role p → refuses b.settings role p = false)
    (unanswered : ∀ result, event ≠ .answered result) (accepted : b.refusesAt id event = false) :
    Agree b.settings (b.complains c (.tell id event)) (b.converse id event)
      (b'.run (b.remains c (.tell id event)).toList) := by
  obtain ⟨others, -⟩ := complains_tell b c id event
  have lowered : b.complains c (.tell id event) id = false := by
    simp [complains, flag, accepted]
  have something : b.remains c (.tell id event) = some (.tell id event) := by
    simp [remains, flag, accepted]
  rw [something, run_remains b' id unanswered]
  refine h.converse found found' others (fun raised => ?_) stage_eq call_eq fit accepted ?_
  · simp [lowered] at raised
  · rw [lowered]
    exact .same (fit_step fit id event)

/-- Whatever a conversation is told, brokers stay alike. -/
theorem Alike.tell (h : Alike c b b') (numbered : b.Numbered)
    (unanswered : ∀ result, event ≠ .answered result) (id : Nat) :
    Agree b.settings (b.complains c (.tell id event)) (b.converse id event)
      (b'.run (b.remains c (.tell id event)).toList) := by
  by_cases done : b.IsDone id
  · exact h.tell_ended unanswered done
  · rw [IsDone] at done
    push Not at done
    obtain ⟨t, found, going⟩ := done
    obtain ⟨t', found', alike⟩ := h.present found
    have known : id < b.floor.nextId := numbered id t.stage (by rw [stage?, found]; rfl)
    rcases alike.stage.cases with ⟨flag, stage_eq, fit⟩ | ⟨flag, role, stage, stage'⟩ |
      ⟨result, -, stage, -⟩
    · by_cases refused : b.refusesAt id event = true
      · obtain ⟨role, p, stage, rfl, refuses⟩ := of_refusesAt found refused
        exact h.tell_refused found found' known flag stage stage_eq alike.call_eq refuses
      · exact h.tell_accepted found found' flag stage_eq alike.call_eq fit unanswered
          (by simpa using refused)
    · by_cases sends : ∃ result, event = .sent result
      · obtain ⟨result, rfl⟩ := sends
        cases result with
        | ok _ => exact h.tell_complained found found' flag stage stage' alike.call_eq
        | error e => exact h.tell_broken found found' flag stage stage' alike.call_eq e
      · exact h.tell_meanwhile found flag stage fun result same => sends ⟨result, same⟩
    · exact absurd stage (going result)

private theorem Alike.arrive (h : Alike c b b') :
    Agree b.settings c (b.step .arrive) (b'.step .arrive) := by
  have concat (talks : List Talk) (t : Talk) (id : Nat) : (talks ++ [t]).find? (·.id == id) =
      (talks.find? (·.id == id)).or (if t.id = id then some t else none) := by
    rw [List.find?_append, List.find?_singleton]
    simp
  cases entered : b.floor.limiter.enter with
  | mk result limiter =>
    have entered' : b'.floor.limiter.enter = (result, limiter) := by
      rw [h.same.limiter, entered]
    cases result with
    | error e =>
      simp only [step, Broker.arrive, Floor.arrive, entered, entered', h.same.nextId]
      refine ⟨rfl, ⟨h.same.settings, h.same.hub, h.same.cancelled, h.same.guests, rfl, rfl⟩,
        h.talks, fun id flag => Nat.lt_succ_of_lt (h.old id flag)⟩
    | ok u =>
      simp only [step, Broker.arrive, Floor.arrive, entered, entered', h.same.nextId]
      refine ⟨rfl, ⟨h.same.settings, h.same.hub, h.same.cancelled, ?_, rfl, rfl⟩, fun id => ?_,
        fun id flag => Nat.lt_succ_of_lt (h.old id flag)⟩
      · exact congrArg (· ++ [⟨b.floor.nextId, none, none⟩]) h.same.guests
      · rw [talk?, talk?, concat, concat, ← talk?, ← talk?]
        cases found : b.talk? id with
        | some t =>
          obtain ⟨t', found', alike⟩ := h.present found
          rw [found']
          exact .some alike
        | none =>
          rw [h.absent found, Option.none_or]
          split_ifs with here
          · -- No complaint is on its way to somebody who has only come.
            have flag : c id = false := by
              by_contra raised
              have young := h.old id (by simpa using raised)
              exact Nat.ne_of_gt young here
            rw [flag]
            exact .some ⟨rfl, rfl, .same (by simp)⟩
          · exact .none

private theorem fetch_eq (found : b.talk? id = some t) :
    b.fetch id = t.call.bind fun number =>
      ((b.hub.look number).desk.result? number).map fun result =>
        (result, (b.setTalk ⟨id, t.stage, none⟩).forget number) := by
  obtain ⟨there, stage, call⟩ := t
  rw [fetch, found]
  cases call <;> rfl

private theorem Alike.fetch (h : Alike c b b') (found : b.talk? id = some t) {t' : Talk}
    (found' : b'.talk? id = some t') (alike : StagesAlike b.settings (c id) t.stage t'.stage)
    (number : Nat) :
    Alike c ((b.setTalk ⟨id, t.stage, none⟩).forget number)
      ((b'.setTalk ⟨id, t'.stage, none⟩).forget number) where
  same := by
    refine ⟨h.same.settings, ?_, h.same.cancelled, h.same.guests, h.same.limiter, h.same.nextId⟩
    exact congrArg (fun hub => { hub with desk := hub.desk.forget number }) h.same.hub
  talks other := by
    show Option.Rel (TalksAlike b.settings (c other))
      ((b.setTalk ⟨id, t.stage, none⟩).talk? other) ((b'.setTalk ⟨id, t'.stage, none⟩).talk? other)
    rw [talk?_setTalk, talk?_setTalk]
    by_cases here : other = id
    · rw [here, found, found', Option.map_some, Option.map_some, if_pos rfl, if_pos rfl]
      exact .some ⟨rfl, rfl, alike⟩
    · refine rel_map (h.talks other) fun v v' alike => ?_
      rw [if_neg here, if_neg here]
      exact alike
  old := h.old

private theorem heard?_answered (stage : Stage) (result : Except BrokerError Answer) :
    heard? stage (.answered result) = none := by
  cases stage <;> rfl

private theorem refusesAt_answered (b : Broker) (id : Nat) (result : Except BrokerError Answer) :
    b.refusesAt id (.answered result) = false := by
  simp [refusesAt, heard?_answered]

private theorem Alike.answered (h : Alike c b b') (id : Nat) (result : Except BrokerError Answer) :
    Agree b.settings c (b.converse id (.answered result)) (b'.converse id (.answered result)) := by
  cases found : b.talk? id with
  | none =>
    rw [converse_of_absent found, converse_of_absent (h.absent found)]
    exact ⟨rfl, h⟩
  | some t =>
    obtain ⟨t', found', alike⟩ := h.present found
    have both (ignored : Conversation.step b.settings id t.stage (.answered result) = ([], t.stage))
        (ignored' : Conversation.step b.settings id t'.stage (.answered result) = ([], t'.stage)) :
        Agree b.settings c (b.converse id (.answered result))
          (b'.converse id (.answered result)) := by
      obtain ⟨said, left, talks⟩ := converse_ignored found ignored (heard?_answered t.stage result)
      rw [← h.same.settings] at ignored'
      obtain ⟨said', right, talks'⟩ :=
        converse_ignored found' ignored' (heard?_answered t'.stage result)
      refine ⟨by rw [said, said']; rfl, h.of_same left right (fun other => ?_) h.old⟩
      rw [talks, talks']
      exact h.talks other
    rcases alike.stage.cases with ⟨flag, stage_eq, fit⟩ | ⟨-, role, stage, stage'⟩ |
      ⟨result, result', stage, stage'⟩
    · refine h.converse found found' (fun _ _ => rfl) (h.old id) stage_eq alike.call_eq fit ?_ ?_
      · exact refusesAt_answered b id result
      · rw [flag]
        exact .same (fit_step fit id _)
    · refine both ?_ ?_
      · rw [stage]
        rfl
      · rw [stage']
        rfl
    · refine both ?_ ?_
      · rw [stage]
        rfl
      · rw [stage']
        rfl

private theorem Alike.answer (h : Alike c b b') (id : Nat) :
    Agree b.settings c (b.step (.answer id)) (b'.step (.answer id)) := by
  cases found : b.talk? id with
  | none =>
    simp only [step, Broker.fetch, found, h.absent found]
    exact ⟨rfl, h⟩
  | some t =>
    obtain ⟨t', found', alike⟩ := h.present found
    simp only [step, fetch_eq found, fetch_eq found', alike.call_eq, h.same.hub]
    cases called : t.call with
    | none => exact ⟨rfl, h⟩
    | some number =>
      cases answered : (b.hub.look number).desk.result? number with
      | none =>
        simp only [Option.bind_some, answered, Option.map_none]
        exact ⟨rfl, h⟩
      | some result =>
        simp only [Option.bind_some, answered, Option.map_some]
        exact (h.fetch found found' alike.stage number).answered id result

private theorem hub_depart (b : Broker) (id : Nat) :
    (b.depart id).hub =
      ((b.talk? id).bind (·.call)).elim b.hub fun number => (b.forget number).hub := by
  rw [depart]
  split
  · rename_i there number stage found
    rw [found]
    rfl
  · rename_i uncalled
    cases found : b.talk? id with
    | none => rfl
    | some t =>
      obtain ⟨there, stage, call⟩ := t
      cases call with
      | none => rfl
      | some number => exact absurd found (uncalled _ _ _)

private theorem Alike.calls (h : Alike c b b') (id : Nat) :
    (b'.talk? id).bind (·.call) = (b.talk? id).bind (·.call) := by
  cases found : b.talk? id with
  | none => rw [h.absent found]
  | some t =>
    obtain ⟨t', found', alike⟩ := h.present found
    rw [found']
    exact alike.call_eq

private theorem Alike.depart (h : Alike c b b') (id : Nat) :
    Alike c (b.depart id) (b'.depart id) := by
  have rest (b : Broker) : (b.depart id).settings = b.settings ∧
      (b.depart id).cancelled = b.cancelled ∧ (b.depart id).floor = b.floor.leave id := by
    rw [Broker.depart]
    split <;> exact ⟨rfl, rfl, rfl⟩
  obtain ⟨settings, cancelled, floor⟩ := rest b
  obtain ⟨settings', cancelled', floor'⟩ := rest b'
  refine ⟨⟨?_, ?_, ?_, ?_, ?_, ?_⟩, fun other => ?_, fun other flag => ?_⟩
  · rw [settings, settings', h.same.settings]
  · rw [hub_depart, hub_depart, h.calls, h.same.hub]
    cases (b.talk? id).bind (·.call) with
    | none => rfl
    | some number =>
      exact congrArg (fun hub => { hub with desk := hub.desk.forget number }) h.same.hub
  · rw [cancelled, cancelled', h.same.cancelled]
  · rw [floor, floor']
    exact congrArg (List.filter _) h.same.guests
  · rw [floor, floor']
    exact congrArg Limiter.release h.same.limiter
  · rw [floor, floor']
    exact h.same.nextId
  · rw [talk?_depart, talk?_depart, settings]
    split_ifs
    · exact .none
    · exact h.talks other
  · rw [floor]
    exact h.old other flag

private theorem Alike.atHub (h : Alike c b b') (f : Timeline → Timeline) :
    Alike c { b with hub := f b.hub } { b' with hub := f b'.hub } where
  same := ⟨h.same.settings, congrArg f h.same.hub, h.same.cancelled, h.same.guests,
    h.same.limiter, h.same.nextId⟩
  talks := h.talks
  old := h.old

private theorem Alike.step_other (h : Alike c b b') {e : Event}
    (untold : ∀ id event, e ≠ .tell id event) :
    Agree b.settings c (b.step e) (b'.step e) := by
  cases e with
  | arrive => exact h.arrive
  | answer id => exact h.answer id
  | depart id => exact ⟨rfl, h.depart id⟩
  | turn => exact ⟨rfl, h.atHub fun hub => hub.turn.2⟩
  | elapse now => exact ⟨rfl, h.atHub fun hub => { hub with now }⟩
  | cancel =>
    obtain ⟨⟨settings, hub, -, guests, limiter, nextId⟩, talks, old⟩ := h.atHub (·.stop)
    exact ⟨rfl, ⟨settings, hub, rfl, guests, limiter, nextId⟩, talks, old⟩
  | race event =>
    cases event with
    | submit => exact ⟨rfl, h⟩
    | work | tick | depart | collect | stop =>
      exact ⟨rfl, h.atHub fun hub => { hub with desk := ((Race.mk hub.desk [] []).step _).desk }⟩
  | tell id event => exact absurd rfl (untold id event)

private theorem Alike.step (h : Alike c b b') (numbered : b.Numbered) (e : Event) :
    Agree b.settings (b.complains c e) (b.step e) (b'.run (b.remains c e).toList) := by
  have single (e : Event) : b'.run (some e).toList = b'.step e := by
    simp only [Option.toList, run, List.append_nil]
  by_cases told : ∃ id event, e = .tell id event
  · obtain ⟨id, event, rfl⟩ := told
    rcases answered_or event with ⟨result, rfl⟩ | unanswered
    · have unrefused := refusesAt_answered b id result
      cases flag : c id with
      | true => simpa [remains, complains, flag] using ⟨rfl, h⟩
      | false =>
        have same : Function.update c id false = c := by
          rw [← flag, Function.update_eq_self]
        simpa [remains, complains, flag, unrefused, same, single] using ⟨rfl, h⟩
    · rw [step_tell b id unanswered]
      exact h.tell numbered unanswered id
  · have untold : ∀ id event, e ≠ .tell id event := fun id event same => told ⟨id, event, same⟩
    have whole : b.remains c e = some e ∧ b.complains c e = c := by
      cases e with
      | tell id event => exact absurd rfl (untold id event)
      | _ => exact ⟨rfl, rfl⟩
    rw [whole.1, whole.2, single]
    exact h.step_other untold

theorem Alike.run (h : Alike c b b') (numbered : b.Numbered) (events : List Event) :
    ∃ c', Agree b.settings c' (b.run events) (b'.run (b.prune c events)) := by
  -- Which complaints are on their way changes from step to step, and with it the relation.
  induction events generalizing b b' c with
  | nil => exact ⟨c, rfl, h⟩
  | cons e events ih =>
    obtain ⟨said, after⟩ := h.step numbered e
    obtain ⟨c', others, last⟩ := ih after (numbered_step numbered e)
    refine ⟨c', ?_, ?_⟩
    · rw [prune, run_append, Broker.run, said, others, (step_same b e).1, List.filter_append]
    · rw [prune, run_append]
      exact last

theorem alike_start (s : Settings) : Alike (fun _ => false) (start s) (start s) where
  same := .refl _
  talks _ := .none
  old _ raised := by cases raised

theorem numbered_start (s : Settings) : (start s).Numbered := fun _ _ there => by cases there

end Runs

end Broker
end WorkBroker
