import WorkBroker.Proofs.Broker.Encodable
/-!
What a broker says first, and when it says that something is too large.  Whatever happens to it, the
first packet on a connection is the welcome or a refusal, and a payload is complained about only if
it is above the limit of the broker.
-/

set_option autoImplicit false
set_option relaxedAutoImplicit false

namespace WorkBroker

namespace Conversation

variable {s : Settings} {id : Nat} {role : Role} {p : Packet} {stage : Stage} {event : Event}

def order? : Effect → Option Order
  | .send p => some (.send p)
  | .refuse reason => some (.refuse reason)
  | _ => none

def orders (s : Settings) (id : Nat) (stage : Stage) (event : Event) : List Order :=
  (step s id stage event).1.filterMap order?

private theorem send_of_mem_orders (mem : .send p ∈ orders s id stage event) :
    .send p ∈ (step s id stage event).1 := by
  obtain ⟨effect, there, same⟩ := List.mem_filterMap.mp mem
  cases effect with
  | send q =>
    obtain rfl := Order.send.inj (Option.some.inj same)
    exact there
  | refuse reason => cases same
  | note | introduce | consult | release => cases same

/-- Whether a packet may be the first one on a connection. -/
inductive IsOpening (s : Settings) (id : Nat) : Packet → Prop
  | welcome : IsOpening s id (welcome s id)
  | refusal (reason : RejectReason) : IsOpening s id (.rejected reason)

theorem validate_of_isOpening (opening : IsOpening s id p) (c : PacketCodec) :
    c.validate p = .ok () := by
  cases opening <;> rfl

private theorem opens_greeting (s : Settings) (id : Nat) (event : Event) :
    (∀ order ∈ orders s id .greeting event, IsOpening s id (Broker.packetOf order)) ∧
      (orders s id .greeting event = [] →
        (step s id .greeting event).2 = .greeting ∨ (step s id .greeting event).2.isOver) := by
  have nothing : ∀ order ∈ ([] : List Order), IsOpening s id (Broker.packetOf order) :=
    fun _ mem => absurd mem List.not_mem_nil
  cases event with
  | greeted result =>
    cases result with
    | error e => exact ⟨nothing, fun _ => .inr rfl⟩
    | ok hello => exact ⟨List.forall_mem_singleton.mpr .welcome, nofun⟩
  | cancelled => exact ⟨List.forall_mem_singleton.mpr (.refusal _), nofun⟩
  | received | sent | answered | refused => exact ⟨nothing, fun _ => .inl rfl⟩

private theorem opens_step (quiet : stage = .greeting ∨ stage.isOver) (event : Event) :
    (∀ order ∈ orders s id stage event, IsOpening s id (Broker.packetOf order)) ∧
      (orders s id stage event = [] →
        (step s id stage event).2 = .greeting ∨ (step s id stage event).2.isOver) := by
  rcases quiet with rfl | isOver
  · exact opens_greeting s id event
  · cases stage with
    | «over» result =>
      rw [orders, step_over]
      exact ⟨fun _ mem => absurd mem List.not_mem_nil, fun _ => .inr rfl⟩
    | _ => cases isOver

private theorem tooLarge_of_decide {text : String}
    (reply : decide s id role p = .reply (.error .messageTooLarge text)) :
    ∃ x priority delay payload, p = .push x priority delay payload ∧
      s.maxMessageSize.toNat < payload.length := by
  cases p with
  | push x priority delay payload =>
    cases role with
    | producer =>
      rw [decide] at reply
      split_ifs at reply with large
      exact ⟨x, priority, delay, payload, rfl, large⟩
    | consumer | monitor =>
      simp [decide, Packet.isFromClient, Packet.typeByte, Packet.ofError] at reply
  | _ =>
    cases role <;>
      simp [decide, Packet.isFromClient, Packet.typeByte, Packet.ofError] at reply

private theorem conclude_ne_tooLarge (request : Packet) (result : Except BrokerError Answer)
    (text : String) : (conclude request result).1 ≠ .error .messageTooLarge text := by
  cases result with
  | ok answer =>
    cases answer with
    | delivery found => cases found <;> simp [conclude, replyOf]
    | accepted | settled | stats | dropped | refused =>
      simp only [conclude, replyOf]
      cases request <;> simp [confirm]
    | _ => simp [conclude, replyOf]
  | error e =>
    cases e with
    | queue e => cases e <;> simp [conclude, Packet.ofError, QueueError.code]
    | _ => simp [conclude, Packet.ofError]

private theorem tooLarge_of_mem_orders {text : String}
    (mem : .send (.error .messageTooLarge text) ∈ orders s id stage event) :
    ∃ role x priority delay payload,
      Broker.topic? stage event = some (some role, .push x priority delay payload) ∧
        s.maxMessageSize.toNat < payload.length := by
  generalize said : Packet.error .messageTooLarge text = q at mem
  cases utters_of_mem rfl (send_of_mem_orders mem) with
  | welcome => cases said
  | complaint decided =>
    rw [← said] at decided
    obtain ⟨x, priority, delay, payload, rfl, large⟩ := tooLarge_of_decide decided
    exact ⟨_, x, priority, delay, payload, rfl, large⟩
  | dismissal => simp [Packet.ofError] at said
  | answer role p result => exact absurd said.symm (conclude_ne_tooLarge p result text)

end Conversation

namespace Broker

open Conversation (IsOpening orders order?)

variable {s : Settings} {b : Broker} {record : List Entry} {id : Nat}

theorem performAll_fst (b : Broker) (id : Nat) (effects : List Conversation.Effect) :
    (b.performAll id effects).1 = effects.filterMap order? := by
  induction effects generalizing b with
  | nil => rfl
  | cons effect rest ih =>
    have others := ih (b.perform id effect).2
    have first : (b.perform id effect).1 = [effect].filterMap order? := by cases effect <;> rfl
    rw [← List.singleton_append, List.filterMap_append, ← first, ← others]
    rfl

/-- What an event puts on record, and where conversations stand afterwards. -/
inductive Turns (b : Broker) : List Entry → Broker → Prop
  | aside {b' : Broker} (stages : ∀ id, b'.stage? id = b.stage? id ∨ b'.stage? id = none ∨
      id = b.floor.nextId ∧ b'.stage? id = some .greeting) : Turns b [] b'
  | turnedAway {b' : Broker} (next : b'.floor.nextId = b.floor.nextId + 1)
      (stages : ∀ id, b'.stage? id = b.stage? id) :
      Turns b [.said b.floor.nextId none (.refuse .admissionLimit)] b'
  | goesOn {b' : Broker} {id : Nat} {stage : Stage} {event : Conversation.Event}
      (there : b.stage? id = some stage)
      (now : b'.stage? id = some (Conversation.step b.settings id stage event).2)
      (others : ∀ other, other ≠ id → b'.stage? other = b.stage? other) :
      Turns b (entries id stage event (orders b.settings id stage event)) b'

private theorem turns_arrive (b : Broker) : Turns b (b.step .arrive).1 (b.step .arrive).2 := by
  have stages := talk?_arrive b
  obtain ⟨-, -, next, -⟩ := arrive_cases b
  have stays (id : Nat) (same : b.arrive.2.talk? id = b.talk? id) :
      b.arrive.2.stage? id = b.stage? id := by rw [stage?, same, stage?]
  have entered : b.step .arrive = ([], b.arrive.2) ∨
      b.step .arrive = ([.said b.floor.nextId none (.refuse .admissionLimit)], b.arrive.2) ∧
        b.arrive.2.talks = b.talks := by
    simp only [step, Broker.arrive, Floor.arrive]
    cases b.floor.limiter.enter with
    | mk result limiter =>
      cases result with
      | ok => exact .inl rfl
      | error e => exact .inr ⟨rfl, rfl⟩
  rcases entered with admitted | ⟨refused, talks⟩
  · rw [admitted]
    refine .aside fun id => ?_
    rcases stages id with same | ⟨-, here, there⟩
    · exact .inl (stays id same)
    · refine .inr (.inr ⟨here, ?_⟩)
      rw [stage?, there]
      rfl
  · rw [refused]
    refine .turnedAway next fun id => stays id ?_
    rw [talk?, talks, talk?]

private theorem turns_converse {d : Broker} (same : d.settings = b.settings)
    (stages : ∀ other, d.stage? other = b.stage? other) (id : Nat) (event : Conversation.Event) :
    Turns b (d.converse id event).1 (d.converse id event).2 := by
  cases found : d.talk? id with
  | none =>
    rw [converse_of_absent found]
    exact .aside fun other => .inl (stages other)
  | some t =>
    have here : d.stage? id = some t.stage := by rw [stage?, found, Option.map_some]
    have after (other : Nat) : (d.converse id event).2.stage? other = _ :=
      stage?_occur d id event other
    have said : (d.occur id event).1 = orders b.settings id t.stage event := by
      rw [occur_of_found found, performAll_fst, same, orders]
    rw [converse_fst found, said]
    refine .goesOn (stages id ▸ here) ?_ fun other ne => ?_
    · rw [after, here, Option.map_some, if_pos rfl, same]
    · rw [after, ← stages]
      simp [ne]

private theorem turns_step (b : Broker) (e : Event) : Turns b (b.step e).1 (b.step e).2 := by
  have still : Turns b [] b := .aside fun _ => .inl rfl
  cases e with
  | arrive => exact turns_arrive b
  | tell id event =>
    rcases answered_or event with ⟨result, rfl⟩ | unanswered
    · exact still
    · rw [step_tell b id unanswered]
      exact turns_converse rfl (fun _ => rfl) id event
  | answer id =>
    simp only [step]
    split
    · rename_i result d fetched
      exact turns_converse (fetch_same fetched).1 (stage?_fetch fetched) id _
    · exact still
  | depart id =>
    refine .aside fun other => ?_
    simp only [step, stage?, talk?_depart]
    split_ifs
    · exact .inr (.inl rfl)
    · exact .inl rfl
  | race event => cases event <;> exact .aside fun _ => .inl rfl
  | turn | elapse | cancel => exact .aside fun _ => .inl rfl

def Entry.word? (id : Nat) : Entry → Option Packet
  | .said other _ order => if other = id then some (packetOf order) else none
  | .heard _ _ => none

def words (id : Nat) (record : List Entry) : List Packet := record.filterMap (Entry.word? id)

private theorem words_append (id : Nat) (record more : List Entry) :
    words id (record ++ more) = words id record ++ words id more := List.filterMap_append

private theorem words_entries (id other : Nat) (stage : Stage) (event : Conversation.Event)
    (orders : List Order) : words id (entries other stage event orders) =
      if other = id then orders.map packetOf else [] := by
  have heard : words id ((heard? stage event).toList.map (.heard other)) = [] := by
    rw [words, List.filterMap_map]
    exact List.filterMap_eq_nil_iff.mpr fun _ _ => rfl
  rw [entries, words_append, heard, words, List.filterMap_map, List.nil_append]
  split_ifs with here
  · rw [← List.filterMap_eq_map]
    congr 1
    funext order
    exact if_pos here
  · exact List.filterMap_eq_nil_iff.mpr fun order _ => if_neg here

/-- What holds of the record of a run: every connection begins with an opening, and who has not had
it yet is not talked to. -/
structure Begun (s : Settings) (b : Broker) (record : List Entry) : Prop where
  settings_eq : b.settings = s
  numbered : b.Numbered
  later : ∀ id, b.floor.nextId ≤ id → words id record = []
  first : ∀ id p, (words id record).head? = some p → IsOpening s id p
  silent : ∀ id stage, b.stage? id = some stage → words id record = [] →
    stage = .greeting ∨ stage.isOver

private theorem Begun.step (h : Begun s b record) (e : Event) :
    Begun s (b.step e).2 (record ++ (b.step e).1) := by
  obtain ⟨settings, le⟩ := step_same b e
  have turns := turns_step b e
  have numbered := numbered_step h.numbered e
  generalize (b.step e).1 = new at turns ⊢
  generalize (b.step e).2 = b' at turns settings le numbered ⊢
  have settings_eq := settings.trans h.settings_eq
  have old (id : Nat) (beyond : b'.floor.nextId ≤ id) : words id record = [] :=
    h.later id (Nat.le_trans le beyond)
  cases turns with
  | aside stages =>
    rw [List.append_nil]
    refine ⟨settings_eq, numbered, old, h.first, fun id stage there => ?_⟩
    rcases stages id with same | none | ⟨-, greeting⟩
    · exact h.silent id stage (same ▸ there)
    · cases none.symm.trans there
    · exact fun _ => .inl (Option.some.inj (there.symm.trans greeting))
  | turnedAway next stages =>
    have said (id : Nat) : words id [.said b.floor.nextId none (.refuse .admissionLimit)] =
        if b.floor.nextId = id then [.rejected .admissionLimit] else [] := by
      by_cases here : b.floor.nextId = id <;> simp [words, Entry.word?, here, packetOf]
    refine ⟨settings_eq, numbered, fun id beyond => ?_, fun id p head => ?_,
      fun id stage there none => ?_⟩
    · rw [words_append, old id beyond, said, if_neg (by omega)]
      rfl
    · rw [words_append, List.head?_append, said] at head
      split_ifs at head with here
      · rw [h.later id (Nat.le_of_eq here)] at head
        obtain rfl := Option.some.inj head
        exact .refusal _
      · exact h.first id p (by simpa using head)
    · rw [words_append] at none
      exact h.silent id stage (stages id ▸ there) (List.append_eq_nil_iff.mp none).1
  | @goesOn _ talking stage event there now others =>
    rw [h.settings_eq] at now ⊢
    have young := h.numbered talking stage there
    refine ⟨settings_eq, numbered, fun id beyond => ?_, fun id p head => ?_,
      fun id stage' there' none => ?_⟩
    · rw [words_append, old id beyond, words_entries, if_neg (by omega)]
      rfl
    · rw [words_append, List.head?_append] at head
      cases before : words id record with
      | cons q rest =>
        rw [before] at head
        exact h.first id p (before ▸ head)
      | nil =>
        -- Only who has not had an opening is given his first packet.
        rw [before, words_entries] at head
        split_ifs at head with here
        · subst here
          have quiet := h.silent talking stage there before
          obtain ⟨order, mem, rfl⟩ := List.mem_map.mp (List.mem_of_mem_head? head)
          exact (Conversation.opens_step quiet event).1 order mem
        · cases head
    · rw [words_append, words_entries] at none
      obtain ⟨before, new⟩ := List.append_eq_nil_iff.mp none
      by_cases here : talking = id
      · subst here
        obtain rfl := Option.some.inj (there'.symm.trans now)
        rw [if_pos rfl, List.map_eq_nil_iff] at new
        exact (Conversation.opens_step (h.silent talking stage there before) event).2 new
      · exact h.silent id stage' (others id (Ne.symm here) ▸ there') before

private theorem Begun.run (h : Begun s b record) (events : List Event) :
    Begun s (b.run events).2 (record ++ (b.run events).1) := by
  induction events generalizing b record with
  | nil => rwa [run, List.append_nil]
  | cons e events ih =>
    rw [Broker.run, ← List.append_assoc]
    exact ih (h.step e)

private theorem begun_start (s : Settings) : Begun s (start s) [] where
  settings_eq := rfl
  numbered := numbered_start s
  later _ _ := rfl
  first _ _ none := by cases none
  silent _ _ there := by cases there

theorem isOpening_of_words {events : List Event} {p : Packet} {rest : List Packet}
    (said : words id ((start s).run events).1 = p :: rest) : IsOpening s id p := by
  have begun := (begun_start s).run events
  exact begun.first id p (by rw [List.nil_append, said, List.head?_cons])

/-- It is said that something is too large in answer to a message whose payload is above the limit,
and on no other occasion. -/
theorem tooLarge_of_said {events : List Event} {topic : Option Topic} {text : String}
    (said : .said id topic (.send (.error .messageTooLarge text)) ∈ ((start s).run events).1) :
    ∃ role x priority delay payload, topic = some (some role, .push x priority delay payload) ∧
      s.maxMessageSize.toNat < payload.length := by
  have all : ∀ (events : List Event) (b : Broker), b.settings = s →
      .said id topic (.send (.error .messageTooLarge text)) ∈ (b.run events).1 →
      ∃ role x priority delay payload, topic = some (some role, .push x priority delay payload) ∧
        s.maxMessageSize.toNat < payload.length := by
    intro events
    induction events with
    | nil => exact fun _ _ none => absurd none List.not_mem_nil
    | cons e events ih =>
      rintro b rfl said
      rcases List.mem_append.mp said with now | later
      · have now : .said id topic (.send (.error .messageTooLarge text)) ∈ (b.step e).1 := now
        have turns := turns_step b e
        generalize (b.step e).1 = new at turns now
        cases turns with
        | aside => cases now
        | turnedAway => cases List.mem_singleton.mp now
        | goesOn there =>
          rcases List.mem_append.mp now with heard | spoken
          · obtain ⟨_, -, same⟩ := List.mem_map.mp heard
            cases same
          · obtain ⟨order, mem, same⟩ := List.mem_map.mp spoken
            obtain ⟨-, rfl, rfl⟩ := Entry.said.inj same
            exact Conversation.tooLarge_of_mem_orders mem
      · exact ih _ (step_same b e).1 later
  exact all events (start s) rfl said

end Broker
end WorkBroker
