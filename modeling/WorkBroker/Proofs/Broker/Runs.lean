import WorkBroker.Proofs.Hub.Upkeep
/-!
Runs of a broker with any number of connections, and the record that they leave: the packets that
conversations deal with, and what they say.  Whoever sends, waits or leaves does so whenever he
likes; the hub works through its requests in whole turns, or piece by piece while callers turn away.
-/

set_option autoImplicit false
set_option relaxedAutoImplicit false

namespace WorkBroker

namespace Broker

inductive Event
  | arrive
  /-- Something other than an answer of the hub happens to the conversation on a connection. -/
  | tell (id : Nat) (event : Conversation.Event)
  /-- The conversation on a connection looks for the hub's answer. -/
  | answer (id : Nat)
  | depart (id : Nat)
  | turn
  | elapse (now : Instant)
  | cancel
  /-- The hub does a part of its work, or a caller turns away. -/
  | race (event : Race.Event)

/-- A packet, and the role of its sender as far as that is known when the packet comes. -/
abbrev Topic := Option Role × Packet

/-- The packet that a conversation is given by an event. -/
def heard? : Stage → Conversation.Event → Option Topic
  | .greeting, .greeted (.ok (role, clientId)) => some (none, .hello role clientId)
  | .listening role, .received (.ok p) => some (some role, p)
  | _, _ => none

/-- The packet that a conversation deals with when something happens to it. -/
def topic? : Stage → Conversation.Event → Option Topic
  | .asking role p, .answered _ => some (some role, p)
  | stage, event => heard? stage event

/-- An entry in the record of a run: a packet has come on a connection, or the broker says something
there and on what occasion. -/
inductive Entry
  | heard (id : Nat) (topic : Topic)
  | said (id : Nat) (topic : Option Topic) (order : Order)
  deriving DecidableEq

def Entry.topic? : Entry → Option Topic
  | .heard _ topic => some topic
  | .said _ topic _ => topic

def entries (id : Nat) (stage : Stage) (event : Conversation.Event) (orders : List Order) :
    List Entry :=
  (heard? stage event).toList.map (.heard id) ++ orders.map (.said id (topic? stage event))

def stage? (b : Broker) (id : Nat) : Option Stage := (b.talk? id).map (·.stage)

def converse (b : Broker) (id : Nat) (event : Conversation.Event) : List Entry × Broker :=
  let (orders, after) := b.occur id event
  ((b.stage? id).elim [] (entries id · event orders), after)

def atDesk (b : Broker) (desk : Desk) : Broker := { b with hub := { b.hub with desk } }

def step (b : Broker) : Event → List Entry × Broker
  | .arrive =>
    match b.arrive with
    | ((_, true), b) => ([], b)
    | ((id, false), b) => ([.said id none (.refuse .admissionLimit)], b)
  | .tell _ (.answered _) => ([], b)
  | .tell id event => b.converse id event
  | .answer id =>
    match b.fetch id with
    | some (result, b) => b.converse id (.answered result)
    | none => ([], b)
  | .depart id => ([], b.depart id)
  | .turn => ([], b.turn.2)
  | .elapse now => ([], b.elapse now)
  | .cancel => ([], b.cancel)
  | .race (.submit ..) => ([], b)
  | .race event => ([], b.atDesk ((Race.mk b.hub.desk [] []).step event).desk)

/-- A run: its record, and the broker afterwards. -/
def run (b : Broker) : List Event → List Entry × Broker
  | [] => ([], b)
  | e :: events =>
    let (first, b) := b.step e
    let (others, b) := b.run events
    (first ++ others, b)

def after (s : Settings) (events : List Event) : Broker := ((start s).run events).2

theorem run_append (b : Broker) (events more : List Event) :
    b.run (events ++ more) =
      ((b.run events).1 ++ ((b.run events).2.run more).1, ((b.run events).2.run more).2) := by
  induction events generalizing b with
  | nil => rfl
  | cons e events ih => simp only [List.cons_append, run, ih, List.append_assoc]

theorem after_concat (s : Settings) (events : List Event) (e : Event) :
    after s (events ++ [e]) = ((after s events).step e).2 := by
  rw [after, run_append]
  rfl

private theorem step_arrive (b : Broker) : (b.step .arrive).2 = b.arrive.2 := by
  simp only [step]
  split <;> rename_i arrived <;> rw [arrived]

theorem step_tell (b : Broker) (id : Nat) {event : Conversation.Event}
    (unanswered : ∀ result, event ≠ .answered result) :
    b.step (.tell id event) = b.converse id event := by
  cases event with
  | answered result => exact absurd rfl (unanswered result)
  | _ => rfl

theorem answered_or (event : Conversation.Event) :
    (∃ result, event = .answered result) ∨ ∀ result, event ≠ .answered result := by
  cases event with
  | answered result => exact .inl ⟨result, rfl⟩
  | greeted | received | sent | refused | cancelled => exact .inr (by simp)

section Talks

variable {b : Broker} {t : Talk} {id : Nat}

private theorem find?_mapTalks {talks : List Talk} {f : Talk → Talk} (same : ∀ t, (f t).id = t.id)
    (id : Nat) :
    (talks.map f).find? (·.id == id) = (talks.find? (·.id == id)).map f := by
  rw [List.find?_map]
  congr 2
  funext t
  simp [same]

theorem id_of_talk? (found : b.talk? id = some t) : t.id = id := (find?_talk found).1

theorem talk?_setTalk (b : Broker) (t : Talk) (id : Nat) :
    (b.setTalk t).talk? id = (b.talk? id).map fun u => if id = t.id then t else u := by
  have same : ∀ u : Talk, (if u.id == t.id then t else u).id = u.id := by
    intro u
    split_ifs with here
    · exact (eq_of_beq here).symm
    · rfl
  rw [talk?, setTalk, find?_mapTalks same, ← talk?]
  cases found : b.talk? id with
  | none => rfl
  | some u => simp [id_of_talk? found]

theorem talk?_consult (b : Broker) (id : Nat) (request : Request) (wait : Option Duration)
    (other : Nat) :
    (b.perform id (.consult request wait)).2.talk? other = (b.talk? other).map fun t =>
      if other = id then { t with call := some (b.hub.submit request wait).1 } else t := by
  let asks (t : Talk) : Talk :=
    if t.id == id then { t with call := some (b.hub.submit request wait).1 } else t
  have same : ∀ t, (asks t).id = t.id := by
    intro t
    dsimp only [asks]
    split_ifs <;> rfl
  show (b.talks.map asks).find? (·.id == other) = _
  rw [find?_mapTalks same, ← talk?]
  cases found : b.talk? other with
  | none => rfl
  | some t => simp [asks, id_of_talk? found]

theorem talk?_depart (b : Broker) (id other : Nat) :
    (b.depart id).talk? other = if other = id then none else b.talk? other := by
  have left : (b.talks.filter (·.id != id)).find? (·.id == other) =
      if other = id then none else b.talk? other := by
    rw [List.find?_filter]
    split_ifs with here
    · refine List.find?_eq_none.mpr fun t _ => ?_
      simp [here]
    · rw [talk?]
      congr 1
      funext t
      by_cases same : t.id = other
      · simp [same, here]
      · simp [same]
  rw [depart]
  split <;> exact left

theorem talk?_arrive (b : Broker) (id : Nat) :
    b.arrive.2.talk? id = b.talk? id ∨
      b.talk? id = none ∧ id = b.floor.nextId ∧
        b.arrive.2.talk? id = some ⟨id, .greeting, none⟩ := by
  rw [Broker.arrive, Floor.arrive]
  cases b.floor.limiter.enter with
  | mk result limiter =>
    cases result with
    | error e => exact .inl rfl
    | ok _ =>
      simp only [talk?, List.find?_append, List.find?_singleton]
      cases found : b.talks.find? (·.id == id) with
      | some t => exact .inl rfl
      | none =>
        by_cases here : b.floor.nextId = id
        · exact .inr ⟨rfl, here.symm, by simp [here]⟩
        · exact .inl (by simp [here])

private theorem stage?_performAll (b : Broker) (id : Nat) (effects : List Conversation.Effect)
    (other : Nat) :
    (b.performAll id effects).2.stage? other = b.stage? other := by
  induction effects generalizing b with
  | nil => rfl
  | cons effect rest ih =>
    rw [performAll, ih]
    cases effect with
    | consult request wait =>
      rw [stage?, talk?_consult, stage?, Option.map_map]
      congr 1
      funext t
      dsimp only [Function.comp_apply]
      split_ifs <;> rfl
    | _ => rfl

theorem occur_of_found (found : b.talk? id = some t) (event : Conversation.Event) :
    b.occur id event =
      (b.setTalk { t with stage := (Conversation.step b.settings id t.stage event).2 }).performAll
        id (Conversation.step b.settings id t.stage event).1 := by
  rw [occur, found]

/-- Only the conversation that something happens to goes on. -/
theorem stage?_occur (b : Broker) (id : Nat) (event : Conversation.Event) (other : Nat) :
    (b.occur id event).2.stage? other = (b.stage? other).map fun stage =>
      if other = id then (Conversation.step b.settings id stage event).2 else stage := by
  cases found : b.talk? id with
  | none =>
    rw [occur, found]
    by_cases here : other = id
    · rw [here, stage?, found]
      rfl
    · simp [here]
  | some t =>
    rw [occur_of_found found, stage?_performAll, stage?, talk?_setTalk, stage?]
    by_cases here : other = id
    · simp [here, found, id_of_talk? found]
    · simp [here, id_of_talk? found, Function.comp_def]

end Talks

section Steps

variable {b : Broker} {id : Nat}

inductive Brings (id : Nat) : Event → Conversation.Event → Prop
  | tell {event : Conversation.Event} (unanswered : ∀ result, event ≠ .answered result) :
      Brings id (.tell id event) event
  | answer (result : Except BrokerError Answer) : Brings id (.answer id) (.answered result)

theorem stage?_fetch {result : Except BrokerError Answer} {b' : Broker}
    (fetched : b.fetch id = some (result, b')) (other : Nat) :
    b'.stage? other = b.stage? other := by
  rw [fetch] at fetched
  split at fetched
  · rename_i here stage number found
    obtain ⟨_, -, same⟩ := Option.map_eq_some_iff.mp fetched
    obtain ⟨-, rfl⟩ := Prod.mk.inj same
    show (b.setTalk ⟨id, stage, none⟩).stage? other = b.stage? other
    rw [stage?, talk?_setTalk, stage?, Option.map_map]
    by_cases this : other = id
    · simp [this, found]
    · simp [this, Function.comp_def]
  · cases fetched

theorem fetch_same {result : Except BrokerError Answer} {b' : Broker}
    (fetched : b.fetch id = some (result, b')) :
    b'.settings = b.settings ∧ b'.floor = b.floor := by
  rw [fetch] at fetched
  split at fetched
  · obtain ⟨_, -, same⟩ := Option.map_eq_some_iff.mp fetched
    obtain ⟨-, rfl⟩ := Prod.mk.inj same
    exact ⟨rfl, rfl⟩
  · cases fetched

private theorem occur_same (b : Broker) (id : Nat) (event : Conversation.Event) :
    (b.occur id event).2.settings = b.settings ∧
      (b.occur id event).2.floor.nextId = b.floor.nextId := by
  cases found : b.talk? id with
  | none =>
    rw [occur, found]
    exact ⟨rfl, rfl⟩
  | some t =>
    rw [occur_of_found found]
    obtain ⟨-, nextId, settings⟩ := performAll_same
      (b.setTalk { t with stage := (Conversation.step b.settings id t.stage event).2 }) id
      (Conversation.step b.settings id t.stage event).1
    exact ⟨settings, nextId⟩

theorem step_same (b : Broker) (e : Event) :
    (b.step e).2.settings = b.settings ∧ b.floor.nextId ≤ (b.step e).2.floor.nextId := by
  cases e with
  | arrive =>
    obtain ⟨settings, -, nextId, -⟩ := arrive_cases b
    rw [step_arrive, nextId]
    exact ⟨settings, Nat.le_succ b.floor.nextId⟩
  | tell id event =>
    obtain ⟨settings, nextId⟩ := occur_same b id event
    cases event with
    | answered => exact ⟨rfl, Nat.le_refl _⟩
    | _ => exact ⟨settings, Nat.le_of_eq nextId.symm⟩
  | answer id =>
    simp only [step]
    split
    · rename_i result b' fetched
      obtain ⟨settings, floor⟩ := fetch_same fetched
      obtain ⟨settings', nextId⟩ := occur_same b' id (.answered result)
      exact ⟨settings'.trans settings, Nat.le_of_eq (by rw [← floor]; exact nextId.symm)⟩
    · exact ⟨rfl, Nat.le_refl _⟩
  | depart id =>
    obtain ⟨settings, nextId, -⟩ := depart_same b id
    exact ⟨settings, Nat.le_of_eq nextId.symm⟩
  | race event => cases event <;> exact ⟨rfl, Nat.le_refl _⟩
  | turn | elapse | cancel => exact ⟨rfl, Nat.le_refl _⟩

/-- How a conversation comes to stand where it stands after an event. -/
theorem stage_step {e : Event} {stage' : Stage} (h : (b.step e).2.stage? id = some stage') :
    (b.stage? id = some stage' ∧
        ∀ event, (∀ result, event ≠ .answered result) → e ≠ .tell id event) ∨
      (b.stage? id = none ∧ stage' = .greeting ∧ e = .arrive ∧ id = b.floor.nextId ∧
        (b.step e).2.floor.nextId = id + 1) ∨
      ∃ event stage, Brings id e event ∧ b.stage? id = some stage ∧
        stage' = (Conversation.step b.settings id stage event).2 := by
  -- An answer is first fetched and then told, so this is about a broker that may differ in its hub.
  have told {d : Broker} (same : d.settings = b.settings)
      (stages : ∀ other, d.stage? other = b.stage? other) {other : Nat}
      {event : Conversation.Event} (brings : Brings other e event)
      (after : (d.occur other event).2.stage? id = some stage') :
      (b.stage? id = some stage' ∧
          ∀ event, (∀ result, event ≠ .answered result) → e ≠ .tell id event) ∨
        ∃ event stage, Brings id e event ∧ b.stage? id = some stage ∧
          stage' = (Conversation.step b.settings id stage event).2 := by
    rw [stage?_occur, stages, same] at after
    obtain ⟨stage, before, rfl⟩ := Option.map_eq_some_iff.mp after
    split_ifs with here
    · exact .inr ⟨event, stage, here ▸ brings, before, by rw [here]⟩
    · refine .inl ⟨before, fun event' _ told => ?_⟩
      rw [told] at brings
      cases brings
      exact here rfl
  cases e with
  | arrive =>
    obtain ⟨-, -, next, -⟩ := arrive_cases b
    rw [step_arrive] at h ⊢
    rcases talk?_arrive b id with same | ⟨absent, here, there⟩
    · rw [stage?, same] at h
      exact .inl ⟨h, by simp⟩
    · rw [stage?, there] at h
      refine .inr (.inl ⟨?_, (Option.some.inj h).symm, rfl, here, here ▸ next⟩)
      rw [stage?, absent]
      rfl
  | tell other event =>
    cases event with
    | answered result =>
      refine .inl ⟨h, fun event unanswered told => ?_⟩
      cases told
      exact unanswered result rfl
    | greeted | received | sent | refused | cancelled =>
      exact (told rfl (fun _ => rfl) (.tell (by simp)) h).imp_right .inr
  | answer other =>
    simp only [step] at h
    split at h
    · rename_i result d fetched
      exact (told (fetch_same fetched).1 (stage?_fetch fetched) (.answer result) h).imp_right .inr
    · exact .inl ⟨h, by simp⟩
  | depart other =>
    rw [step, stage?, talk?_depart] at h
    split_ifs at h with here
    · cases h
    · exact .inl ⟨h, by simp⟩
  | race event => cases event <;> exact .inl ⟨h, by simp⟩
  | turn | elapse | cancel => exact .inl ⟨h, by simp⟩

def Numbered (b : Broker) : Prop := ∀ id stage, b.stage? id = some stage → id < b.floor.nextId

theorem numbered_step (h : b.Numbered) (e : Event) : (b.step e).2.Numbered := by
  intro id stage there
  obtain ⟨-, le⟩ := step_same b e
  rcases stage_step there with ⟨before, -⟩ | ⟨-, -, -, -, next⟩ | ⟨event, before, -, known, -⟩
  · exact Nat.lt_of_lt_of_le (h id stage before) le
  · omega
  · exact Nat.lt_of_lt_of_le (h id before known) le

end Steps

section Rules

open Conversation (command? commands)

variable {b : Broker} {R : Rule} {n : Nat} {id : Nat}

def IsNew (c : Call) : Prop := c.state = .pending ∨ c.state = .finished (.error .shuttingDown)

private theorem holds_submit {d : Desk} (h : R.Holds n d) {request : Request}
    (fits : ∀ c : Call, c.number = n → c.request = request → IsNew c → R.call c)
    (wait : Option Duration) (now : Instant) :
    R.Holds (n + 1) (d.submit request wait now).2 where
  queue := h.queue
  calls c hc := by
    rcases List.mem_append.mp hc with hc | hc
    · exact h.calls c hc
    · rw [List.mem_singleton.mp hc]
      refine fits _ h.next rfl ?_
      dsimp only [IsNew]
      split_ifs
      · exact .inr rfl
      · exact .inl rfl
  next := congrArg (· + 1) h.next

private theorem holds_performAll (h : R.Holds n b.hub.desk) (id : Nat)
    (effects : List Conversation.Effect)
    (fits : ∀ x ∈ effects.filterMap (command? id), ∀ c : Call, n ≤ c.number →
      c.number < n + (effects.filterMap (command? id)).length → c.request = x.request → IsNew c →
        R.call c) :
    R.Holds (n + (effects.filterMap (command? id)).length)
      (b.performAll id effects).2.hub.desk := by
  -- Every effect that sends a command uses up one number, so the next number goes along.
  induction effects generalizing b n with
  | nil => exact h
  | cons effect rest ih =>
    cases sends : command? id effect with
    | none =>
      rw [List.filterMap_cons_none sends] at fits ⊢
      have same : (b.perform id effect).2.hub = b.hub := by
        cases effect with
        | consult | release => cases sends
        | note | introduce | send | refuse => rfl
      rw [← same] at h
      exact ih h fits
    | some x =>
      rw [List.filterMap_cons_some sends, List.length_cons] at fits ⊢
      have first : R.Holds (n + 1) (b.perform id effect).2.hub.desk := by
        have fits : ∀ c : Call, c.number = n → c.request = x.request → IsNew c → R.call c :=
          fun c number => fits x List.mem_cons_self c (by omega) (by omega)
        cases effect with
        | consult request wait =>
          cases sends
          exact holds_submit h fits wait b.hub.now
        | release =>
          cases sends
          exact holds_submit h fits none b.hub.now
        | note | introduce | send | refuse => cases sends
      have others := ih first fun y hy c le lt =>
        fits y (List.mem_cons_of_mem _ hy) c (by omega) (by omega)
      rw [Nat.add_right_comm] at others
      exact others

private theorem nextCall_performAll (b : Broker) (id : Nat) (effects : List Conversation.Effect) :
    (b.performAll id effects).2.hub.desk.nextCall =
      b.hub.desk.nextCall + (effects.filterMap (command? id)).length := by
  have any : (Rule.ofCalls fun _ _ => True).Holds b.hub.desk.nextCall b.hub.desk :=
    ⟨trivial, fun _ _ => trivial, rfl⟩
  exact (holds_performAll any id effects fun _ _ _ _ _ _ _ => trivial).next

private theorem holds_occur (h : R.Holds n b.hub.desk) (id : Nat) (event : Conversation.Event)
    (fits : ∀ stage, b.stage? id = some stage → ∀ x ∈ commands b.settings id stage event,
      ∀ c : Call, n ≤ c.number → c.number < (b.occur id event).2.hub.desk.nextCall →
        c.request = x.request → IsNew c → R.call c) :
    ∃ m, n ≤ m ∧ R.Holds m (b.occur id event).2.hub.desk := by
  cases found : b.talk? id with
  | none =>
    rw [occur, found]
    exact ⟨n, Nat.le_refl n, h⟩
  | some t =>
    have here : b.stage? id = some t.stage := by
      rw [stage?, found]
      rfl
    let after := b.setTalk { t with stage := (Conversation.step b.settings id t.stage event).2 }
    have next : after.hub.desk.nextCall = n := h.next
    have count := nextCall_performAll after id (Conversation.step b.settings id t.stage event).1
    rw [occur_of_found found, count, next] at fits
    rw [occur_of_found found]
    exact ⟨_, Nat.le_add_right n _, holds_performAll (b := after) h id _ (fits t.stage here)⟩

theorem commands_answered (s : Settings) (id : Nat) (stage : Stage)
    (result : Except BrokerError Answer) : commands s id stage (.answered result) = [] := by
  cases stage with
  | asking role request => exact Conversation.filterMap_command_reply role _ _
  | answering role last => cases last <;> rfl
  | _ => rfl

theorem holds_fetch (h : R.Holds n b.hub.desk) {result : Except BrokerError Answer} {b' : Broker}
    (fetched : b.fetch id = some (result, b')) : R.Holds n b'.hub.desk := by
  rw [fetch] at fetched
  split at fetched
  · rename_i here stage number found
    obtain ⟨_, -, same⟩ := Option.map_eq_some_iff.mp fetched
    obtain ⟨-, rfl⟩ := Prod.mk.inj same
    exact h.forget number
  · cases fetched

theorem holds_step (lasts : R.Lasts) (h : R.Holds n b.hub.desk) (e : Event)
    (fits : ∀ id event stage, e = .tell id event → b.stage? id = some stage →
      ∀ x ∈ commands b.settings id stage event, ∀ c : Call, n ≤ c.number →
        c.number < (b.step e).2.hub.desk.nextCall → c.request = x.request → IsNew c →
          R.call c) :
    ∃ m, n ≤ m ∧ R.Holds m (b.step e).2.hub.desk := by
  have still {d : Desk} (h : R.Holds n d) : ∃ m, n ≤ m ∧ R.Holds m d := ⟨n, Nat.le_refl n, h⟩
  cases e with
  | arrive =>
    obtain ⟨-, hub, -⟩ := arrive_cases b
    rw [step_arrive, hub]
    exact still h
  | tell id event =>
    rcases answered_or event with ⟨result, rfl⟩ | unanswered
    · exact still h
    · rw [step_tell b id unanswered] at fits ⊢
      exact holds_occur h id event fun stage there => fits id event stage rfl there
  | answer id =>
    simp only [step]
    split
    · rename_i result d fetched
      refine holds_occur (holds_fetch h fetched) id (.answered result) fun stage _ x hx => ?_
      rw [commands_answered] at hx
      cases hx
    · exact still h
  | depart id =>
    rw [step, depart]
    split
    · exact still (h.forget _)
    · exact still h
  | turn => exact still (h.turn lasts)
  | elapse now => exact still h
  | cancel =>
    have stopped : R.Holds n { b.hub with desk := b.hub.desk.stop }.desk := h.stop lasts
    exact still (stopped.settle lasts)
  | race event =>
    cases event with
    | submit => exact still h
    | work | tick | depart | collect | stop =>
      exact still (Rule.Holds.race lasts (x := ⟨b.hub.desk, [], []⟩) h _ (by simp))

theorem nextCall_le_step (b : Broker) (e : Event) :
    b.hub.desk.nextCall ≤ (b.step e).2.hub.desk.nextCall := by
  have any : (Rule.ofCalls fun _ _ => True).Holds b.hub.desk.nextCall b.hub.desk :=
    ⟨trivial, fun _ _ => trivial, rfl⟩
  obtain ⟨m, le, after⟩ := holds_step (Rule.lasts_ofCalls _) any e fun _ _ _ _ _ _ _ _ _ _ _ _ =>
    trivial
  rw [after.next]
  exact le

end Rules

end Broker
end WorkBroker
