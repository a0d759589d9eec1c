import WorkBroker.Net.Service
import WorkBroker.Proofs.Broker.Doorway
import WorkBroker.Proofs.Broker.Runs
/-!
Who attends a service.  Sockets are accepted, lines go on, time passes and the broker shuts down, in
any order and over any links, so that a line may end in any way: its conversation is over, or it is
let go of when the grace of a shutdown has run out.  All that this means to the books happens at a
doorway (`Attended`), where every line has a guard, and where the books are kept.  A line is let go
of as soon as its conversation is over (`Engaged`).
-/

set_option autoImplicit false
set_option relaxedAutoImplicit false

namespace WorkBroker

namespace Conversation

private def Effect.isPlain : Effect → Bool
  | .note occasion => occasion.isTraffic
  | _ => true

private theorem plain_reply (role : Role) (p : Packet) (last : Bool) :
    (reply role p last).1.all Effect.isPlain := by
  cases p with
  | error code message => cases code <;> rfl
  | _ => rfl

private theorem plain_hear (s : Settings) (owner : Nat) (role : Role) (p : Packet) :
    (hear s owner role p).1.all Effect.isPlain := by
  rw [hear]
  cases decide s owner role p with
  | reply q => exact plain_reply role q false
  | part | consult | dismiss => rfl

private theorem plain_hearNothing (e : ConnectionError) : (hearNothing e).1.all Effect.isPlain := by
  cases e <;> rfl

private theorem plain_step (s : Settings) (owner : Nat) (stage : Stage) (event : Event) :
    (step s owner stage event).1.all Effect.isPlain := by
  cases stage with
  | greeting =>
    cases event with
    | greeted result => cases result <;> rfl
    | received | sent | answered | refused | cancelled => rfl
  | welcoming role =>
    cases event with
    | sent result => cases result <;> rfl
    | greeted | received | answered | refused | cancelled => rfl
  | listening role =>
    cases event with
    | received result =>
      cases result with
      | error e => exact plain_hearNothing e
      | ok p => exact plain_hear s owner role p
    | greeted | sent | answered | refused | cancelled => rfl
  | asking role p =>
    cases event with
    | answered result => exact plain_reply role (conclude p result).1 (conclude p result).2
    | greeted | received | sent | refused | cancelled => rfl
  | answering role last =>
    cases event with
    | sent result => cases result <;> cases last <;> rfl
    | greeted | received | answered | refused | cancelled => cases last <;> rfl
  | dismissing | refusing | «over» => cases event <;> rfl

end Conversation

/-- Whether events at a doorway lead to some books, with guards of which none is being dropped. -/
def Doorway.Attended (n : Nat) (floor : Floor) (ids : List Nat) : Prop :=
  ∃ events refused, (Doorway.ofLimit n).run events = ⟨floor, ids, [], [], refused⟩

namespace Doorway.Attended

variable {n : Nat} {floor : Floor} {ids : List Nat}

private theorem ofLimit (n : Nat) : Attended n (.ofLimit n) [] := ⟨[], [], rfl⟩

private theorem kept (h : Attended n floor ids) :
    ∃ refused, Kept n ⟨floor, ids, [], [], refused⟩ := by
  obtain ⟨events, refused, same⟩ := h
  exact ⟨refused, same ▸ kept_after n events⟩

private theorem nodup (h : Attended n floor ids) : ids.Nodup := by
  obtain ⟨_, k⟩ := h.kept
  exact k.nodup

private theorem fresh (h : Attended n floor ids) : floor.nextId ∉ ids := by
  obtain ⟨_, k⟩ := h.kept
  exact fun mem => Nat.lt_irrefl _ (k.known _ mem)

private theorem books (h : Attended n floor ids) :
    floor.limiter.active = ids.length ∧ floor.registry = ids := by
  obtain ⟨_, k⟩ := h.kept
  refine ⟨?_, k.registry⟩
  have active := k.active
  rwa [length_guards] at active

private theorem next (h : Attended n floor ids) {floor' : Floor} {ids' : List Nat}
    (events : List Event) (leads : ∀ refused, ∃ refused',
      (Doorway.mk floor ids [] [] refused).run events = ⟨floor', ids', [], [], refused'⟩) :
    Attended n floor' ids' := by
  obtain ⟨before, refused, same⟩ := h
  obtain ⟨refused', after⟩ := leads refused
  exact ⟨before ++ events, refused', by rw [run_append, same, after]⟩

private theorem note (h : Attended n floor ids) {occasion : Occasion}
    (traffic : occasion.isTraffic) :
    Attended n (floor.note occasion) ids :=
  h.next [.note occasion] fun refused =>
    ⟨refused, by simp only [run, List.foldl_cons, List.foldl_nil, step, if_pos traffic]⟩

private theorem introduce (h : Attended n floor ids) (id : Nat) (role : Role) (clientId : String) :
    Attended n (floor.introduce id role clientId) ids :=
  h.next [.introduce id role clientId] fun refused => ⟨refused, rfl⟩

private theorem arrive (h : Attended n floor ids) :
    Attended n floor.arrive.2 (if floor.arrive.1.2 then ids ++ [floor.arrive.1.1] else ids) := by
  refine h.next [.arrive] fun refused => ?_
  simp only [run, List.foldl_cons, List.foldl_nil, step]
  split
  · rename_i id after arrived
    exact ⟨refused, by simp only [arrived, if_true]⟩
  · rename_i id after arrived
    exact ⟨refused ++ [id], by simp only [arrived, Bool.false_eq_true, if_false]⟩

private theorem leave (h : Attended n floor ids) {id : Nat} (mem : id ∈ ids) :
    Attended n (floor.leave id) (ids.filter (· != id)) := by
  refine h.next [.strikeOut id, .countOut id, .freePlace id] fun refused => ⟨refused, ?_⟩
  have gone : ids.erase id = ids.filter (· != id) := h.nodup.erase_eq_filter id
  simp only [run, List.foldl_cons, List.foldl_nil, step, if_pos mem, gone, List.nil_append,
    List.mem_singleton, if_true, List.erase_cons_head]
  rfl

private theorem performAll {b : Broker} (h : Attended n b.floor ids) (id : Nat)
    {effects : List Conversation.Effect}
    (plain : effects.all Conversation.Effect.isPlain) :
    Attended n (b.performAll id effects).2.floor ids := by
  induction effects generalizing b with
  | nil => exact h
  | cons effect rest ih =>
    rw [List.all_cons, Bool.and_eq_true] at plain
    refine ih ?_ plain.2
    cases effect with
    | note occasion => exact h.note plain.1
    | introduce role clientId => exact h.introduce id role clientId
    | send | consult | refuse | release => exact h

private theorem occur {b : Broker} (h : Attended n b.floor ids) (id : Nat)
    (event : Conversation.Event) :
    Attended n (b.occur id event).2.floor ids := by
  cases found : b.talk? id with
  | none =>
    rw [Broker.occur, found]
    exact h
  | some t =>
    rw [Broker.occur_of_found found]
    exact performAll (b := b.setTalk _) h id (Conversation.plain_step b.settings id t.stage event)

private theorem depart {b : Broker} (h : Attended n b.floor ids) {id : Nat} (mem : id ∈ ids) :
    Attended n (b.depart id).floor (ids.filter (· != id)) := by
  rw [Broker.depart]
  split
  · exact h.leave mem
  · exact h.leave mem

end Doorway.Attended

namespace Broker

/-- Whether some connections have guards and conversations, and nobody else has. -/
structure Hosts (n : Nat) (b : Broker) (ids : List Nat) : Prop where
  attended : Doorway.Attended n b.floor ids
  talking : ∀ id, (b.stage? id).isSome ↔ id ∈ ids

/-- Whether none of these conversations is over, either. -/
structure Engaged (n : Nat) (b : Broker) (ids : List Nat) : Prop extends Hosts n b ids where
  going : ∀ id result, b.stage? id ≠ some (.over result)

variable {n : Nat} {b : Broker} {ids : List Nat}

private theorem Engaged.congr (h : Engaged n b ids) {b' : Broker} (floor : b'.floor = b.floor)
    (talks : b'.talks = b.talks) : Engaged n b' ids := by
  have stages (id : Nat) : b'.stage? id = b.stage? id := by rw [stage?, talk?, talks]; rfl
  exact ⟨⟨floor ▸ h.attended, fun id => stages id ▸ h.talking id⟩,
    fun id => stages id ▸ h.going id⟩

private theorem engaged_start (s : Settings) : Engaged s.maxConnections.toNat (start s) [] where
  attended := .ofLimit _
  talking id := by simp [stage?, talk?, start]
  going id result := by simp [stage?, talk?, start]

private theorem Hosts.occur (h : Hosts n b ids) (id : Nat) (event : Conversation.Event) :
    Hosts n (b.occur id event).2 ids where
  attended := h.attended.occur id event
  talking other := by
    rw [stage?_occur, Option.isSome_map]
    exact h.talking other

private theorem Engaged.going_occur (h : Engaged n b ids) {id other : Nat} (ne : other ≠ id)
    (event : Conversation.Event) (result : Except ConnectionError Unit) :
    (b.occur id event).2.stage? other ≠ some (.over result) := by
  simp only [stage?_occur, if_neg ne, Option.map_id']
  exact h.going other result

private theorem Engaged.fetch (h : Engaged n b ids) {id : Nat} {result : Except BrokerError Answer}
    {b' : Broker} (fetched : b.fetch id = some (result, b')) : Engaged n b' ids where
  attended := (fetch_same fetched).2 ▸ h.attended
  talking other := by
    rw [stage?_fetch fetched]
    exact h.talking other
  going other result := by
    rw [stage?_fetch fetched]
    exact h.going other result

/-- A connection that ends may have been the only one whose conversation was over. -/
theorem Hosts.depart (h : Hosts n b ids) {id : Nat} (mem : id ∈ ids)
    (going : ∀ other, other ≠ id → ∀ result, b.stage? other ≠ some (.over result)) :
    Engaged n (b.depart id) (ids.filter (· != id)) := by
  have left (other : Nat) : (b.depart id).stage? other =
      if other = id then none else b.stage? other := by
    rw [stage?, talk?_depart]
    split_ifs <;> rfl
  refine ⟨⟨h.attended.depart mem, fun other => ?_⟩, fun other result => ?_⟩
  · rw [left, List.mem_filter, ← h.talking]
    split_ifs with here <;> simp [here]
  · rw [left]
    split_ifs with here
    · exact (Option.some_ne_none _).symm
    · exact going other here result

private theorem stage?_arrive_of_room (room : b.floor.limiter.active < b.floor.limiter.limit)
    (fresh : b.stage? b.floor.nextId = none) (id : Nat) :
    b.arrive.2.stage? id = if id = b.floor.nextId then some .greeting else b.stage? id := by
  simp only [arrive, Floor.arrive_of_room room, stage?, talk?, List.find?_append,
    List.find?_singleton] at fresh ⊢
  by_cases here : id = b.floor.nextId
  · simp [here, Option.map_eq_none_iff.mp fresh]
  · simp [here, Ne.symm here]

private theorem Engaged.arrive (h : Engaged n b ids) :
    Engaged n b.arrive.2
      (if b.floor.limiter.active < b.floor.limiter.limit then ids ++ [b.floor.nextId]
        else ids) := by
  have arrived := h.attended.arrive
  split_ifs with room
  · have fresh : b.stage? b.floor.nextId = none := by
      rw [← Option.not_isSome_iff_eq_none, h.talking]
      exact h.attended.fresh
    have stages := stage?_arrive_of_room room fresh
    rw [Floor.arrive_of_room room, if_pos rfl] at arrived
    refine ⟨⟨?_, fun id => ?_⟩, fun id result => ?_⟩
    · rw [Broker.arrive, Floor.arrive_of_room room]
      exact arrived
    · rw [stages, List.mem_append, List.mem_singleton, ← h.talking]
      split_ifs with here <;> simp [here]
    · rw [stages]
      split_ifs
      · simp
      · exact h.going id result
  · rw [Floor.arrive_of_full room, if_neg Bool.false_ne_true] at arrived
    rw [Broker.arrive, Floor.arrive_of_full room]
    exact ⟨⟨arrived, h.talking⟩, h.going⟩

end Broker

namespace Net

open Doorway (Attended)
open Broker (Hosts Engaged)

variable {links : Links}

private theorem Links.of_change {α : Type} {number : Nat} {f : Link → α × Link} {value : α}
    {links' : Links} (h : links.change number f = (some value, links')) :
    ∃ link, value = (f link).1 := by
  rw [change] at h
  split at h
  · cases h
  · rename_i l found
    exact ⟨l.flip, (Option.some.inj (congrArg Prod.fst h)).symm⟩

private theorem Line.id_advance (now : Instant) (cancelled : Bool) (stage : Stage) (l : Line)
    (link : Link) : (l.advance now cancelled stage link).1.2.1.id = l.id := by
  rw [advance]
  split
  · split_ifs
    · rfl
    · split <;> rfl
  · split <;> rfl
  · split <;> rfl
  · rfl

private theorem Line.id_of_change {now : Instant} {cancelled moved : Bool} {stage : Stage}
    {l l' : Line} {number : Nat} {event : Option Conversation.Event} {links' : Links}
    (changed : links.change number (l.advance now cancelled stage) =
      (some (moved, l', event), links')) : l'.id = l.id := by
  obtain ⟨link, came⟩ := Links.of_change changed
  rw [← Line.id_advance now cancelled stage l link, ← came]

private theorem Line.id_obey (orders : List Order) (l : Line) :
    (orders.foldl Line.obey l).id = l.id := by
  induction orders generalizing l with
  | nil => rfl
  | cons order orders ih =>
    rw [List.foldl_cons, ih, obey.eq_def]
    split <;> rfl

namespace Service

variable {n : Nat} {s : Service}

/-- The connections that have lines. -/
def ids (s : Service) : List Nat := s.lines.map (·.id)

private theorem ids_setLine (s : Service) (l : Line) : (s.setLine l).ids = s.ids := by
  simp only [ids, setLine, List.map_map]
  refine List.map_congr_left fun m _ => ?_
  dsimp only [Function.comp_apply]
  split_ifs with same
  · exact (eq_of_beq same).symm
  · rfl

private theorem ids_hangUp (s : Service) (l : Line) (links : Links) :
    (s.hangUp l links).1.ids = s.ids.filter (· != l.id) := by
  rw [ids, ids, List.filter_map]
  rfl

private theorem engaged_hangUp (h : Hosts n s.broker s.ids) {l : Line} (mem : l.id ∈ s.ids)
    (going : ∀ id, id ≠ l.id → ∀ result, s.broker.stage? id ≠ some (.over result))
    (links : Links) : Engaged n (s.hangUp l links).1.broker (s.hangUp l links).1.ids := by
  rw [ids_hangUp]
  exact h.depart mem going

private theorem engaged_tell (h : Engaged n s.broker s.ids) {l : Line} (mem : l.id ∈ s.ids)
    (event : Conversation.Event) (links : Links) :
    Engaged n (s.tell l event links).1.broker (s.tell l event links).1.ids := by
  have hosts := h.toHosts.occur l.id event
  have same := Line.id_obey (s.broker.occur l.id event).1 l
  -- A line that is kept is one whose conversation goes on.
  have stays (going : ∀ result, (s.broker.occur l.id event).2.stage? l.id ≠ some (.over result)) :
      Engaged n (s.broker.occur l.id event).2 s.ids :=
    ⟨hosts, fun other result => by
      by_cases here : other = l.id
      · exact here ▸ going result
      · exact h.going_occur here event result⟩
  simp only [tell]
  split
  · refine engaged_hangUp hosts ?_ ?_ links
    · rw [same]
      exact mem
    · rw [same]
      exact fun other ne result => h.going_occur ne event result
  · rename_i id role call found
    rw [same] at found
    rw [ids_setLine]
    refine stays fun result => ?_
    simp [Broker.stage?, found]
  · rename_i going _
    rw [same] at going
    rw [ids_setLine]
    refine stays fun result ended => ?_
    obtain ⟨⟨id, stage, call⟩, found, rfl⟩ := Option.map_eq_some_iff.mp ended
    exact going id result call found

private theorem engaged_advanceLine (h : Engaged n s.broker s.ids) (now : Instant) (id : Nat)
    (links : Links) :
    Engaged n (s.advanceLine now id links).2.1.broker (s.advanceLine now id links).2.1.ids := by
  rw [advanceLine]
  split
  · rename_i l t found talk
    have mem : l.id ∈ s.ids := List.mem_map_of_mem (List.mem_of_find?_eq_some found)
    split
    · rename_i result b fetched
      exact engaged_tell (s := { s with broker := b }) (h.fetch fetched) mem _ links
    · split
      · rename_i moved l' links' changed
        rw [ids_setLine]
        exact h
      · rename_i moved l' event links' changed
        have same := Line.id_of_change changed
        have kept := ids_setLine s l'
        refine engaged_tell (s := s.setLine l') ?_ ?_ event links'
        · rw [kept]
          exact h
        · rw [kept, same]
          exact mem
      · exact h
  · exact h

private def hangUpAll (s : Service) (lines : List Line) (links : Links) : Service × Links :=
  lines.foldl (fun r l => r.1.hangUp l r.2) (s, links)

private theorem ids_hangUpAll (s : Service) (lines : List Line) (links : Links) :
    (s.hangUpAll lines links).1.ids = s.ids.filter (· ∉ lines.map (·.id)) := by
  induction lines generalizing s links with
  | nil => simp [hangUpAll]
  | cons l lines ih =>
    refine (ih (s.hangUp l links).1 (s.hangUp l links).2).trans ?_
    rw [ids_hangUp, List.filter_filter]
    refine List.filter_congr fun id _ => ?_
    rw [List.map_cons]
    by_cases here : id = l.id <;> simp [here]

private theorem engaged_hangUpAll (h : Engaged n s.broker s.ids) {lines : List Line}
    (nodup : (lines.map (·.id)).Nodup) (mem : ∀ l ∈ lines, l.id ∈ s.ids) (links : Links) :
    Engaged n (s.hangUpAll lines links).1.broker (s.hangUpAll lines links).1.ids := by
  induction lines generalizing s links with
  | nil => exact h
  | cons l lines ih =>
    obtain ⟨new, nodup⟩ := List.nodup_cons.mp nodup
    have here := mem l List.mem_cons_self
    have gone := ids_hangUp s l links
    have left := engaged_hangUp h.toHosts here (fun other _ => h.going other) links
    refine ih left nodup (fun m hm => ?_) (s.hangUp l links).2
    have ne : m.id ≠ l.id := by
      intro same
      exact new (List.mem_map.mpr ⟨m, hm, same⟩)
    rw [gone, List.mem_filter]
    exact ⟨mem m (List.mem_cons_of_mem l hm), by simpa using ne⟩

private theorem ids_abandon (s : Service) (links : Links) : (s.abandon links).1.ids = [] := by
  refine (ids_hangUpAll s s.lines links).trans ?_
  exact List.filter_eq_nil_iff.mpr fun id mem => by simpa [ids] using mem

private theorem engaged_abandon (h : Engaged n s.broker s.ids) (links : Links) :
    Engaged n (s.abandon links).1.broker (s.abandon links).1.ids :=
  engaged_hangUpAll h h.attended.nodup (fun _ => List.mem_map_of_mem) links

private theorem engaged_elapse (h : Engaged n s.broker s.ids) (now : Instant) (links : Links) :
    Engaged n (s.elapse now links).1.broker (s.elapse now links).1.ids := by
  have waiting : Engaged n (s.broker.elapse now) s.ids := h.congr rfl rfl
  rw [elapse]
  split
  · split_ifs
    · exact engaged_abandon (s := { s with
        broker := s.broker.elapse now, agenda := s.agenda.ring now }) waiting links
    · exact waiting
  · exact waiting

/-- Whether nobody is left, and every place is free. -/
structure Deserted (s : Service) : Prop where
  lines : s.lines = []
  leavers : s.leavers = []
  active : s.broker.floor.limiter.active = 0
  registry : s.broker.floor.registry = []

private theorem deserted_elapse (h : Engaged n s.broker s.ids) {moment now : Instant}
    (grace : s.grace = some moment) (past : moment ≤ now) (links : Links) :
    Deserted (s.elapse now links).1 := by
  have still := engaged_elapse h now links
  have elapsed : s.elapse now links = ({ s with
      broker := s.broker.elapse now, agenda := s.agenda.ring now } : Service).abandon links := by
    simp only [elapse, grace, if_pos past]
  rw [elapsed] at still ⊢
  have nobody := ids_abandon { s with
    broker := s.broker.elapse now, agenda := s.agenda.ring now } links
  rw [nobody] at still
  obtain ⟨active, registry⟩ := still.attended.books
  exact ⟨List.map_eq_nil_iff.mp nobody, rfl, active, registry⟩

/-- What becomes of a socket that is accepted: it gets a line if there is room, and otherwise it is
seen off. -/
structure Seats (s : Service) (link : Nat) (s' : Service) : Prop where
  books : s'.broker.floor = s.broker.floor.arrive.2
  room : s.broker.floor.limiter.active < s.broker.floor.limiter.limit →
    s'.leavers = s.leavers ∧ ∃ line, s'.lines = s.lines ++ [line] ∧
      line.id = s.broker.floor.nextId ∧ line.connection.link = link
  full : ¬s.broker.floor.limiter.active < s.broker.floor.limiter.limit →
    s'.lines = s.lines ∧ ∃ leaver, s'.leavers = s.leavers ++ [leaver] ∧ leaver.link = link

private theorem seats_accept {link : Nat} {rest : List Nat} (waiting : s.backlog = link :: rest) :
    Seats s link s.accept.2 := by
  rw [accept, waiting]
  by_cases room : s.broker.floor.limiter.active < s.broker.floor.limiter.limit
  · simp only [Broker.arrive, Floor.arrive_of_room room, if_true]
    exact ⟨by rw [Floor.arrive_of_room room], fun _ => ⟨rfl, _, rfl, rfl, rfl⟩,
      fun full => absurd room full⟩
  · simp only [Broker.arrive, Floor.arrive_of_full room, Bool.false_eq_true, if_false]
    exact ⟨by rw [Floor.arrive_of_full room], fun free => absurd free room,
      fun _ => ⟨rfl, _, rfl, rfl⟩⟩

private theorem broker_accept {link : Nat} {rest : List Nat} (waiting : s.backlog = link :: rest) :
    s.accept.2.broker = s.broker.arrive.2 := by
  rw [accept, waiting]
  dsimp only
  split_ifs <;> rfl

private theorem engaged_accept (h : Engaged n s.broker s.ids) :
    Engaged n s.accept.2.broker s.accept.2.ids := by
  cases waiting : s.backlog with
  | nil =>
    rw [accept, waiting]
    exact h
  | cons link rest =>
    have arrived := h.arrive
    obtain ⟨-, seated, full⟩ := seats_accept waiting
    rw [broker_accept waiting]
    split_ifs at arrived with room
    · obtain ⟨-, line, lines, id, -⟩ := seated room
      rw [ids, lines, List.map_append, List.map_singleton, id]
      exact arrived
    · rw [ids, (full room).1]
      exact arrived

inductive Happening
  | dialled (link : Nat)
  | accept
  /-- A line goes on by a step. -/
  | advance (now : Instant) (id : Nat) (links : Links)
  /-- A line begins to wait. -/
  | wait (id : Nat)
  | hub
  /-- Connections that were turned away go on. -/
  | leave (now : Instant) (links : Links)
  | elapse (now : Instant) (links : Links)
  | cancel (now : Instant) (links : Links)

def happen (s : Service) : Happening → Service
  | .dialled link => s.dialled link
  | .accept => s.accept.2
  | .advance now id links => (s.advanceLine now id links).2.1
  | .wait id => s.armLine id
  | .hub => s.runHub
  | .leave now links =>
    { s with leavers := (advanceLeavers now s.broker.cancelled s.leavers links).2.1 }
  | .elapse now links => (s.elapse now links).1
  | .cancel now links => (s.cancel now links).1

/-- A service that was started with some settings, after what has happened since. -/
def after (settings : Settings) (happenings : List Happening) : Service :=
  happenings.foldl happen (ofBroker (Broker.start settings))

private theorem engaged_happen (h : Engaged n s.broker s.ids) (happening : Happening) :
    Engaged n (s.happen happening).broker (s.happen happening).ids := by
  cases happening with
  | dialled link => exact h
  | accept => exact engaged_accept h
  | advance now id links => exact engaged_advanceLine h now id links
  | wait id =>
    simp only [happen, armLine]
    split <;> exact h
  | hub => exact h.congr rfl rfl
  | leave now links => exact h
  | elapse now links => exact engaged_elapse h now links
  | cancel now links => exact h.congr rfl rfl

/-- Whatever has happened, every line has a guard, and a conversation that goes on. -/
theorem engaged_after (settings : Settings) (happenings : List Happening) :
    Engaged settings.maxConnections.toNat (after settings happenings).broker
      (after settings happenings).ids := by
  have all : ∀ (happenings : List Happening) (s : Service),
      Engaged settings.maxConnections.toNat s.broker s.ids →
        Engaged settings.maxConnections.toNat (happenings.foldl happen s).broker
          (happenings.foldl happen s).ids := by
    intro happenings
    induction happenings with
    | nil => exact fun s h => h
    | cons happening happenings ih => exact fun s h => ih _ (engaged_happen h happening)
  exact all happenings _ (Broker.engaged_start settings)

end Service

/-- Admission and its books.  At a doorway, whoever comes and whoever goes, and however far the
guards of those who go have come: the guards alive are as many as the connections that count as
active, and no more than may be; while no guard is being dropped, the registry and the counters
agree with the guards; and a socket is admitted if there is room, and turned away otherwise.  A
service is such a doorway, at which every line has a guard, whichever way its lines end.  A line is
gone, and its place free, as soon as its conversation is over; and when the grace of a shutdown is
over, all of them are. -/
theorem guards_and_books_agree :
    (∀ (n : Nat) (events : List Doorway.Event),
      let d := (Doorway.ofLimit n).run events
      d.guards.length = d.active ∧ d.active ≤ n ∧ d.floor.limiter.limit = min n maxPermits ∧
        (d.struckOut = [] ∧ d.counted = [] → d.floor.registry = d.guards ∧
          d.floor.metrics.opened = d.floor.metrics.closed + d.guards.length) ∧
        d.floor.metrics.opened = d.floor.limiter.admitted ∧
        d.floor.metrics.rejected = d.floor.limiter.rejected ∧
        Doorway.Admits d (d.step .arrive)) ∧
      ∀ (settings : Settings) (happenings : List Service.Happening),
        let s := Service.after settings happenings
        Attended settings.maxConnections.toNat s.broker.floor s.ids ∧
          s.broker.floor.limiter.active = s.lines.length ∧ s.broker.floor.registry = s.ids ∧
          (∀ id, (s.broker.stage? id).isSome ↔ id ∈ s.ids) ∧
          (∀ id result, s.broker.stage? id ≠ some (.over result)) ∧
          (∀ moment now links, s.grace = some moment → moment ≤ now →
            Service.Deserted (s.elapse now links).1) ∧
          ∀ link rest, s.backlog = link :: rest → Service.Seats s link s.accept.2 := by
  refine ⟨fun n events => ?_, fun settings happenings => ?_⟩
  · have kept := Doorway.kept_after n events
    have within := kept.within
    rw [kept.limit] at within
    exact ⟨kept.active.symm, Nat.le_trans within (Nat.min_le_left _ _), kept.limit,
      fun ⟨struckOut, counted⟩ => kept.settled struckOut counted, kept.admitted, kept.rejected,
      Doorway.admits_arrive _⟩
  · have engaged := Service.engaged_after settings happenings
    obtain ⟨active, registry⟩ := engaged.attended.books
    exact ⟨engaged.attended, active.trans (List.length_map _), registry, engaged.talking,
      engaged.going, fun _ _ links grace past => Service.deserted_elapse engaged grace past links,
      fun _ _ => Service.seats_accept⟩

end Net
end WorkBroker
