import WorkBroker.Proofs.Broker.Openings
/-!
What a broker counts.  Every packet that comes after the handshake is counted as a request.  Every
error that a conversation says is counted as well, but for one: the complaint about a packet that
only a broker may send, after which the conversation is over.  This holds for each conversation by
itself, and for the counters of a broker with any number of them.
-/

set_option autoImplicit false
set_option relaxedAutoImplicit false

namespace WorkBroker

def Packet.isError : Packet → Bool
  | .error _ _ => true
  | _ => false

namespace Metrics

variable {m m' m'' : Metrics} {got said more told : List Packet}

/-- Whether counters have moved on as packets came and went: each that came is a request, and each
error that went is counted, unless it answers a packet that is not for a client to send. -/
structure Counts (m m' : Metrics) (got said : List Packet) : Prop where
  errors : m'.errors + got.countP (!·.isFromClient) = m.errors + said.countP Packet.isError
  requests : m'.requests = m.requests + got.length

private theorem Counts.of_same (errors : m'.errors = m.errors)
    (requests : m'.requests = m.requests) :
    Counts m m' [] [] := ⟨errors, requests⟩

private theorem Counts.append (first : Counts m m' got said) (later : Counts m' m'' more told) :
    Counts m m'' (got ++ more) (said ++ told) where
  errors := by
    have before := first.errors
    have after := later.errors
    rw [List.countP_append, List.countP_append]
    omega
  requests := by rw [later.requests, first.requests, List.length_append, Nat.add_assoc]

def tell (m : Metrics) (effects : List Conversation.Effect) : Metrics :=
  effects.foldl
    (fun m effect =>
      match effect with
      | .note occasion => m.note occasion
      | _ => m)
    m

end Metrics

namespace Conversation

open Metrics (Counts)

variable {s : Settings} {owner : Nat} {stage : Stage} {event : Event}

private def Effect.packet? : Effect → Option Packet
  | .send p => some p
  | _ => none

private def sent (s : Settings) (owner : Nat) (stage : Stage) (event : Event) : List Packet :=
  (step s owner stage event).1.filterMap Effect.packet?

def writes (log : List Mark) : List Packet :=
  log.filterMap fun
    | .wrote p => some p
    | _ => none

private theorem reads_marks (s : Settings) (owner : Nat) (stage : Stage) (event : Event) :
    reads (marks s owner stage event) = reads (taken stage event) := by
  have nothing : reads ((step s owner stage event).1.filterMap left) = [] := by
    refine List.filterMap_eq_nil_iff.mpr fun mark mem => ?_
    obtain ⟨effect, -, same⟩ := List.mem_filterMap.mp mem
    cases effect <;> cases same <;> rfl
  rw [marks, reads_append, nothing, List.append_nil]

private theorem writes_marks (s : Settings) (owner : Nat) (stage : Stage) (event : Event) :
    writes (marks s owner stage event) = sent s owner stage event := by
  have nothing : writes (taken stage event) = [] := by
    refine List.filterMap_eq_nil_iff.mpr fun mark mem => ?_
    unfold taken at mem
    split at mem <;> first | cases List.mem_singleton.mp mem; rfl | cases mem
  rw [marks, writes, List.filterMap_append, ← writes, nothing, List.nil_append,
    List.filterMap_filterMap, sent]
  congr 1
  funext effect
  cases effect <;> rfl

section Steps

private theorem counts_reply (m : Metrics) (role : Role) (p : Packet) (last : Bool) :
    Counts m (m.tell (reply role p last).1) []
      ((reply role p last).1.filterMap Effect.packet?) := by
  cases p with
  | error code text => cases code <;> exact ⟨rfl, rfl⟩
  | _ => exact ⟨rfl, rfl⟩

private theorem counts_finish (m : Metrics) (result : Except ConnectionError Unit) :
    Counts m (m.tell (finish result).1) [] ((finish result).1.filterMap Effect.packet?) :=
  ⟨rfl, rfl⟩

private theorem counts_hear (m : Metrics) (s : Settings) (owner : Nat) (role : Role) (p : Packet) :
    Counts m (m.tell (.note .requestReceived :: (hear s owner role p).1)) [p]
      ((hear s owner role p).1.filterMap Effect.packet?) := by
  have counted : ∀ client : p.isFromClient, Counts m (m.note .requestReceived) [p] [] := by
    intro client
    have own : [p].countP (!·.isFromClient) = 0 := by simp [client]
    exact ⟨congrArg (m.errors + ·) own, rfl⟩
  have d := decided s owner role p
  rw [hear]
  generalize decide s owner role p = decision at d
  cases d with
  | part goodbye => exact (counted (goodbye ▸ rfl)).append (counts_finish _ (.ok ()))
  | reply client => exact (counted client).append (counts_reply _ role _ false)
  | consult wait client => exact counted client
  | dismiss broker =>
    have foreign : [p].countP (!·.isFromClient) = 1 := by simp [broker]
    exact ⟨congrArg (m.errors + ·) foreign, rfl⟩

private theorem counts_step (m : Metrics) (s : Settings) (owner : Nat) (stage : Stage)
    (event : Event) :
    Counts m (m.tell (step s owner stage event).1) (reads (taken stage event))
      (sent s owner stage event) := by
  have same : Counts m m [] [] := .of_same rfl rfl
  rw [sent]
  cases stage with
  | listening role =>
    cases event with
    | received result =>
      cases result with
      | ok p => exact counts_hear m s owner role p
      | error e => cases e <;> exact .of_same rfl rfl
    | cancelled => exact counts_finish m (.ok ())
    | greeted | sent | answered | refused => exact same
  | asking role request =>
    cases event with
    | answered result => exact counts_reply m role _ _
    | greeted | received | sent | refused | cancelled => exact same
  | greeting =>
    cases event with
    | greeted result => cases result <;> exact ⟨rfl, rfl⟩
    | cancelled | received | sent | answered | refused => exact same
  | welcoming role =>
    cases event with
    | sent result => cases result <;> exact same
    | greeted | received | answered | refused | cancelled => exact same
  | answering role last =>
    cases event with
    | sent result => cases result <;> cases last <;> exact same
    | greeted | received | answered | refused | cancelled => cases last <;> exact same
  | dismissing | refusing | «over» => cases event <;> exact same

end Steps

section Runs

def countersAfter (s : Settings) (owner : Nat) (m : Metrics) : Stage → List Event → Metrics
  | _, [] => m
  | stage, event :: events =>
    countersAfter s owner (m.tell (step s owner stage event).1) (step s owner stage event).2 events

private theorem counts_converse (m : Metrics) (s : Settings) (owner : Nat) (start : Stage)
    (events : List Event) :
    Counts m (countersAfter s owner m start events) (reads (converse s owner start events).1)
      (writes (converse s owner start events).1) := by
  induction events generalizing m start with
  | nil => exact .of_same rfl rfl
  | cons event events ih =>
    have first := counts_step m s owner start event
    rw [← reads_marks s owner, ← writes_marks] at first
    rw [converse_cons, reads_append, writes, List.filterMap_append]
    exact first.append (ih _ _)

private theorem reads_dismissing (kind : String) (events : List Event) :
    reads (converse s owner (.dismissing kind) events).1 = [] := by
  induction events with
  | nil => rfl
  | cons event events ih =>
    rw [converse_cons]
    cases event with
    | sent result =>
      rw [step, finish, converse_over]
      rfl
    | greeted | received | answered | refused | cancelled => exact ih

private theorem countP_reads_le_one (start : Stage) (events : List Event) :
    (reads (converse s owner start events).1).countP (!·.isFromClient) ≤ 1 := by
  induction events generalizing start with
  | nil => exact Nat.zero_le 1
  | cons event events ih =>
    rw [converse_cons, reads_append, reads_marks, List.countP_append]
    have others := ih (step s owner start event).2
    by_cases foreign : ∃ role p, start = .listening role ∧ event = .received (.ok p) ∧
        p.isFromClient = false
    · obtain ⟨role, p, rfl, rfl, broker⟩ := foreign
      have dismissed : (step s owner (.listening role) (.received (.ok p))).2 =
          .dismissing p.kind := by
        have d := decided s owner role p
        simp only [step, hear]
        generalize decide s owner role p = decision at d
        cases d with
        | part goodbye =>
          subst goodbye
          cases broker
        | reply client | consult wait client =>
          rw [client] at broker
          cases broker
        | dismiss => rfl
      rw [dismissed, reads_dismissing]
      exact List.countP_le_length
    · have own : (reads (taken start event)).countP (!·.isFromClient) = 0 := by
        refine List.countP_eq_zero.mpr fun p mem broker => ?_
        obtain ⟨mark, there, same⟩ := List.mem_filterMap.mp mem
        unfold taken at there
        split at there <;> first | cases there; done | cases List.mem_singleton.mp there
        all_goals cases same
        exact foreign ⟨_, _, rfl, rfl, Bool.not_eq_true' _ |>.mp broker⟩
      omega

end Runs

end Conversation

namespace Broker

open Conversation (countersAfter converse reads writes taken sent orders)
open Metrics (Counts)

variable {b : Broker} {id : Nat}

def Entry.request? : Entry → Option Packet
  | .heard _ (some _, p) => some p
  | _ => none

def Entry.reply? : Entry → Option Packet
  | .said _ _ (.send p) => some p
  | _ => none

private theorem request?_entries (id : Nat) (stage : Stage) (event : Conversation.Event)
    (orders : List Order) :
    (entries id stage event orders).filterMap Entry.request? = reads (taken stage event) := by
  have said : (orders.map (Entry.said id (topic? stage event))).filterMap Entry.request? = [] := by
    rw [List.filterMap_map]
    exact List.filterMap_eq_nil_iff.mpr fun _ _ => rfl
  rw [entries, List.filterMap_append, said, List.append_nil]
  cases stage with
  | greeting =>
    cases event with
    | greeted result => cases result <;> rfl
    | _ => rfl
  | listening role =>
    cases event with
    | received result => cases result <;> rfl
    | _ => rfl
  | answering role last =>
    cases event with
    | sent result => cases result <;> rfl
    | _ => rfl
  | _ => cases event <;> rfl

private theorem reply?_entries (s : Settings) (id : Nat) (stage : Stage)
    (event : Conversation.Event) :
    (entries id stage event (orders s id stage event)).filterMap Entry.reply? =
      sent s id stage event := by
  have heard : ((heard? stage event).toList.map (Entry.heard id)).filterMap Entry.reply? = [] := by
    rw [List.filterMap_map]
    exact List.filterMap_eq_nil_iff.mpr fun _ _ => rfl
  rw [entries, List.filterMap_append, heard, List.nil_append, List.filterMap_map, orders,
    List.filterMap_filterMap, sent]
  congr 1
  funext effect
  cases effect <;> rfl

private theorem metrics_performAll (b : Broker) (id : Nat) (effects : List Conversation.Effect) :
    (b.performAll id effects).2.floor.metrics = b.floor.metrics.tell effects := by
  induction effects generalizing b with
  | nil => rfl
  | cons effect rest ih =>
    rw [performAll, ih]
    cases effect <;> rfl

/-- Whether the counters of a broker keep pace with what is put on record. -/
def Tallies (b : Broker) (record : List Entry) (b' : Broker) : Prop :=
  Counts b.floor.metrics b'.floor.metrics (record.filterMap Entry.request?)
    (record.filterMap Entry.reply?)

private theorem tallies_converse (b : Broker) (id : Nat) (event : Conversation.Event) :
    b.Tallies (b.converse id event).1 (b.converse id event).2 := by
  cases found : b.talk? id with
  | none =>
    rw [converse_of_absent found]
    exact .of_same rfl rfl
  | some t =>
    have said : (b.occur id event).1 = orders b.settings id t.stage event := by
      rw [occur_of_found found, performAll_fst, orders]
    have counted : (b.converse id event).2.floor.metrics =
        b.floor.metrics.tell (Conversation.step b.settings id t.stage event).1 := by
      show (b.occur id event).2.floor.metrics = _
      rw [occur_of_found found, metrics_performAll]
      rfl
    rw [Tallies, counted, converse_fst found, said, request?_entries, reply?_entries]
    exact Conversation.counts_step _ b.settings id t.stage event

private theorem tallies_arrive (b : Broker) : b.Tallies (b.step .arrive).1 (b.step .arrive).2 := by
  rw [step, arrive, Floor.arrive]
  cases b.floor.limiter.enter with
  | mk result limiter => cases result <;> exact .of_same rfl rfl

private theorem tallies_step (b : Broker) (e : Event) : b.Tallies (b.step e).1 (b.step e).2 := by
  have same {d : Broker} (metrics : d.floor.metrics = b.floor.metrics) : b.Tallies [] d :=
    .of_same (congrArg Metrics.errors metrics) (congrArg Metrics.requests metrics)
  cases e with
  | arrive => exact tallies_arrive b
  | tell id event =>
    rcases answered_or event with ⟨result, rfl⟩ | unanswered
    · exact same rfl
    · rw [step_tell b id unanswered]
      exact tallies_converse b id event
  | answer id =>
    simp only [step]
    split
    · rename_i result d fetched
      have told := tallies_converse d id (.answered result)
      rwa [Tallies, (fetch_same fetched).2] at told
    · exact same rfl
  | depart id =>
    -- Who leaves is counted as closed.
    have counted : (b.depart id).floor.metrics = b.floor.metrics.note .connectionClosed := by
      rw [depart]
      split <;> rfl
    have errors : (b.depart id).floor.metrics.errors = b.floor.metrics.errors := by
      rw [counted]
      rfl
    have requests : (b.depart id).floor.metrics.requests = b.floor.metrics.requests := by
      rw [counted]
      rfl
    exact .of_same errors requests
  | race event => cases event <;> exact same rfl
  | turn | elapse | cancel => exact same rfl

private theorem tallies_run (b : Broker) (events : List Event) :
    b.Tallies (b.run events).1 (b.run events).2 := by
  induction events generalizing b with
  | nil => exact .of_same rfl rfl
  | cons e events ih =>
    have whole := (b.tallies_step e).append (ih (b.step e).2)
    rw [← List.filterMap_append, ← List.filterMap_append] at whole
    exact whole

end Broker

/-- Every packet that comes after the handshake is counted as a request, and every error that is
said is counted, but for the complaint about a packet that only a broker may send, of which there
is at most one in a conversation.  So it is for each conversation, whatever happens to it, and for
all conversations of a broker together. -/
theorem all_errors_but_dismissals_are_counted (s : Settings) :
    (∀ (owner : Nat) (m : Metrics) (events : List Conversation.Event),
      let log := (Conversation.converse s owner .greeting events).1
      let after := Conversation.countersAfter s owner m .greeting events
      let got := Conversation.reads log
      after.errors + got.countP (!·.isFromClient) =
          m.errors + (Conversation.writes log).countP Packet.isError ∧
        got.countP (!·.isFromClient) ≤ 1 ∧
        after.requests = m.requests + got.length) ∧
    ∀ events : List Broker.Event,
      let record := ((Broker.start s).run events).1
      let metrics := ((Broker.start s).run events).2.floor.metrics
      let got := record.filterMap Broker.Entry.request?
      metrics.errors + got.countP (!·.isFromClient) =
          (record.filterMap Broker.Entry.reply?).countP Packet.isError ∧
        metrics.requests = got.length := by
  refine ⟨fun owner m events => ?_, fun events => ?_⟩
  · have counts := Conversation.counts_converse m s owner .greeting events
    exact ⟨counts.errors, Conversation.countP_reads_le_one .greeting events, counts.requests⟩
  · have counts := Broker.tallies_run (Broker.start s) events
    have errors := counts.errors
    have requests := counts.requests
    have fresh : (Broker.start s).floor.metrics = {} := rfl
    rw [fresh, Nat.zero_add] at errors requests
    exact ⟨errors, requests⟩

def strayEmpty : List Broker.Event :=
  [.arrive, .tell 1 (.greeted (.ok (.monitor, "m"))), .tell 1 (.sent (.ok ())),
    .tell 1 (.received (.ok .empty))]

/-- The complaint about it is said and not counted. -/
theorem complaint_about_stray_empty_is_not_counted :
    .said 1 (some (some .monitor, .empty))
        (.send (.error .invalidMessage "Empty may only be sent by the broker")) ∈
      ((Broker.start {}).run strayEmpty).1 ∧
    ((Broker.start {}).run strayEmpty).2.floor.metrics.errors = 0 := by
  decide +kernel

end WorkBroker
