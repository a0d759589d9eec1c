import WorkBroker.Broker.Conversation
import Mathlib.Data.List.Induction
/-!
A client pairs replies with requests by their order alone, so one reply too many or too few would
shift every later answer.  What a conversation reads, is told by the hub and writes is therefore a
row of whole exchanges: a request, the hub's answer if the hub was asked, one reply.  At most the
last request stands without a reply: the hub has not answered it yet, or it is a goodbye.
-/

set_option autoImplicit false
set_option relaxedAutoImplicit false

namespace WorkBroker

/-- The answers that are to the point of a request. -/
def Request.Expects : Request → Answer → Prop
  | .push .., .accepted | .ack .., .accepted => True
  | .pop .., .delivery _ | .ackPop .., .delivery _ => True
  | .counts, .counts _ | .stats, .stats _ => True
  | .listFailed _, .failed .. | .eraseFailed _, .erased _ => True
  | _, _ => False

namespace Conversation

variable {s : Settings} {owner : Nat} {role : Role} {p q : Packet} {stage : Stage}

/-- The packets about which the hub is asked. -/
def consults (s : Settings) : Role → Packet → Bool
  | _, .count => true
  | .producer, .push _ _ _ payload => payload.length ≤ s.maxMessageSize.toNat
  | .consumer, .pop _ | .consumer, .ack .. | .consumer, .ackPop .. => true
  | .monitor, .listFailed _ | .monitor, .eraseFailed _ => true
  | _, _ => false

/-- The reply that a request gets when nothing stands against it. -/
def Suits : Packet → Packet → Prop
  | .push id _ _ _, .accepted id' => id' = id
  | .ack id _ _ _, .acked id' => id' = id
  | .pop _, .deliver .. | .pop _, .empty => True
  | .ackPop .., .deliver .. | .ackPop .., .empty => True
  | .count, .counts .. => True
  | .listFailed _, .failed .. => True
  | .eraseFailed _, .erased _ => True
  | _, _ => False

/-- An error that does not tell of a shutdown. -/
def IsComplaint (q : Packet) : Prop :=
  ∃ code text, q = Packet.ofError code text ∧ code ≠ .shuttingDown

/-- What the hub is asked when a packet comes on connection `owner`. -/
inductive Concerns (owner : Nat) : Packet → Request → Prop
  | push (id : String) (priority : UInt8) (delay : UInt32) (payload : Bytes) :
      Concerns owner (.push id priority delay payload)
        (.push owner id payload priority.toNat (delayOf delay))
  | pop (wait : UInt32) (stays : Bool) : Concerns owner (.pop wait) (.pop owner stays)
  | ack (id : String) (token : UInt64) (requeue : Bool) (delay : UInt32) :
      Concerns owner (.ack id token requeue delay) (.ack id token.toNat requeue (delayOf delay))
  | ackPop (id : String) (token : UInt64) (requeue : Bool) (delay wait : UInt32) (stays : Bool) :
      Concerns owner (.ackPop id token requeue delay wait)
        (.ackPop owner id token.toNat requeue (delayOf delay) stays)
  | count : Concerns owner .count .counts
  | listFailed (limit : UInt32) :
      Concerns owner (.listFailed limit) (.listFailed (min limit.toNat maxIds))
  | eraseFailed (ids : List String) : Concerns owner (.eraseFailed ids) (.eraseFailed ids)

/-- What passes between a conversation, its client and the hub, in its order. -/
inductive Mark
  | read (p : Packet)
  | asked (request : Request)
  | told (result : Except BrokerError Answer)
  | wrote (p : Packet)
  /-- What broke the conversation off. -/
  | cut (event : Event)

/-- A packet of the client, what the hub was asked about it and said, and the reply. -/
structure Exchange where
  packet : Packet
  inquiry : Option (Request × Except BrokerError Answer)
  reply : Packet

namespace Exchange

def marks (x : Exchange) : List Mark :=
  .read x.packet ::
    (x.inquiry.toList.flatMap (fun y => [.asked y.1, .told y.2]) ++ [.wrote x.reply])

/-- Whether the reply is right for the packet and for what the hub has said about it. -/
def Fits (owner : Nat) (x : Exchange) : Prop :=
  match x.inquiry with
  | none => IsComplaint x.reply
  | some (request, result) =>
    Concerns owner x.packet request ∧
      match result with
      | .ok answer => request.Expects answer → Suits x.packet x.reply
      | .error .shuttingDown => x.reply = Packet.ofError .shuttingDown "broker is shutting down"
      | .error _ => IsComplaint x.reply

structure Proper (s : Settings) (owner : Nat) (role : Role) (x : Exchange) : Prop where
  packet_ne : x.packet ≠ .goodbye
  isSome_inquiry : x.inquiry.isSome = consults s role x.packet
  fits : x.Fits owner

def MetShutdown (x : Exchange) : Prop :=
  ∃ request, x.inquiry = some (request, .error .shuttingDown)

def Ends (x : Exchange) : Prop := x.packet.isFromClient = false ∨ x.MetShutdown

end Exchange

/-! ### What a conversation puts on record -/

/-- What an event brings to a conversation, if it belongs to the stage. -/
def taken : Stage → Event → List Mark
  | .listening _, .received (.ok p) => [.read p]
  | .listening _, .received (.error e) => [.cut (.received (.error e))]
  | .listening _, .cancelled => [.cut .cancelled]
  | .asking _ _, .answered result => [.told result]
  | .answering _ _, .sent (.error e) => [.cut (.sent (.error e))]
  | _, _ => []

def left : Effect → Option Mark
  | .send p => some (.wrote p)
  | .consult request _ => some (.asked request)
  | _ => none

def marks (s : Settings) (owner : Nat) (stage : Stage) (event : Event) : List Mark :=
  taken stage event ++ (step s owner stage event).1.filterMap left

def converse (s : Settings) (owner : Nat) (start : Stage) (events : List Event) :
    List Mark × Stage :=
  events.foldl
    (fun (log, stage) event =>
      (log ++ marks s owner stage event, (step s owner stage event).2))
    ([], start)

@[simp] theorem converse_nil (start : Stage) : converse s owner start [] = ([], start) := rfl

private theorem converse_concat (start : Stage) (events : List Event) (event : Event) :
    converse s owner start (events ++ [event]) =
      ((converse s owner start events).1 ++
          marks s owner (converse s owner start events).2 event,
        (step s owner (converse s owner start events).2 event).2) := by
  simp only [converse, List.foldl_append, List.foldl_cons, List.foldl_nil]

private theorem converse_append (start : Stage) (events more : List Event) :
    converse s owner start (events ++ more) =
      ((converse s owner start events).1 ++
          (converse s owner (converse s owner start events).2 more).1,
        (converse s owner (converse s owner start events).2 more).2) := by
  induction more using List.reverseRecOn with
  | nil => simp only [List.append_nil, converse_nil]
  | append_singleton more event ih =>
    rw [← List.append_assoc, converse_concat, ih, converse_concat, List.append_assoc]

/-! ### What is decided about a packet -/

private theorem Concerns.suits {request : Request} (c : Concerns owner p request) {answer : Answer}
    (expected : request.Expects answer) : Suits p (replyOf p answer) := by
  cases c with
  | pop | ackPop =>
    cases answer with
    | delivery found => cases found <;> trivial
    | _ => exact expected.elim
  | push | ack | count | listFailed | eraseFailed =>
    cases answer <;> first | exact expected.elim | trivial

inductive Decided (s : Settings) (owner : Nat) (role : Role) (p : Packet) : Decision → Prop
  | part (goodbye : p = .goodbye) : Decided s owner role p .part
  | reply {q : Packet} (client : p.isFromClient) (ne : p ≠ .goodbye)
      (unasked : consults s role p = false) (complaint : IsComplaint q) :
      Decided s owner role p (.reply q)
  | consult {request : Request} (wait : Option Duration) (client : p.isFromClient)
      (ne : p ≠ .goodbye) (asked : consults s role p) (concerns : Concerns owner p request) :
      Decided s owner role p (.consult request wait)
  | dismiss (broker : p.isFromClient = false) (unasked : consults s role p = false) :
      Decided s owner role p (.dismiss p.kind)

private theorem isComplaint_ofError {code : ErrorCode} (h : code ≠ .shuttingDown) (text : String) :
    IsComplaint (Packet.ofError code text) := ⟨code, text, rfl, h⟩

theorem decided (s : Settings) (owner : Nat) (role : Role) (p : Packet) :
    Decided s owner role p (decide s owner role p) := by
  cases p with
  | goodbye => cases role <;> exact .part rfl
  | count => cases role <;> exact .consult none rfl (by simp) rfl .count
  | hello r id => cases role <;> exact .reply rfl (by simp) rfl (isComplaint_ofError (by simp) _)
  | push id priority delay payload =>
    cases role with
    | producer =>
      by_cases large : payload.length > s.maxMessageSize.toNat
      · simp only [decide, if_pos large]
        exact .reply rfl (by simp) (by simpa [consults] using large)
          (isComplaint_ofError (by simp) _)
      · simp only [decide, if_neg large]
        exact .consult none rfl (by simp) (by simpa [consults] using large) (.push ..)
    | consumer | monitor => exact .reply rfl (by simp) rfl (isComplaint_ofError (by simp) _)
  | pop | ack | ackPop =>
    cases role with
    | consumer => exact .consult _ rfl (by simp) rfl (by constructor)
    | producer | monitor => exact .reply rfl (by simp) rfl (isComplaint_ofError (by simp) _)
  | listFailed | eraseFailed =>
    cases role with
    | monitor => exact .consult _ rfl (by simp) rfl (by constructor)
    | producer | consumer => exact .reply rfl (by simp) rfl (isComplaint_ofError (by simp) _)
  | welcome | rejected | accepted | deliver | empty | acked | counts | failed | erased | error =>
    cases role <;> exact .dismiss rfl rfl

private theorem concluded {request : Request} (c : Concerns owner p request)
    (result : Except BrokerError Answer) :
    (⟨p, some (request, result), (conclude p result).1⟩ : Exchange).Fits owner ∧
      ((conclude p result).2 ↔ result = .error .shuttingDown) := by
  refine ⟨⟨c, ?_⟩, ?_⟩
  · cases result with
    | ok answer => exact c.suits
    | error e =>
      cases e with
      | shuttingDown => rfl
      | queue e => exact isComplaint_ofError (by cases e <;> simp [QueueError.code]) _
      | bind | listenerClosed | admissionRejected | connection | config | io =>
        exact isComplaint_ofError (by simp) _
  · cases result with
    | ok answer => simp [conclude]
    | error e => cases e <;> simp [conclude]

/-! ### Where a conversation stands -/

def outcome : Event → Except ConnectionError Unit
  | .received (.error .closed) | .received (.error (.timeout _)) => .ok ()
  | .received (.error e) | .sent (.error e) => .error e
  | _ => .ok ()

/-- Where a conversation stands after whole exchanges and the marks that follow them. -/
inductive Place (s : Settings) (owner : Nat) (role : Role) :
    List Exchange → List Mark → Stage → Prop
  | listening {xs : List Exchange} (goesOn : ∀ x ∈ xs, ¬x.Ends) :
      Place s owner role xs [] (.listening role)
  | asking {xs : List Exchange} {p : Packet} {request : Request} (goesOn : ∀ x ∈ xs, ¬x.Ends)
      (client : p.isFromClient) (ne : p ≠ .goodbye) (asked : consults s role p)
      (concerns : Concerns owner p request) :
      Place s owner role xs [.read p, .asked request] (.asking role p)
  | answering {xs : List Exchange} {x : Exchange} {last : Bool} (goesOn : ∀ x ∈ xs, ¬x.Ends)
      (client : x.packet.isFromClient) (last_iff : last ↔ x.MetShutdown) :
      Place s owner role (xs ++ [x]) [] (.answering role last)
  | dismissing {xs : List Exchange} {x : Exchange} (goesOn : ∀ x ∈ xs, ¬x.Ends)
      (broker : x.packet.isFromClient = false) :
      Place s owner role (xs ++ [x]) [] (.dismissing x.packet.kind)
  | parted {xs : List Exchange} (goesOn : ∀ x ∈ xs, ¬x.Ends) :
      Place s owner role xs [.read .goodbye] (.over (.ok ()))
  | dismissed {xs : List Exchange} {x : Exchange} (goesOn : ∀ x ∈ xs, ¬x.Ends)
      (broker : x.packet.isFromClient = false) :
      Place s owner role (xs ++ [x]) []
        (.over (.error (.malformed (.notFromClient x.packet.kind))))
  | shutDown {xs : List Exchange} {x : Exchange} (goesOn : ∀ x ∈ xs, ¬x.Ends)
      (met : x.MetShutdown) : Place s owner role (xs ++ [x]) [] (.over (.ok ()))
  | broken {xs : List Exchange} (goesOn : ∀ x ∈ xs.dropLast, ¬x.Ends) (event : Event) :
      Place s owner role xs [.cut event] (.over (outcome event))

/-- What is on record is a row of whole exchanges, followed by what fits the stage. -/
structure Recorded (s : Settings) (owner : Nat) (role : Role) (log : List Mark) (stage : Stage)
    (xs : List Exchange) (tail : List Mark) : Prop where
  log_eq : log = xs.flatMap (·.marks) ++ tail
  proper : ∀ x ∈ xs, x.Proper s owner role
  place : Place s owner role xs tail stage

section Step

variable {log tail : List Mark} {xs : List Exchange} {event : Event}

private theorem Recorded.stay (h : Recorded s owner role log stage xs tail)
    (silent : marks s owner stage event = []) (still : (step s owner stage event).2 = stage) :
    Recorded s owner role (log ++ marks s owner stage event) (step s owner stage event).2 xs
      tail := by
  rw [silent, still, List.append_nil]
  exact h

private theorem Recorded.complete (h : Recorded s owner role log stage xs tail) (x : Exchange)
    (proper : x.Proper s owner role) {more : List Mark} {stage' : Stage}
    (marks_eq : tail ++ more = x.marks) (place : Place s owner role (xs ++ [x]) [] stage') :
    Recorded s owner role (log ++ more) stage' (xs ++ [x]) [] where
  log_eq := by
    rw [h.log_eq, List.append_assoc, marks_eq, List.flatMap_append, List.flatMap_singleton,
      List.append_nil]
  proper y hy := by
    rcases List.mem_append.mp hy with hy | hy
    · exact h.proper y hy
    · rw [List.mem_singleton.mp hy]
      exact proper
  place := place

private theorem Recorded.leave (h : Recorded s owner role log stage xs []) {more : List Mark}
    {stage' : Stage} (place : Place s owner role xs more stage') :
    Recorded s owner role (log ++ more) stage' xs more where
  log_eq := by rw [h.log_eq, List.append_nil]
  proper := h.proper
  place := place

private theorem filterMap_left_reply (role : Role) (q : Packet) (last : Bool) :
    (reply role q last).1.filterMap left = [.wrote q] := by
  have notes : ((occasions q).map Effect.note).filterMap left = [] := by
    rw [List.filterMap_map, List.filterMap_eq_nil_iff]
    exact fun _ _ => rfl
  rw [reply, List.filterMap_append, notes]
  rfl

private theorem Recorded.hear (h : Recorded s owner role log (.listening role) xs [])
    (goesOn : ∀ x ∈ xs, ¬x.Ends) (p : Packet) :
    ∃ xs' tail',
      Recorded s owner role (log ++ marks s owner (.listening role) (.received (.ok p)))
        (step s owner (.listening role) (.received (.ok p))).2 xs' tail' := by
  have d := decided s owner role p
  simp only [Conversation.marks, taken, step, Conversation.hear]
  generalize decide s owner role p = decision at d
  cases d with
  | part goodbye =>
    subst goodbye
    exact ⟨xs, _, h.leave (.parted goesOn)⟩
  | @reply q client ne unasked complaint =>
    let x : Exchange := ⟨p, none, q⟩
    have place : Place s owner role (xs ++ [x]) [] (.answering role false) :=
      .answering goesOn client (by simp [Exchange.MetShutdown, x])
    refine ⟨_, _, h.complete x ⟨ne, unasked.symm, complaint⟩ ?_ place⟩
    exact congrArg (.read p :: ·) (filterMap_left_reply role q false)
  | consult wait client ne asked concerns =>
    exact ⟨xs, _, h.leave (.asking goesOn client ne asked concerns)⟩
  | dismiss broker unasked =>
    have ne : p ≠ .goodbye := by
      rintro rfl
      cases broker
    have complaint := @isComplaint_ofError .invalidMessage (by simp)
    exact ⟨_, _, h.complete ⟨p, none, _⟩ ⟨ne, unasked.symm, complaint _⟩ rfl
      (.dismissing goesOn broker)⟩

private theorem Recorded.conclude {request : Request}
    (h : Recorded s owner role log (.asking role p) xs [.read p, .asked request])
    (goesOn : ∀ x ∈ xs, ¬x.Ends) (client : p.isFromClient) (ne : p ≠ .goodbye)
    (asked : consults s role p) (concerns : Concerns owner p request)
    (result : Except BrokerError Answer) :
    ∃ xs' tail',
      Recorded s owner role (log ++ marks s owner (.asking role p) (.answered result))
        (step s owner (.asking role p) (.answered result)).2 xs' tail' := by
  obtain ⟨fits, last_iff⟩ := concluded concerns result
  let x : Exchange := ⟨p, some (request, result), (Conversation.conclude p result).1⟩
  have place :
      Place s owner role (xs ++ [x]) [] (.answering role (Conversation.conclude p result).2) :=
    .answering goesOn client (by simp [last_iff, Exchange.MetShutdown, x])
  refine ⟨_, _, h.complete x ⟨ne, asked.symm, fits⟩ ?_ place⟩
  exact congrArg ([.read p, .asked request, .told result] ++ ·) (filterMap_left_reply role _ _)

private theorem marks_over (result : Except ConnectionError Unit) (event : Event) :
    marks s owner (.over result) event = [] := by
  cases event <;> rfl

theorem step_over (result : Except ConnectionError Unit) (event : Event) :
    step s owner (.over result) event = ([], .over result) := by
  cases event <;> rfl

private theorem cut_ends (cut : taken stage event = [.cut event]) :
    marks s owner stage event = [.cut event] ∧
      (step s owner stage event).2 = .over (outcome event) := by
  cases stage with
  | listening role =>
    cases event with
    | cancelled => exact ⟨rfl, rfl⟩
    | received result =>
      cases result with
      | ok p => simp [taken] at cut
      | error e => cases e <;> exact ⟨rfl, rfl⟩
    | greeted | sent | answered | refused => simp [taken] at cut
  | answering role last =>
    cases event with
    | sent result =>
      cases result with
      | ok => simp [taken] at cut
      | error e => cases last <;> exact ⟨rfl, rfl⟩
    | greeted | received | answered | refused | cancelled => simp [taken] at cut
  | _ =>
    cases event <;> simp [taken] at cut

private theorem Recorded.break (h : Recorded s owner role log stage xs [])
    (before : ∀ x ∈ xs.dropLast, ¬x.Ends) (cut : taken stage event = [.cut event]) :
    ∃ xs' tail',
      Recorded s owner role (log ++ marks s owner stage event) (step s owner stage event).2 xs'
        tail' := by
  obtain ⟨hmarks, hstage⟩ := cut_ends cut
  rw [hmarks, hstage]
  exact ⟨xs, _, h.leave (.broken before event)⟩

/-- Every event keeps the record in order. -/
theorem Recorded.step (h : Recorded s owner role log stage xs tail) (event : Event) :
    ∃ xs' tail',
      Recorded s owner role (log ++ marks s owner stage event) (step s owner stage event).2 xs'
        tail' := by
  cases h.place with
  | listening goesOn =>
    have before : ∀ x ∈ xs.dropLast, ¬x.Ends := by
      intro x hx
      exact goesOn x (List.dropLast_subset xs hx)
    cases event with
    | received result =>
      cases result with
      | ok p => exact h.hear goesOn p
      | error e => exact h.break before rfl
    | cancelled => exact h.break before rfl
    | greeted | sent | answered | refused => exact ⟨xs, _, h.stay rfl rfl⟩
  | asking goesOn client ne asked concerns =>
    cases event with
    | answered result => exact h.conclude goesOn client ne asked concerns result
    | greeted | sent | received | cancelled | refused => exact ⟨xs, _, h.stay rfl rfl⟩
  | @answering xs x last goesOn client last_iff =>
    cases event with
    | sent result =>
      cases result with
      | error e =>
        have before : ∀ y ∈ (xs ++ [x]).dropLast, ¬y.Ends := by
          rw [List.dropLast_concat]
          exact goesOn
        exact h.break before rfl
      | ok =>
        cases last with
        | true => exact ⟨_, _, h.leave (.shutDown goesOn (last_iff.mp rfl))⟩
        | false =>
          have all : ∀ y ∈ xs ++ [x], ¬y.Ends := by
            intro y hy
            rcases List.mem_append.mp hy with hy | hy
            · exact goesOn y hy
            · rw [List.mem_singleton.mp hy, Exchange.Ends, client, ← last_iff]
              simp
          exact ⟨_, _, h.leave (.listening all)⟩
    | greeted | received | answered | cancelled | refused =>
      exact ⟨_, _, h.stay (by cases last <;> rfl) (by cases last <;> rfl)⟩
  | dismissing goesOn broker =>
    cases event with
    | sent result => exact ⟨_, _, h.leave (.dismissed goesOn broker)⟩
    | greeted | received | answered | cancelled | refused => exact ⟨_, _, h.stay rfl rfl⟩
  | parted | dismissed | shutDown | broken =>
    exact ⟨_, _, h.stay (marks_over _ event) (by rw [step_over])⟩

end Step

private theorem recorded_converse (s : Settings) (owner : Nat) (role : Role) (events : List Event) :
    ∃ xs tail, Recorded s owner role (converse s owner (.listening role) events).1
      (converse s owner (.listening role) events).2 xs tail := by
  induction events using List.reverseRecOn with
  | nil => exact ⟨[], [], rfl, by simp, .listening (by simp)⟩
  | append_singleton events event ih =>
    obtain ⟨xs, tail, h⟩ := ih
    rw [converse_concat]
    exact h.step event

/-! ### A client that is heard to the end -/

def reads (log : List Mark) : List Packet :=
  log.filterMap fun
    | .read p => some p
    | _ => none

theorem reads_append (log more : List Mark) : reads (log ++ more) = reads log ++ reads more :=
  List.filterMap_append

/-- What happens when a packet comes, the hub has its answer ready, and sending succeeds. -/
def round (x : Packet × Except BrokerError Answer) : List Event :=
  [.received (.ok x.1), .answered x.2, .sent (.ok ())]

theorem converse_over (result : Except ConnectionError Unit) (events : List Event) :
    converse s owner (.over result) events = ([], .over result) := by
  induction events using List.reverseRecOn with
  | nil => rfl
  | append_singleton events event ih => rw [converse_concat, ih, marks_over, step_over]; rfl

theorem converse_cons (start : Stage) (event : Event) (events : List Event) :
    converse s owner start (event :: events) =
      (marks s owner start event ++ (converse s owner (step s owner start event).2 events).1,
        (converse s owner (step s owner start event).2 events).2) :=
  converse_append start [event] events

private theorem converse_round (s : Settings) (owner : Nat) (role : Role)
    (x : Packet × Except BrokerError Answer) :
    reads (converse s owner (.listening role) (round x)).1 = [x.1] ∧
      (∀ event, .cut event ∉ (converse s owner (.listening role) (round x)).1) ∧
      ((converse s owner (.listening role) (round x)).2 = .listening role ∨
        ∃ result, (converse s owner (.listening role) (round x)).2 = .over result) := by
  obtain ⟨p, result⟩ := x
  have d := decided s owner role p
  rw [round, converse_cons]
  simp only [step, hear, marks, taken]
  generalize decide s owner role p = decision at d
  cases d with
  | part goodbye =>
    simp only [finish]
    rw [converse_over]
    exact ⟨rfl, by simp [left], .inr ⟨_, rfl⟩⟩
  | @reply q client ne unasked complaint =>
    have rest :
        converse s owner (.answering role false) [.answered result, .sent (.ok ())] =
          ([], .listening role) := rfl
    have wrote := filterMap_left_reply role q false
    simp only [reply] at wrote ⊢
    rw [rest, List.filterMap_cons_none rfl, wrote]
    exact ⟨rfl, by simp, .inl rfl⟩
  | consult wait client ne asked concerns =>
    rw [converse_cons]
    simp only [step, marks, taken, filterMap_left_reply]
    generalize conclude p result = y
    obtain ⟨q, last⟩ := y
    have uncut : ∀ event, Mark.cut event ∉
        (converse s owner (.answering role last) [.sent (.ok ())]).1 := by
      cases last <;> simp [converse, marks, taken, step, finish, left]
    cases last with
    | true => exact ⟨rfl, by simpa [left, reply] using uncut, .inr ⟨_, rfl⟩⟩
    | false => exact ⟨rfl, by simpa [left, reply] using uncut, .inl rfl⟩
  | dismiss broker unasked =>
    exact ⟨rfl, by simp [left, converse, marks, taken, step, finish], .inr ⟨_, rfl⟩⟩

/-- Whether packets were read one by one, all of them unless the conversation is over. -/
def HeardOut (role : Role) (packets : List Packet) (run : List Mark × Stage) : Prop :=
  (∀ event, .cut event ∉ run.1) ∧
    (run.2 = .listening role ∧ reads run.1 = packets ∨
      (∃ result, run.2 = .over result) ∧ reads run.1 <+: packets)

private theorem heardOut_script (s : Settings) (owner : Nat) (role : Role)
    (script : List (Packet × Except BrokerError Answer)) :
    HeardOut role (script.map (·.1))
      (converse s owner (.listening role) (script.flatMap round)) := by
  induction script with
  | nil => exact ⟨by simp, .inl ⟨rfl, rfl⟩⟩
  | cons x script ih =>
    obtain ⟨hreads, uncut, here | ⟨result, gone⟩⟩ := converse_round s owner role x
    · rw [List.flatMap_cons, converse_append, here]
      obtain ⟨uncut', rest⟩ := ih
      refine ⟨fun event h => (List.mem_append.mp h).elim (uncut event) (uncut' event), ?_⟩
      rw [List.map_cons, reads_append, hreads, List.singleton_append]
      rcases rest with ⟨still, all⟩ | ⟨ended, some⟩
      · exact .inl ⟨still, by rw [all]⟩
      · exact .inr ⟨ended, List.prefix_cons_inj x.1 |>.mpr some⟩
    · rw [List.flatMap_cons, converse_append, gone, converse_over, List.append_nil]
      refine ⟨uncut, .inr ⟨⟨result, rfl⟩, ?_⟩⟩
      rw [List.map_cons, hreads]
      exact List.prefix_append [x.1] _

/-- A conversation gives one reply to each packet, in order.  Whatever happens, its record is a row
of exchanges; and when sending succeeds and the hub answers, the client's packets are read and
answered one by one, up to a goodbye, a packet of the broker's own or the broker's shutdown. -/
theorem one_reply_each (s : Settings) (owner : Nat) (role : Role) :
    (∀ events : List Event, ∃ xs tail,
      Recorded s owner role (converse s owner (.listening role) events).1
        (converse s owner (.listening role) events).2 xs tail) ∧
    ∀ script : List (Packet × Except BrokerError Answer),
      HeardOut role (script.map (·.1))
        (converse s owner (.listening role) (script.flatMap round)) :=
  ⟨recorded_converse s owner role, heardOut_script s owner role⟩

end Conversation
end WorkBroker
