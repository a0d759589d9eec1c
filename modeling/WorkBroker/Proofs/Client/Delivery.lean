import WorkBroker.Broker.Conversation
import WorkBroker.Proofs.Client.Courses
/-!
What a producer may conclude from a push that went well.  On the first attempt it means that the
broker has accepted the record.  From the second attempt on it may also mean that the broker holds a
message of the same name: that is taken for the record, whoever pushed it and whatever it carries.
-/

set_option autoImplicit false
set_option relaxedAutoImplicit false

namespace WorkBroker

open Net

private theorem RetryState.transient_of_retry {ε α : Type} {transient : ε → Bool}
    {policy : RetryPolicy} {state next : RetryState} {result : Except ε α} {delay : Duration}
    (step : state.advance transient policy result = (.retry delay, next)) :
    ∃ e, result = .error e ∧ transient e = true := by
  unfold advance at step
  split at step
  · cases step
  · cases step
  · cases step
  · rename_i e
    split_ifs at step with final last
    · cases step
    · cases step
    · exact ⟨e, rfl, by simpa using final⟩

namespace Client

variable {ε α : Type}

/-- An operation that goes well in the end goes well at some attempt; a later attempt is made only
after the first has failed with something that may pass. -/
theorem traces_runFrom (policy : RetryPolicy) (transient : ε → Bool)
    {operation : Nat → Client (Except ε α)} (divides : ∀ attempt, (operation attempt).Divides)
    (state : RetryState) {s s' : Session} {trace : List Occurrence} {a : α}
    (run : ((policy.runFrom transient (fun d => (Plan.sleep d : Plan Unit)) operation state :
      Client (Outcome ε α)) s).Traces trace (.delivered a, s')) :
    ∃ attempt s₁ episodes last, trace = Episode.traces episodes ++ last ∧
      Course s episodes s₁ ∧ (operation attempt s₁).Traces last (.ok a, s') ∧
        (attempt = state.attempt ∨ ∃ first e s₂ rest, trace = first ++ rest ∧
          (operation state.attempt s).Traces first (.error e, s₂) ∧ transient e = true) := by
  induction remaining : state.remaining using Nat.strongRecOn generalizing state s trace with
  | _ n ih =>
    rw [RetryPolicy.runFrom_eq] at run
    obtain ⟨first, rest, ⟨result, s₂⟩, rfl, front, back⟩ := Plan.Traces.of_bind run
    cases step : state.advance transient policy result with
    | mk next state' =>
      dsimp only at back
      rw [step] at back
      cases next with
      | done outcome =>
        cases back
        obtain rfl := RetryState.ok_of_delivered step
        exact ⟨state.attempt, s, [], first, List.append_nil _, .done s, front, .inl rfl⟩
      | retry delay =>
        obtain ⟨e, rfl, mayPass⟩ := RetryState.transient_of_retry step
        have fewer := RetryState.remaining_lt_of_retry step
        obtain ⟨wait, later, ⟨_, s₃⟩, rfl, slept, again⟩ := Plan.Traces.of_bind back
        obtain ⟨waited, pause, rfl⟩ := divides_sleep delay _ _ _ _ slept
        obtain ⟨tried, course, rfl⟩ := divides state.attempt _ _ _ _ front
        obtain ⟨attempt, s₁, episodes, last, rfl, more, good, -⟩ :=
          ih _ (remaining ▸ fewer) _ again rfl
        refine ⟨attempt, s₁, tried ++ (waited ++ episodes), last, ?_,
          course.append (pause.append more), good, .inr ⟨_, e, s₂, _, rfl, front, mayPass⟩⟩
        simp only [Episode.traces_append, List.append_assoc]

end Client

namespace Producer

open BrokerConnection (Answered)

variable {answers : Answers} {w : Wires} {s : Session}

/-- What the broker has answered to an attempt that went well. -/
def WentWell (answers : Answers) (w w' : Wires) (r : PushRecord) (attempt : Nat) (id : String) :
    Prop :=
  Answered answers w w' r.toPacket (.accepted id) ∨
    1 < attempt ∧ id = r.id ∧
      ∃ text, Answered answers w w' r.toPacket (.error .duplicateMessage text)

private theorem WentWell.mono {w₁ w' : Wires} {r : PushRecord} {attempt : Nat} {id : String}
    (h : WentWell answers w₁ w' r attempt id) (grown : w.Grows w₁) :
    WentWell answers w w' r attempt id :=
  h.imp (·.mono grown fun _ => List.prefix_rfl) fun ⟨again, same, text, refused⟩ =>
    ⟨again, same, text, refused.mono grown fun _ => List.prefix_rfl⟩

private theorem ensures_transmit (settled : Session.Settled answers w s) (r : PushRecord)
    (attempt : Nat) :
    (tryPush.transmit r attempt s).Ensures answers.obliging w fun result w' =>
      ∀ id, result.1 = .ok id → WentWell answers w w' r attempt id := by
  refine Client.ensures_bind (settled.requestWithin r.toPacket s.config.requestTimeout) ?_
  rintro result s₁ w₁ ⟨-, own, reported⟩
  cases result with
  | ok reply =>
    cases reply with
    | accepted id =>
      rintro _ same
      obtain rfl := Except.ok.inj same
      exact .inl (own _ rfl)
    | _ =>
      refine Client.ensures_bind (Session.ensures_reset answers w₁ s₁) ?_
      exact fun _ _ _ _ => nofun
  | error e =>
    by_cases excused : (attempt > 1 && e.brokerCode? == some .duplicateMessage) = true
    · obtain ⟨again, duplicate⟩ := Bool.and_eq_true_iff.mp excused
      obtain ⟨text, rfl⟩ := reported e _ rfl (beq_iff_eq.mp duplicate)
      simp only [if_pos excused]
      rintro _ same
      obtain rfl := Except.ok.inj same
      exact .inr ⟨of_decide_eq_true again, rfl, text, own _ rfl⟩
    · simp only [if_neg excused]
      exact fun _ => nofun

private theorem ensures_tryPush (settled : Session.Settled answers w s) (r : PushRecord)
    (attempt : Nat) :
    (tryPush r attempt s).Ensures answers.obliging w fun result w' =>
      ∀ id, result.1 = .ok id → WentWell answers w w' r attempt id := by
  have transmit := ensures_transmit settled r attempt
  refine Client.ensures_get ?_
  cases s.connection.map (·.connection.maxMessageSize) with
  | none => exact transmit
  | some limit =>
    by_cases large : r.payload.length > limit
    · simp only [if_pos large]
      exact fun _ => nofun
    · simp only [if_neg large]
      exact transmit

end Producer

section Pushes

/-- The reply to a producer's push that comes to a hub, and the hub after it. -/
def Hub.answerPush (settings : Settings) (owner : Nat) (h : Hub) (m : Moment) (r : PushRecord) :
    Option Packet × Hub :=
  match Conversation.decide settings owner .producer r.toPacket with
  | .reply p => (some p, h)
  | .consult request _ =>
    let (replies, h) := h.handle m 0 request
    (replies.head?.map fun reply =>
      (Conversation.conclude r.toPacket (Call.resultOf reply.2)).1, h)
  | .part | .dismiss _ => (none, h)

def Hub.pushed (h : Hub) (m : Moment) (r : PushRecord) : Except QueueError Unit :=
  (h.queue.push r.id r.payload r.priority.toNat (Conversation.delayOf r.delay.toUInt32) m.now).1

variable {settings : Settings} {owner : Nat} {h : Hub} {m : Moment} {r : PushRecord}

private theorem Hub.answerPush_fst :
    (h.answerPush settings owner m r).1 =
      if r.payload.length > settings.maxMessageSize.toNat then
        some (Conversation.tooLarge settings r.id r.payload)
      else
        match h.pushed m r with
        | .ok () => some (.accepted r.id)
        | .error e => some (Packet.ofError e.code e.message) := by
  rw [answerPush, PushRecord.toPacket, Conversation.decide]
  split_ifs with large
  · rfl
  · simp only [handle, pushed]
    generalize h.queue.push r.id r.payload r.priority.toNat
      (Conversation.delayOf r.delay.toUInt32) m.now = outcome
    obtain ⟨_ | _, queue⟩ := outcome <;> rfl

private theorem Hub.pushed_of_accepted {id : String}
    (accepted : (h.answerPush settings owner m r).1 = some (.accepted id)) :
    h.pushed m r = .ok () ∧ id = r.id := by
  rw [answerPush_fst] at accepted
  split_ifs at accepted
  · cases accepted
  · cases result : h.pushed m r with
    | ok =>
      rw [result] at accepted
      cases accepted
      exact ⟨rfl, rfl⟩
    | error e =>
      rw [result] at accepted
      cases accepted

private theorem Hub.pushed_of_duplicate {text : String}
    (refused : (h.answerPush settings owner m r).1 = some (.error .duplicateMessage text)) :
    h.pushed m r = .error (.duplicateMessage r.id) := by
  rw [answerPush_fst] at refused
  split_ifs at refused
  · cases refused
  · rw [pushed, Queue.push] at refused ⊢
    split_ifs at refused ⊢ with invalid held full
    · cases refused
    · rfl
    · cases refused
    · cases refused

end Pushes

def Packet.isVerdict : Packet → Bool
  | .accepted _ | .error .duplicateMessage _ => true
  | _ => false

/-- A push in the course of a producer's session, with the hub as it stands when packet number `n`
on a link comes to it.  Whatever else may be the answer to the push, it is not accepted and not
called a duplicate but by the hub. -/
structure PushRun where
  settings : Settings
  owner : Nat → Nat
  hub : Nat → Nat → Hub
  moment : Nat → Nat → Moment
  answers : Answers
  start : Session
  opening : List Occurrence
  calls : List ClientCall
  earlier : List Occurrence
  before : Session
  record : PushRecord
  trace : List Occurrence
  outcome : Outcome ClientError String
  after : Session
  begins : start.Begins opening
  ran : (ClientCall.performAll calls start).Traces earlier ((), before)
  pushed : (Producer.push record before).Traces trace (outcome, after)
  allowed : answers.obliging.Allow .blank (opening ++ earlier ++ trace)
  judged : ∀ (link n : Nat) (codec : PacketCodec) (reply : Packet),
    ((answers.obliging.final .blank (opening ++ earlier)).packets link).length ≤ n →
    ((answers.obliging.final .blank (opening ++ earlier ++ trace)).packets link)[n]? =
      some (PacketCodec.body record.toPacket) →
    codec.decodeBody (answers.body link n) = .ok reply → reply.isVerdict = true →
      ((hub link n).answerPush settings (owner link) (moment link n) record).1 = some reply

namespace PushRun

def wires (run : PushRun) : Wires := run.answers.obliging.final .blank (run.opening ++ run.earlier)

def wiresAfter (run : PushRun) : Wires := run.answers.obliging.final run.wires run.trace

/-- What the hub makes of packet number `n` on a link, if it is a push of this record that was
written during this call. -/
def Made (run : PushRun) (link n : Nat) (result : Except QueueError Unit) : Prop :=
  (run.wires.packets link).length ≤ n ∧
    (run.wiresAfter.packets link)[n]? = some (PacketCodec.body run.record.toPacket) ∧
    (run.hub link n).pushed (run.moment link n) run.record = result

/-- During the call the broker has accepted a push of this record. -/
def Accepted (run : PushRun) : Prop := ∃ link n, run.Made link n (.ok ())

/-- The first attempt failed with something that may pass, and during the call the broker has
refused a push of this record because it holds a message of that name. -/
def HeldAtRetry (run : PushRun) : Prop :=
  (∃ first e s rest, run.trace = first ++ rest ∧
    (Producer.tryPush run.record 1 run.before).Traces first (.error e, s) ∧
      e.isRetryable = true) ∧
    ∃ link n, run.Made link n (.error (.duplicateMessage run.record.id))

private theorem made_of_answered {run : PushRun} {reply : Packet}
    (answered : BrokerConnection.Answered run.answers run.wires run.wiresAfter
      run.record.toPacket reply) (verdict : reply.isVerdict = true) :
    ∃ link n, ((run.hub link n).answerPush run.settings (run.owner link) (run.moment link n)
        run.record).1 = some reply ∧
      run.Made link n ((run.hub link n).pushed (run.moment link n) run.record) := by
  obtain ⟨link, n, codec, new, written, answer⟩ := answered
  have judged := run.judged link n codec reply new
  rw [Surroundings.final_append] at judged
  exact ⟨link, n, judged written answer verdict, new, written, rfl⟩

private theorem settled (run : PushRun) : Session.Settled run.answers run.wires run.before := by
  have first := ((run.answers.obliging.allow_append).mp run.allowed).1
  obtain ⟨opened, called⟩ := (run.answers.obliging.allow_append).mp first
  obtain ⟨episodes, course, same⟩ := ClientCall.divides_performAll _ _ _ _ _ run.ran
  rw [wires, Surroundings.final_append, same]
  exact course.settled (run.begins.settled opened) (same ▸ called)

private theorem exists_attempt (run : PushRun) {id : String}
    (delivered : run.outcome = .delivered id) :
    ∃ attempt, Producer.WentWell run.answers run.wires run.wiresAfter run.record attempt id ∧
      (attempt = 1 ∨ ∃ first e s rest, run.trace = first ++ rest ∧
        (Producer.tryPush run.record 1 run.before).Traces first (.error e, s) ∧
          e.isRetryable = true) := by
  have pushed := run.pushed
  rw [delivered] at pushed
  obtain ⟨attempt, s, episodes, last, cut, course, good, which⟩ :=
    Client.traces_runFrom _ _ (Client.divides_tryPush run.record) _ pushed
  have pushing := ((run.answers.obliging.allow_append).mp run.allowed).2
  change run.answers.obliging.Allow run.wires run.trace at pushing
  rw [cut] at pushing
  obtain ⟨waiting, trying⟩ := (run.answers.obliging.allow_append).mp pushing
  have well := (Producer.ensures_tryPush (course.settled run.settled waiting) run.record
    attempt).of_traces good trying id rfl
  refine ⟨attempt, ?_, which⟩
  rw [wiresAfter, cut, Surroundings.final_append]
  exact well.mono (Answers.grows_final _ _ _)

/-- A push that is reported as delivered was accepted by the broker during this call, or it was
tried more than once and refused because the broker holds a message of the same name. -/
theorem accepted_or_held_of_delivered (run : PushRun) (id : String)
    (delivered : run.outcome = .delivered id) :
    id = run.record.id ∧ (run.Accepted ∨ run.HeldAtRetry) := by
  obtain ⟨attempt, accepted | ⟨again, same, text, refused⟩, which⟩ := run.exists_attempt delivered
  · obtain ⟨link, n, reply, made⟩ := made_of_answered accepted rfl
    obtain ⟨result, same⟩ := Hub.pushed_of_accepted reply
    exact ⟨same, .inl ⟨link, n, result ▸ made⟩⟩
  · obtain ⟨link, n, reply, made⟩ := made_of_answered refused rfl
    have result := Hub.pushed_of_duplicate reply
    refine ⟨same, .inr ⟨?_, link, n, result ▸ made⟩⟩
    rcases which with one | failed
    · omega
    · exact failed

def kept : PushRecord := { id := "m", priority := 0, delay := Duration.zero, payload := [120] }

def lost : PushRecord := { kept with payload := [121] }

def emptyHub : Hub := Hub.ofSettings ({} : Settings).queue

def quiet : Moment := .steady (fun _ => true) Instant.start

def holdingHub : Hub := (emptyHub.answerPush {} 1 quiet kept).2

def refusal : Packet := .error .duplicateMessage "Duplicate message id 'm'"

private theorem answerPush_lost : (holdingHub.answerPush {} 2 quiet lost).1 = some refusal := by
  decide +kernel

/-- The packets of a broker that gets the first record over link 0, and the second one over any
other.  -/
def replies (link : Nat) : List Packet :=
  if link = 0 then
    [.welcome ⟨1, 1048576, 2⟩, ((emptyHub.answerPush {} 1 quiet kept).1).getD .empty]
  else [.welcome ⟨2, 1048576, 2⟩, refusal]

private theorem fair_replies (link : Nat) : (replies link).all Answers.isFair = true := by
  rw [replies]
  split_ifs <;> decide +kernel

def holding : Answers := .script replies fair_replies

def breaking : (action : Action) → Wires × Nat → action.Outcome × (Wires × Nat) :=
  holding.prompt fun link packets => link == 0 && packets == 2

def pushingKept : Plan (Unit × Session) :=
  ClientCall.performAll [.push kept] ⟨{ brokers := ["b"] }, .producer, none⟩

def afterKept : (Unit × Session) × (Wires × Nat) := pushingKept.run breaking (.blank, 0)

def traceOfKept : List Occurrence := pushingKept.trace breaking (.blank, 0)

def pushingLost : Plan (Outcome ClientError String × Session) := Producer.push lost afterKept.1.2

def afterLost : Outcome ClientError String × Session := (pushingLost.run breaking afterKept.2).1

def traceOfLost : List Occurrence := pushingLost.trace breaking afterKept.2

private theorem length_packets_afterKept :
    ((holding.obliging.final .blank ([] ++ traceOfKept)).packets 0).length = 2 := by
  decide +kernel

private theorem allow_both : holding.obliging.Allow .blank ([] ++ traceOfKept ++ traceOfLost) := by
  decide +kernel

/-- On a link other than the first the second packet is refused, and nothing else is said of a push.
-/
theorem reply_of_verdict {link n : Nat} {codec : PacketCodec} {reply : Packet}
    (late : link = 0 → 2 ≤ n) (heard : codec.decodeBody (holding.body link n) = .ok reply)
    (verdict : reply.isVerdict = true) : link ≠ 0 ∧ n = 1 ∧ reply = refusal := by
  have silent : ∀ {b : Bytes}, b = [] → codec.decodeBody b ≠ .ok reply := by
    rintro _ rfl
    exact nofun
  have body : holding.body link n = ((replies link)[n]?.map PacketCodec.body).getD [] := rfl
  by_cases first : link = 0
  · have none : (replies link)[n]? = none := by
      rw [replies, if_pos first]
      exact List.getElem?_eq_none (late first)
    rw [none] at body
    exact absurd heard (silent body)
  · rw [replies, if_neg first] at body
    match n, body with
    | 0, body =>
      have welcome : codec.decodeBody (holding.body link 0) = .ok (.welcome ⟨2, 1048576, 2⟩) := by
        rw [body]
        exact PacketCodec.decodeBody_body (c := PacketCodec.ofLimit 0) rfl nofun
      obtain rfl := Except.ok.inj (welcome.symm.trans heard)
      cases verdict
    | 1, body =>
      have refused : codec.decodeBody (holding.body link 1) = .ok refusal := by
        rw [body]
        exact PacketCodec.decodeBody_body (c := PacketCodec.ofLimit 0) (by decide +kernel) nofun
      exact ⟨first, rfl, Except.ok.inj (heard.symm.trans refused)⟩
    | n + 2, body => exact absurd heard (silent body)

/-- A producer pushes the first record, loses its connection, and pushes the second record. -/
def lostRun : PushRun where
  settings := {}
  owner link := if link = 0 then 1 else 2
  hub _ _ := holdingHub
  moment _ _ := quiet
  answers := holding
  start := ⟨{ brokers := ["b"] }, .producer, none⟩
  opening := []
  calls := [.push kept]
  earlier := traceOfKept
  before := afterKept.1.2
  record := lost
  trace := traceOfLost
  outcome := afterLost.1
  after := afterLost.2
  begins := .unconnected { brokers := ["b"] } .producer
  ran := pushingKept.traces_trace breaking (.blank, 0)
  pushed := pushingLost.traces_trace breaking afterKept.2
  allowed := allow_both
  judged := by
    intro link n codec reply late _ heard verdict
    have since : link = 0 → 2 ≤ n := by
      rintro rfl
      exact length_packets_afterKept ▸ late
    obtain ⟨other, -, rfl⟩ := reply_of_verdict since heard verdict
    rw [if_neg other]
    exact answerPush_lost

private theorem lostRun_delivered : lostRun.outcome = .delivered "m" := by
  have value : afterLost.1.delivered? = some "m" := by decide +kernel
  show afterLost.1 = _
  cases outcome : afterLost.1 with
  | delivered id =>
    rw [outcome] at value
    exact congrArg _ (Option.some.inj value)
  | rejected e =>
    rw [outcome] at value
    cases value
  | exhausted attempts last =>
    rw [outcome] at value
    cases value

theorem accepted_or_held_of_lost :
    lostRun.outcome = .delivered "m" ∧
      "m" = lostRun.record.id ∧ (lostRun.Accepted ∨ lostRun.HeldAtRetry) :=
  ⟨lostRun_delivered, accepted_or_held_of_delivered lostRun "m" lostRun_delivered⟩

/-- A push may be reported as delivered although the broker has accepted none during the call, and
holds another payload under the name of the record. -/
theorem delivered_but_not_accepted :
    ∃ run : PushRun, (∃ id, run.outcome = .delivered id) ∧ ¬run.Accepted ∧
      ∀ link n m, m ∈ (run.hub link n).queue.messages → m.payload ≠ run.record.payload := by
  refine ⟨lostRun, ⟨"m", lostRun_delivered⟩, ?_, ?_⟩
  · rintro ⟨link, n, -, -, accepted⟩
    have refused : holdingHub.pushed quiet lost = .error (.duplicateMessage "m") := by
      decide +kernel
    cases refused.symm.trans accepted
  · have payloads : ∀ m ∈ holdingHub.queue.messages, m.payload ≠ lost.payload := by decide +kernel
    exact fun _ _ => payloads

end PushRun
end WorkBroker
