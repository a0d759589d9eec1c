import Mathlib.Data.List.Nodup
import WorkBroker.Client.RoundTrip
import WorkBroker.Proofs.Client.Courses
/-!
What a scripted run proves.  The loop that takes messages back is cut into rounds, and it is said
once what a round may come to.  A round that does not end the run takes one message off those that
are expected, so the loop is over after as many rounds as there were messages; and a run that ends
well has received each of them once, as it was pushed, whatever the broker sent.
-/

set_option autoImplicit false
set_option relaxedAutoImplicit false

namespace WorkBroker

open Net

namespace ExitStatus

end ExitStatus

namespace Script

variable {s : Script} {config : ClientConfig} {clientId process : String}

section Names

theorem messageId_injective (clientId process : String) :
    Function.Injective (messageId clientId process) := by
  intro i j same
  have digits : Nat.repr i = Nat.repr j :=
    (String.append_right_inj (clientId ++ "-" ++ process ++ "-")).mp same
  have chars := congrArg String.toList digits
  rw [Nat.toList_repr, Nat.toList_repr] at chars
  rw [← Nat.ofDigitChars_ten_toDigits (n := i), chars, Nat.ofDigitChars_ten_toDigits]

end Names

section Pushing

/-- Records that are pushed in turn, each of which is reported as delivered. -/
inductive Pushed : List PushRecord → Session → List Occurrence → Session → Prop
  | none (producer : Session) : Pushed [] producer [] producer
  | next {record : PushRecord} {rest : List PushRecord} {id : String}
      {producer producer' producer'' : Session} {first later : List Occurrence}
      (push : (Producer.push record producer).Traces first (.delivered id, producer'))
      (others : Pushed rest producer' later producer'') :
      Pushed (record :: rest) producer (first ++ later) producer''

end Pushing

section Rounds

/-- Where the loop stands before a round: what is expected, what came of asking for a delivery, and
the report so far. -/
structure Taking where
  expected : Expected
  next : Except ClientError (Option Delivery)
  report : Report

def round (s : Script) (t : Taking) : Client (Report ⊕ Taking) :=
  match t.next with
  | .error e => return .inl (← stop t.report (.ofError e) s!"pop failed: {e.message}")
  | .ok none =>
    return .inl
      (← stop t.report .deliveryFailed s!"{t.expected.length} expected messages never arrived")
  | .ok (some d) => do
    let r := { t.report with received := t.report.received + 1 }
    match t.expected.find? (·.1 == d.id) with
    | none => return .inl (← stop r .protocolFailed s!"unexpected message {d.id}")
    | some (_, payload) => do
      let rest := t.expected.eraseP (·.1 == d.id)
      if payload ≠ d.payload then
        return .inl (← stop r .protocolFailed s!"payload mismatch for {d.id}")
      else
        match ← s.settle d (!rest.isEmpty) with
        | .error e =>
          return .inl (← stop r (.ofFailedAck e) s!"ack of {d.id} failed: {e.message}")
        | .ok following => do
          let r := { r with acked := r.acked + 1 }
          if rest.isEmpty then return .inl r else return .inr ⟨rest, .ok following, r⟩

def ackPacket (d : Delivery) : Packet :=
  .ack d.id (UInt64.ofNat d.token) false Duration.zero.toUInt32

def ackPopPacket (s : Script) (d : Delivery) : Packet :=
  .ackPop d.id (UInt64.ofNat d.token) false Duration.zero.toUInt32 s.popWait.toUInt32

/-- Whether a reply carries what came of asking for a delivery. -/
def Carries : Packet → Option Delivery → Prop
  | .deliver id token attempt payload, some d => d = ⟨id, token.toNat, attempt.toNat, payload⟩
  | .empty, none => True
  | _, _ => False

/-- A request is answered, and not with an error. -/
def Granted (p reply : Packet) (c : Session) (trace : List Occurrence) (c' : Session) : Prop :=
  ∃ limit, (Session.requestWithin p limit c).Traces trace (.ok reply, c')

/-- At most so many rounds of the loop, and its report if it is over by then. -/
def rounds (s : Script) : Nat → Taking → Client (Option Report)
  | 0, _ => return none
  | n + 1, t => do
    match ← s.round t with
    | .inl r => return some r
    | .inr t' => s.rounds n t'

/-- Deliveries that have come one after another, the first of them before.  Each but the last is
settled by the request that asks for the next one. -/
inductive TakenBack (s : Script) :
    Delivery → List Delivery → Session → List Occurrence → Session → Prop
  | last {d : Delivery} {c c' : Session} {trace : List Occurrence}
      (settled : Granted (ackPacket d) (.acked d.id) c trace c') : TakenBack s d [] c trace c'
  | next {d d' : Delivery} {others : List Delivery} {c c' c'' : Session}
      {first later : List Occurrence} {reply : Packet}
      (settled : Granted (s.ackPopPacket d) reply c first c') (carries : Carries reply (some d'))
      (rest : TakenBack s d' others c' later c'') :
      TakenBack s d (d' :: others) c (first ++ later) c''

def contents (d : Delivery) : String × Bytes := (d.id, d.payload)

/-- The report of a run that has gone well up to some round, with so many messages still to come. -/
structure Taking.GoesWell (s : Script) (t : Taking) : Prop where
  pushed : t.report.pushed = s.messages
  received : t.report.received + t.expected.length = s.messages
  acked : t.report.acked = t.report.received
  status : t.report.status = .success
  detail : t.report.detail = none
  more : t.expected ≠ []

/-- What every report says: no more than there is, no more settled than received, at most one
delivery received that is not settled, and a reason where the run did not go well. -/
structure Sound (s : Script) (r : Report) : Prop where
  pushed : r.pushed ≤ s.messages
  received : r.received ≤ s.messages
  settled : r.acked ≤ r.received
  pending : r.received ≤ r.acked + 1
  explained : r.status ≠ .success → r.detail.isSome

/-- What the report of a run says that went well. -/
def complete (s : Script) : Report :=
  { status := .success, pushed := s.messages, received := s.messages, acked := s.messages }

section GoingWell

variable {t : Taking}

private theorem Taking.GoesWell.next (well : t.GoesWell s) {rest : Expected}
    {following : Option Delivery} (fewer : t.expected.length = rest.length + 1) (more : rest ≠ []) :
    Taking.GoesWell s ⟨rest, .ok following,
      { t.report with received := t.report.received + 1, acked := t.report.acked + 1 }⟩ where
  pushed := well.pushed
  received := by
    have total := well.received
    show t.report.received + 1 + rest.length = s.messages
    omega
  acked := congrArg (· + 1) well.acked
  status := well.status
  detail := well.detail
  more := more

end GoingWell

/-- Deliveries that have come in answer to requests, each of them settled. -/
inductive Retrieved (s : Script) : List Delivery → Session → List Occurrence → Session → Prop
  | none (c : Session) : Retrieved s [] c [] c
  | some {d : Delivery} {others : List Delivery} {c c' c'' : Session}
      {first later : List Occurrence} {reply : Packet}
      (popped : Granted (.pop s.popWait.toUInt32) reply c first c')
      (carries : Carries reply (.some d)) (back : s.TakenBack d others c' later c'') :
      Retrieved s (d :: others) c (first ++ later) c''

end Rounds

section Runs

/-- The way over the network of a run that goes well: two sessions are opened, every message is
pushed in one of them and reported as delivered, and every message comes back once in the other, as
it was pushed, and is settled. -/
inductive MakesRoundTrip (s : Script) (config : ClientConfig) (process : String) :
    List Occurrence → Prop
  | made {producer producer' consumer consumer' : Session} {deliveries : List Delivery}
      {first second pushing taking closing : List Occurrence}
      (producer_opens : (Session.connect config .producer).Traces first (.ok producer))
      (consumer_opens : (Session.connect config .consumer).Traces second (.ok consumer))
      (pushed : Pushed ((List.range s.messages).map (s.record config.name process)) producer
        pushing producer')
      (back : s.Retrieved deliveries consumer taking consumer')
      (own : (deliveries.map contents).Perm (s.expected config.name process)) :
      MakesRoundTrip s config process (first ++ (second ++ (pushing ++ (taking ++ closing))))

private theorem MakesRoundTrip.append {trace : List Occurrence}
    (trip : s.MakesRoundTrip config process trace) (more : List Occurrence) :
    s.MakesRoundTrip config process (trace ++ more) := by
  cases trip with
  | made producer_opens consumer_opens pushed back own =>
    simp only [List.append_assoc]
    exact .made producer_opens consumer_opens pushed back own

/-- What the broker has to say: to the producer that its messages are accepted, and to the consumer
the messages, the later one first. -/
private def replies (link : Nat) : List Packet :=
  if link = 0 then [.welcome ⟨1, 1048576, 2⟩, .accepted "c-1-0", .accepted "c-1-1"]
  else
    [.welcome ⟨2, 1048576, 2⟩, .deliver "c-1-1" 1 1 [31, 32, 33], .deliver "c-1-0" 2 1 [0, 1, 2],
      .acked "c-1-0"]

private theorem fair_replies (link : Nat) : (replies link).all Net.Answers.isFair = true := by
  rw [replies]
  split_ifs <;> decide +kernel

end Runs

end Script
end WorkBroker
