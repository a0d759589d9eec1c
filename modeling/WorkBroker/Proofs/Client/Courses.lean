import WorkBroker.Client.Roles
import WorkBroker.Proofs.Client.Pairing
/-!
Whole sessions.  Producers, consumers and monitors do nothing on the network but send requests, give
up connections and wait, so whatever a client calls divides into such episodes.  Along them a
session stays settled: it never writes a request on a connection that still owes it a reply, and
what it takes for the reply to a request is the reply to that request.
-/

set_option autoImplicit false
set_option relaxedAutoImplicit false

namespace WorkBroker

open Net

instance : LawfulMonad Plan :=
  LawfulMonad.mk' Plan Plan.bind_pure_done (fun _ _ => rfl) Plan.bind_assoc

/-- Something that a client does with its session. -/
inductive Act
  | request (p : Packet) (limit : Duration) (result : Except ClientError Packet)
  | reset
  | pause (d : Duration)

/-- An act of a client, with what went over the network meanwhile. -/
structure Episode where
  act : Act
  before : Session
  trace : List Occurrence
  after : Session

namespace Episode

/-- Whether the act may have gone that way. -/
def Happens (e : Episode) : Prop :=
  match e.act with
  | .request p limit result =>
    (Session.requestWithin p limit e.before).Traces e.trace (result, e.after)
  | .reset => (Session.reset e.before).Traces e.trace ((), e.after)
  | .pause d => (Plan.sleep d).Traces e.trace () ∧ e.after = e.before

def traces (episodes : List Episode) : List Occurrence := episodes.flatMap (·.trace)

theorem traces_append (first later : List Episode) :
    traces (first ++ later) = traces first ++ traces later := List.flatMap_append

end Episode

/-- Episodes that lead from one state of a session to another. -/
inductive Course : Session → List Episode → Session → Prop
  | done (s : Session) : Course s [] s
  | next {e : Episode} {rest : List Episode} {s : Session} (happens : e.Happens)
      (course : Course e.after rest s) : Course e.before (e :: rest) s

private theorem Course.single {e : Episode} (happens : e.Happens) : Course e.before [e] e.after :=
  .next happens (.done _)

theorem Course.append {s₁ s₂ s₃ : Session} {first later : List Episode} (h : Course s₁ first s₂)
    (more : Course s₂ later s₃) : Course s₁ (first ++ later) s₃ := by
  induction h with
  | done s => exact more
  | next happens _ ih => exact .next happens (ih more)

private theorem Course.cut {s s' : Session} {first later : List Episode} {e : Episode}
    (h : Course s (first ++ e :: later) s') : Course s first e.before ∧ e.Happens := by
  induction first generalizing s with
  | nil =>
    cases h with
    | next happens _ => exact ⟨.done _, happens⟩
  | cons x first ih =>
    cases h with
    | next happens course =>
      obtain ⟨front, inside⟩ := ih course
      exact ⟨.next happens front, inside⟩

namespace Client

variable {α β : Type}

section Traces

variable {trace : List Occurrence} {s s' : Session}

end Traces

/-- A program that does nothing on the network but what its episodes say. -/
def Divides (c : Client α) : Prop :=
  ∀ (s : Session) (trace : List Occurrence) (a : α) (s' : Session),
    (c s).Traces trace (a, s') → ∃ episodes, Course s episodes s' ∧ trace = Episode.traces episodes

private theorem divides_of_idle {c : Client α} {f : Session → α} (h : ∀ s, c s = .done (f s, s)) :
    c.Divides := by
  intro s trace a s' run
  rw [h s] at run
  cases run
  exact ⟨[], .done s, rfl⟩

private theorem divides_pure (a : α) : Divides (pure a : Client α) := divides_of_idle fun _ => rfl

private theorem divides_get : Divides (get : Client Session) := divides_of_idle fun _ => rfl

private theorem Divides.bind {c : Client α} {f : α → Client β} (h : c.Divides)
    (next : ∀ a, (f a).Divides) : (c >>= f).Divides := by
  intro s trace b s' run
  obtain ⟨first, later, ⟨a, s₁⟩, rfl, front, back⟩ := Plan.Traces.of_bind run
  obtain ⟨before, course, rfl⟩ := h s first a s₁ front
  obtain ⟨after, more, rfl⟩ := next a s₁ later b s' back
  exact ⟨before ++ after, course.append more, (Episode.traces_append before after).symm⟩

private theorem divides_requestWithin (p : Packet) (limit : Duration) :
    (Session.requestWithin p limit).Divides := by
  intro s trace result s' run
  have happens : Episode.Happens ⟨.request p limit result, s, trace, s'⟩ := run
  exact ⟨_, .single happens, (List.append_nil trace).symm⟩

private theorem divides_reset : Session.reset.Divides := by
  intro s trace _ s' run
  have happens : Episode.Happens ⟨.reset, s, trace, s'⟩ := run
  exact ⟨_, .single happens, (List.append_nil trace).symm⟩

theorem divides_sleep (d : Duration) : Divides ((Plan.sleep d : Plan Unit) : Client Unit) := by
  intro s trace _ s' run
  obtain ⟨first, later, _, rfl, front, back⟩ := Plan.Traces.of_bind run
  cases back
  have happens : Episode.Happens ⟨.pause d, s, first, s⟩ := ⟨front, rfl⟩
  exact ⟨_, .single happens, rfl⟩

private theorem divides_request (p : Packet) : (Session.request p).Divides :=
  divides_get.bind fun _ => divides_requestWithin p _

private theorem divides_unexpected (wanted : String) (got : Packet) :
    (Session.unexpected (α := α) wanted got).Divides :=
  divides_reset.bind fun _ => divides_pure _

private theorem divides_runFrom {ε : Type} (policy : RetryPolicy) (transient : ε → Bool)
    {operation : Nat → Client (Except ε α)} (h : ∀ attempt, (operation attempt).Divides)
    (state : RetryState) :
    (policy.runFrom transient (fun d => (Plan.sleep d : Plan Unit)) operation state :
      Client (Outcome ε α)).Divides := by
  induction remaining : state.remaining using Nat.strongRecOn generalizing state with
  | _ n ih =>
    rw [RetryPolicy.runFrom]
    refine (h _).bind fun result => ?_
    split
    · exact divides_pure _
    · rename_i delay next step
      have fewer := RetryState.remaining_lt_of_retry step
      exact (divides_sleep delay).bind fun _ => ih _ (remaining ▸ fewer) next rfl

theorem divides_tryPush (r : PushRecord) (attempt : Nat) :
    (Producer.tryPush r attempt).Divides := by
  have transmit : (Producer.tryPush.transmit r attempt).Divides := by
    refine (divides_request _).bind fun result => ?_
    split
    · exact divides_pure _
    · exact divides_unexpected _ _
    · split <;> exact divides_pure _
  refine divides_get.bind fun s => ?_
  dsimp only
  split
  · split
    · exact divides_pure _
    · exact transmit
  · exact transmit

private theorem divides_push (r : PushRecord) : (Producer.push r).Divides :=
  divides_get.bind fun _ => divides_runFrom _ _ (divides_tryPush r) _

private theorem divides_receive (p : Packet) (wait : Duration) :
    (Consumer.receive p wait).Divides := by
  refine divides_get.bind fun s => (divides_requestWithin p _).bind fun result => ?_
  split
  · exact divides_pure _
  · exact divides_pure _
  · exact divides_pure _
  · exact divides_unexpected _ _

private theorem divides_settle (d : Delivery) (requeue : Bool) (delay : Duration) :
    (Consumer.settle d requeue delay).Divides := by
  refine (divides_request _).bind fun result => ?_
  split
  · exact divides_pure _
  · split
    · exact divides_pure _
    · exact divides_unexpected _ _
  · exact divides_unexpected _ _

private theorem divides_counts : Monitor.counts.Divides := by
  refine (divides_request _).bind fun result => ?_
  split
  · exact divides_pure _
  · exact divides_pure _
  · exact divides_unexpected _ _

private theorem divides_failed (limit : UInt32) : (Monitor.failed limit).Divides := by
  refine (divides_request _).bind fun result => ?_
  split
  · exact divides_pure _
  · exact divides_pure _
  · exact divides_unexpected _ _

private theorem divides_eraseChunks (chunks : List (List String)) :
    (Monitor.eraseChunks chunks).Divides := by
  induction chunks with
  | nil => exact divides_pure _
  | cons ids rest ih =>
    refine (divides_request _).bind fun result => ?_
    split
    · exact divides_pure _
    · refine ih.bind fun others => ?_
      split <;> exact divides_pure _
    · exact divides_unexpected _ _

private theorem divides_purgeFrom (rounds total : Nat) :
    (Monitor.purgeFrom rounds total).Divides := by
  induction rounds generalizing total with
  | zero => exact divides_pure _
  | succ rounds ih =>
    refine (divides_failed _).bind fun page => ?_
    split
    · exact divides_pure _
    · exact divides_pure _
    · refine (divides_eraseChunks _).bind fun erased => ?_
      split
      · exact divides_pure _
      · split
        · exact divides_pure _
        · exact ih _

end Client

/-- What a producer, a consumer or a monitor may call, and what their sessions offer beneath. -/
inductive ClientCall
  | request (p : Packet)
  | requestWithin (p : Packet) (limit : Duration)
  | reset
  | sleep (d : Duration)
  | push (r : PushRecord)
  | pop (wait : Duration)
  | settle (d : Delivery) (requeue : Bool) (delay : Duration)
  | settleAndPop (d : Delivery) (requeue : Bool) (delay wait : Duration)
  | counts
  | failed (limit : UInt32)
  | eraseFailed (ids : List String)
  | purgeFailed (rounds : Nat)

namespace ClientCall

open Client

def perform : ClientCall → Client Unit
  | .request p => do let _ ← Session.request p
  | .requestWithin p limit => do let _ ← Session.requestWithin p limit
  | .reset => Session.reset
  | .sleep d => (Plan.sleep d : Plan Unit)
  | .push r => do let _ ← Producer.push r
  | .pop wait => do let _ ← Consumer.pop wait
  | .settle d requeue delay => do let _ ← Consumer.settle d requeue delay
  | .settleAndPop d requeue delay wait => do let _ ← Consumer.settleAndPop d requeue delay wait
  | .counts => do let _ ← Monitor.counts
  | .failed limit => do let _ ← Monitor.failed limit
  | .eraseFailed ids => do let _ ← Monitor.eraseFailed ids
  | .purgeFailed rounds => do let _ ← Monitor.purgeFailed rounds

def performAll : List ClientCall → Client Unit
  | [] => return ()
  | call :: rest => do
    call.perform
    performAll rest

private theorem divides_perform (call : ClientCall) : call.perform.Divides := by
  have ends : ∀ {α : Type}, α → Divides (pure () : Client Unit) := fun _ => divides_pure ()
  cases call with
  | request p => exact (divides_request p).bind ends
  | requestWithin p limit => exact (divides_requestWithin p limit).bind ends
  | reset => exact divides_reset
  | sleep d => exact divides_sleep d
  | push r => exact (divides_push r).bind ends
  | pop wait => exact (divides_receive _ wait).bind ends
  | settle d requeue delay => exact (divides_settle d requeue delay).bind ends
  | settleAndPop d requeue delay wait => exact (divides_receive _ wait).bind ends
  | counts => exact divides_counts.bind ends
  | failed limit => exact (divides_failed limit).bind ends
  | eraseFailed ids => exact (divides_eraseChunks _).bind ends
  | purgeFailed rounds => exact (divides_purgeFrom rounds 0).bind ends

theorem divides_performAll (calls : List ClientCall) : (performAll calls).Divides := by
  induction calls with
  | nil => exact Client.divides_pure ()
  | cons call rest ih => exact call.divides_perform.bind fun _ => ih

end ClientCall

section Settling

variable {answers : Answers} {w : Wires}

/-- An episode ends as settled as it began. -/
theorem Episode.Happens.settled {e : Episode} (happens : e.Happens)
    (settled : Session.Settled answers w e.before) (allowed : answers.obliging.Allow w e.trace) :
    Session.Settled answers (answers.obliging.final w e.trace) e.after := by
  obtain ⟨act, before, trace, after⟩ := e
  cases act with
  | request p limit result =>
    exact ((settled.requestWithin p limit).of_traces happens allowed).settled
  | reset =>
    have reset := (Session.ensures_reset answers w before).of_traces happens allowed
    exact Session.settled_of_none reset
  | pause d =>
    obtain ⟨slept, same⟩ : (Plan.sleep d).Traces trace () ∧ after = before := happens
    subst same
    have idle : (Plan.sleep d).Ensures answers.obliging w fun _ w' => w' = w := fun _ _ _ _ => rfl
    have same : answers.obliging.final w trace = w := idle.of_traces slept allowed
    exact same.symm ▸ settled

theorem Course.settled {s s' : Session} {episodes : List Episode} (course : Course s episodes s')
    (settled : Session.Settled answers w s)
    (allowed : answers.obliging.Allow w (Episode.traces episodes)) :
    Session.Settled answers (answers.obliging.final w (Episode.traces episodes)) s' := by
  induction course generalizing w with
  | done s => exact settled
  | @next e rest s happens _ ih =>
    obtain ⟨first, later⟩ := (answers.obliging.allow_append).mp allowed
    have whole := ih (happens.settled settled first) later
    rwa [← Surroundings.final_append] at whole

end Settling

/-- What went over the network before a session began: it was started with a connection, or it has
none yet and nothing has happened. -/
inductive Session.Begins : Session → List Occurrence → Prop
  | connected {config : ClientConfig} {role : Role} {opening : List Occurrence} {s : Session}
      (run : (Session.connect config role).Traces opening (.ok s)) : Begins s opening
  | unconnected (config : ClientConfig) (role : Role) : Begins ⟨config, role, none⟩ []

/-- Whether requests and replies stay together in an episode that starts with these wires: a
connection that is held open owes no reply, and a packet that comes for a request is the answer to
it. -/
structure Episode.Paired (answers : Answers) (w : Wires) (e : Episode) : Prop where
  owesNothing : ∀ b, e.before.connection = some b → b.isOpen →
    b.connection.InStep answers w (w.packets b.connection.link)
  own : ∀ p limit result reply, e.act = .request p limit result →
    BrokerConnection.heard? result = some reply →
      BrokerConnection.Answered answers w (answers.obliging.final w e.trace) p reply

private theorem Episode.Happens.paired {answers : Answers} {w : Wires} {e : Episode}
    (happens : e.Happens) (settled : Session.Settled answers w e.before)
    (allowed : answers.obliging.Allow w e.trace) : e.Paired answers w := by
  refine ⟨fun b held isOpen => (settled b held isOpen).inStep, ?_⟩
  intro p limit result reply isRequest heard
  obtain ⟨act, before, trace, after⟩ := e
  obtain rfl : act = .request p limit result := isRequest
  exact ((settled.requestWithin p limit).of_traces happens allowed).told.own reply heard

theorem Session.Begins.settled {answers : Answers} {s : Session} {opening : List Occurrence}
    (begins : Begins s opening) (allowed : answers.obliging.Allow .blank opening) :
    Settled answers (answers.obliging.final .blank opening) s := by
  cases begins with
  | connected run => exact (ensures_connect answers .blank _ _).of_traces run allowed s rfl
  | unconnected config role => exact settled_of_none rfl

/-- A reply is never taken for the reply to another request.  Whatever a client calls and however
its calls fare, as long as the broker answers every packet with one packet in order: whenever the
client is about to write on a connection that it holds open, it has had every answer that the broker
owes on it, and a packet that it is told about is the broker's answer to the very request that it
made. -/
theorem replies_are_own {answers : Answers} {s₀ s : Session} {opening trace : List Occurrence}
    {calls : List ClientCall} (begins : s₀.Begins opening)
    (ran : (ClientCall.performAll calls s₀).Traces trace ((), s))
    (allowed : answers.obliging.Allow .blank (opening ++ trace)) :
    ∃ episodes, Course s₀ episodes s ∧ trace = Episode.traces episodes ∧
      ∀ earlier e later, episodes = earlier ++ e :: later →
        e.Paired answers (answers.obliging.final .blank (opening ++ Episode.traces earlier)) := by
  obtain ⟨episodes, course, rfl⟩ := ClientCall.divides_performAll calls s₀ trace () s ran
  refine ⟨episodes, course, rfl, ?_⟩
  rintro earlier e later rfl
  obtain ⟨front, happens⟩ := course.cut
  rw [Episode.traces_append] at allowed
  obtain ⟨first, rest⟩ := (answers.obliging.allow_append).mp allowed
  obtain ⟨before, others⟩ := (answers.obliging.allow_append).mp rest
  have now : answers.obliging.Allow _ e.trace := ((answers.obliging.allow_append).mp others).1
  have settled := front.settled (begins.settled first) before
  rw [Surroundings.final_append]
  exact happens.paired settled now

/-- A broker that welcomes a client and then tells how full its queue is. -/
def counting : Answers :=
  .script (fun _ => [.welcome ⟨1, 250, 2⟩, .counts 10 0 0 10, .counts 10 1 0 9])
    fun _ => by decide +kernel

def askingThrice : Plan (Unit × Session) :=
  ClientCall.performAll [.counts, .counts, .counts] ⟨{ brokers := ["b"] }, .monitor, none⟩

/-- What a monitor goes through whose first connection breaks at the second request. -/
def thriceOverTwo : List Occurrence :=
  askingThrice.trace (counting.prompt fun link packets => link == 0 && packets == 2) (.blank, 0)

private theorem allow_thriceOverTwo : counting.obliging.Allow .blank thriceOverTwo := by
  decide +kernel

theorem replies_are_own_over_two_connections :
    ∃ s, Session.Begins ⟨{ brokers := ["b"] }, .monitor, none⟩ [] ∧
      askingThrice.Traces thriceOverTwo ((), s) ∧
      counting.obliging.Allow .blank ([] ++ thriceOverTwo) ∧
      ∃ episodes, Course ⟨{ brokers := ["b"] }, .monitor, none⟩ episodes s ∧
        thriceOverTwo = Episode.traces episodes ∧
        ∀ earlier e later, episodes = earlier ++ e :: later →
          e.Paired counting (counting.obliging.final .blank ([] ++ Episode.traces earlier)) := by
  have begins := Session.Begins.unconnected { brokers := ["b"] } .monitor
  have ran := askingThrice.traces_trace
    (counting.prompt fun link packets => link == 0 && packets == 2) (.blank, 0)
  exact ⟨_, begins, ran, allow_thriceOverTwo, replies_are_own begins ran allow_thriceOverTwo⟩

end WorkBroker
