import WorkBroker.Client.Session
import WorkBroker.Proofs.Client.Exchange
/-!
Requests and replies of a session.  Replies carry no name of their request, so a session relies on
order alone: it writes a request only where every answer has been had.  A connection on which a
request went wrong is in step all the same, or closed, or given up on the spot.
-/

set_option autoImplicit false
set_option relaxedAutoImplicit false

namespace WorkBroker

open Net

theorem ClientError.brokerCode?_ofConnection (e : ConnectionError) :
    (ofConnection e).brokerCode? = none := by
  cases e <;> rfl

section Retrying

variable {σ ε α : Type} {e : Surroundings σ} {Q : α → σ → Prop}

theorem RetryState.ok_of_delivered {transient : ε → Bool} {policy : RetryPolicy}
    {state next : RetryState} {result : Except ε α} {a : α}
    (step : state.advance transient policy result = (.done (.delivered a), next)) :
    result = .ok a := by
  unfold advance at step
  split at step
  · simp_all
  · simp_all
  · simp_all
  · split at step
    · simp_all
    · split at step <;> simp_all

theorem RetryPolicy.runFrom_eq {m : Type → Type} [Monad m] (policy : RetryPolicy)
    (transient : ε → Bool) (sleep : Duration → m Unit) (operation : Nat → m (Except ε α))
    (state : RetryState) :
    policy.runFrom transient sleep operation state =
      operation state.attempt >>= fun result =>
        match state.advance transient policy result with
        | (.done outcome, _) => pure outcome
        | (.retry delay, next) =>
          sleep delay >>= fun _ => policy.runFrom transient sleep operation next := by
  rw [runFrom]
  congr
  funext result
  split <;> simp_all

private theorem RetryPolicy.ensures_runFrom (policy : RetryPolicy) (transient : ε → Bool)
    {operation : Nat → Plan (Except ε α)}
    (h : ∀ attempt s, (operation attempt).Ensures e s fun result s' => ∀ a, result = .ok a → Q a s')
    (state : RetryState) (s : σ) :
    (policy.runFrom transient Plan.sleep operation state).Ensures e s fun outcome s' =>
      ∀ a, outcome = .delivered a → Q a s' := by
  induction remaining : state.remaining using Nat.strongRecOn generalizing state s with
  | _ n ih =>
    rw [RetryPolicy.runFrom]
    refine (h _ s).bind fun result s₁ good => ?_
    split
    · rename_i outcome next step
      intro a delivered
      exact good a (RetryState.ok_of_delivered (delivered ▸ step))
    · rename_i delay next step
      have fewer := RetryState.remaining_lt_of_retry step
      exact fun _ _ _ _ => ih _ (remaining ▸ fewer) next _ rfl

end Retrying

namespace BrokerConnection

variable {answers : Answers} {w : Wires}

/-- A connection on which the next packet to come is the answer to the next packet that goes. -/
structure Ready (answers : Answers) (w : Wires) (b : BrokerConnection) : Prop where
  inStep : b.connection.InStep answers w (w.packets b.connection.link)
  room : b.connection.codec.maxFrameSize ≤ maxHeaderValue

inductive Reached (answers : Answers) : Except ClientError BrokerConnection → Wires → Prop
  | opened {b : BrokerConnection} {w : Wires} (isOpen : b.isOpen) (ready : b.Ready answers w) :
      Reached answers (.ok b) w
  | failed {e : ClientError} {w : Wires} (silent : e.brokerCode? = none) :
      Reached answers (.error e) w

private theorem ensures_openAt (answers : Answers) (config : ClientConfig) (role : Role)
    (broker : String) (w : Wires) :
    (openAt config role broker).Ensures answers.obliging w (Reached answers) := by
  intro _ _ now _ outcome may
  cases outcome with
  | elapsed => exact .failed rfl
  | failed failure => exact .failed rfl
  | connected link =>
    obtain ⟨written, taken⟩ : w.written link = [] ∧ w.taken link = [] := may
    have fresh : (Connection.ofLink 0 broker link config.maxMessageSize).InStep answers w [] :=
      ⟨nofun, written, taken, rfl⟩
    refine (fresh.greet rfl role config.name config.connectionTimeout).bind ?_
    rintro ⟨result, c'⟩ w' welcomed
    cases result with
    | error e =>
      refine (Plan.Ensures.of_always (Q := fun _ _ => True) fun _ _ => trivial).bind ?_
      exact fun _ _ _ _ _ => .failed (ClientError.brokerCode?_ofConnection e)
    | ok terms =>
      obtain ⟨isOpen, inStep, answer⟩ := welcomed terms rfl
      refine .opened (beq_iff_eq.mpr isOpen) ⟨(inStep.setMaxMessageSize _).whole, ?_⟩
      have within := answers.terms _ _ _ (PacketCodec.eq_body_of_welcome answer)
      show min _ _ + envelopeRoom ≤ _
      simp only [Settings.maxPayloadLimit, maxHeaderValue, envelopeRoom] at within ⊢
      omega

private theorem ensures_connectTo (answers : Answers) (config : ClientConfig) (role : Role)
    (brokers : List String) (last : ClientError) (silent : last.brokerCode? = none) (w : Wires) :
    (connectTo config role last brokers).Ensures answers.obliging w (Reached answers) := by
  induction brokers generalizing last w with
  | nil => exact .failed silent
  | cons broker rest ih =>
    refine (ensures_openAt answers config role broker w).bind ?_
    intro result w' reached
    cases reached with
    | opened isOpen ready => exact .opened isOpen ready
    | failed silent => exact fun _ _ => ih _ silent _

private theorem ensures_connect (answers : Answers) (config : ClientConfig) (role : Role)
    (w : Wires) :
    (connect config role).Ensures answers.obliging w (Reached answers) :=
  ensures_connectTo answers config role config.brokers .noBrokers rfl w

def heard? : Except ClientError Packet → Option Packet
  | .ok reply => some reply
  | .error (.broker code text) => some (.error code text)
  | .error _ => none

private theorem heard?_of_silent {e : ClientError} (silent : e.brokerCode? = none) :
    heard? (.error e) = none := by
  cases e with
  | broker code text => cases silent
  | _ => rfl

private theorem eq_of_heard?_error {e : ClientError} {reply : Packet}
    (heard : heard? (.error e) = some reply) : ∃ code text, e = .broker code text := by
  cases e with
  | broker code text => exact ⟨code, text, rfl⟩
  | _ => cases heard

def Answered (answers : Answers) (w w' : Wires) (p reply : Packet) : Prop :=
  ∃ (link n : Nat) (codec : PacketCodec), (w.packets link).length ≤ n ∧
    (w'.packets link)[n]? = some (PacketCodec.body p) ∧
    codec.decodeBody (answers.body link n) = .ok reply

theorem Answered.mono {w₁ w₂ w' : Wires} {p reply : Packet} (h : Answered answers w₁ w₂ p reply)
    (before : w.Grows w₁) (later : w₂.Grows w') : Answered answers w w' p reply := by
  obtain ⟨link, n, codec, new, written, answer⟩ := h
  refine ⟨link, n, codec, Nat.le_trans (before link).length_le new, ?_, answer⟩
  obtain ⟨more, whole⟩ := later link
  obtain ⟨inside, _⟩ := List.getElem?_eq_some_iff.mp written
  rw [← whole, List.getElem?_append_left inside, written]

inductive Replied (answers : Answers) (w : Wires) (p : Packet) :
    Except ClientError Packet × BrokerConnection → Wires → Prop
  | heard {result : Except ClientError Packet} {reply : Packet} {b : BrokerConnection} {w' : Wires}
      (heard : heard? result = some reply) (answered : Answered answers w w' p reply)
      (ready : b.Ready answers w') : Replied answers w p (result, b) w'
  | failed {e : ClientError} {b : BrokerConnection} {w' : Wires} (silent : e.brokerCode? = none)
      (kept : e.isRetryable = false → b.isOpen → b.Ready answers w') :
      Replied answers w p (.error e, b) w'

private theorem Ready.requestWithin {b : BrokerConnection} (h : b.Ready answers w)
    (isOpen : b.isOpen) (p : Packet) (limit : Duration) :
    (b.requestWithin p limit).Ensures answers.obliging w (Replied answers w p) := by
  refine (h.inStep.request (beq_iff_eq.mp isOpen) h.room p limit).bind ?_
  rintro ⟨result, c'⟩ w' exchanged
  cases exchanged with
  | tooLarge size limit => exact .failed rfl fun _ _ => h
  | late ms => exact .failed rfl nofun
  | broken e _ _ notOpen =>
    refine .failed (ClientError.brokerCode?_ofConnection e) fun _ stillOpen => ?_
    exact absurd (beq_iff_eq.mp stillOpen) notOpen
  | @answered reply _ _ link codec inStep valid answer =>
    have packets : w'.packets b.connection.link =
        w.packets b.connection.link ++ [PacketCodec.body p] := by
      rw [← inStep.packets, link]
    have own : Answered answers w w' p reply := by
      refine ⟨b.connection.link, (w.packets b.connection.link).length, b.connection.codec,
        Nat.le_refl _, ?_, answer⟩
      rw [packets, List.getElem?_concat_length]
    have ready : Ready answers w' { b with connection := c' } :=
      ⟨inStep.whole, codec ▸ h.room⟩
    cases reply with
    | error code text => exact .heard rfl own ready
    | _ => exact .heard rfl own ready

end BrokerConnection

namespace Client

variable {α β σ : Type} {e : Surroundings σ} {w : σ} {s : Session}

theorem ensures_bind {c : Client α} {f : α → Client β} {Q : α × Session → σ → Prop}
    {R : β × Session → σ → Prop} (h : (c s).Ensures e w Q)
    (next : ∀ a s w, Q (a, s) w → (f a s).Ensures e w R) : ((c >>= f) s).Ensures e w R :=
  Plan.Ensures.bind h fun result w' => next result.1 result.2 w'

theorem ensures_plan {p : Plan α} {f : α → Client β} {Q : α → σ → Prop}
    {R : β × Session → σ → Prop} (h : p.Ensures e w Q)
    (next : ∀ a w, Q a w → (f a s).Ensures e w R) : (((p : Client α) >>= f) s).Ensures e w R :=
  Plan.ensures_bind.mpr (h.bind fun a w' => next a w')

theorem ensures_get {f : Session → Client β} {R : β × Session → σ → Prop}
    (next : (f s s).Ensures e w R) : ((get >>= f) s).Ensures e w R := next

end Client

namespace Session

variable {answers : Answers} {w : Wires} {s : Session}

/-- A session whose connection, if it holds one that is open, is ready for a request. -/
def Settled (answers : Answers) (w : Wires) (s : Session) : Prop :=
  ∀ b, s.connection = some b → b.isOpen → b.Ready answers w

theorem settled_of_none (none : s.connection = none) : Settled answers w s := by
  intro b held
  rw [none] at held
  cases held

theorem drops_reset {σ : Type} (e : Surroundings σ) (w : σ) (s : Session) :
    (reset s).Ensures e w fun result _ => result.2.connection = none := by
  refine Client.ensures_get ?_
  cases held : s.connection with
  | none => exact held
  | some b =>
    have closes : b.close.Ensures e w fun _ _ => True := .of_always fun _ _ => trivial
    refine Client.ensures_plan closes ?_
    exact fun _ _ _ _ _ => rfl

theorem ensures_reset (answers : Answers) (w : Wires) (s : Session) :
    (reset s).Ensures answers.obliging w fun result _ => result.2.connection = none :=
  drops_reset answers.obliging w s

inductive Ensured (answers : Answers) :
    Except ClientError BrokerConnection × Session → Wires → Prop
  | ready {b : BrokerConnection} {s : Session} {w : Wires} (held : s.connection = some b)
      (isOpen : b.isOpen) (ready : b.Ready answers w) : Ensured answers (.ok b, s) w
  | failed {e : ClientError} {s : Session} {w : Wires} (silent : e.brokerCode? = none)
      (settled : Settled answers w s) : Ensured answers (.error e, s) w

private theorem ensures_reconnect (answers : Answers) (w : Wires) (s : Session) :
    (ensureConnected.reconnect s).Ensures answers.obliging w (Ensured answers) := by
  refine Client.ensures_bind (ensures_reset answers w s) ?_
  intro _ s₁ w₁ none
  refine Client.ensures_get ?_
  refine Client.ensures_plan (BrokerConnection.ensures_connect answers s₁.config s₁.role w₁) ?_
  intro result w₂ reached
  cases reached with
  | opened isOpen ready => exact .ready rfl isOpen ready
  | failed silent => exact .failed silent (settled_of_none none)

private theorem Settled.ensureConnected (h : Settled answers w s) :
    (Session.ensureConnected s).Ensures answers.obliging w (Ensured answers) := by
  refine Client.ensures_get ?_
  cases held : s.connection with
  | none => exact ensures_reconnect answers w _
  | some b =>
    by_cases isOpen : b.isOpen
    · simp only [if_pos isOpen]
      exact .ready held isOpen (h b held isOpen)
    · simp only [if_neg isOpen]
      exact ensures_reconnect answers w s

private theorem settled_of_ready {b : BrokerConnection} (ready : b.isOpen → b.Ready answers w) :
    Settled answers w { s with connection := some b } := by
  rintro _ held isOpen
  obtain rfl := Option.some.inj held
  exact ready isOpen

/-- What is known of a packet that has come for a request, and of a failure that reports one. -/
structure Told (answers : Answers) (w : Wires) (p : Packet) (result : Except ClientError Packet)
    (w' : Wires) : Prop where
  own : ∀ reply, BrokerConnection.heard? result = some reply →
    BrokerConnection.Answered answers w w' p reply
  reported : ∀ e code, result = .error e → e.brokerCode? = some code → ∃ text, e = .broker code text

private theorem told_of_silent {p : Packet} {e : ClientError} {w' : Wires}
    (silent : e.brokerCode? = none) :
    Told answers w p (.error e) w' := by
  refine ⟨fun reply heard => ?_, fun e' code same report => ?_⟩
  · rw [BrokerConnection.heard?_of_silent silent] at heard
    cases heard
  · obtain rfl := Except.error.inj same
    rw [silent] at report
    cases report

private theorem told_of_heard {p reply : Packet} {result : Except ClientError Packet} {w' : Wires}
    (heard : BrokerConnection.heard? result = some reply)
    (answered : BrokerConnection.Answered answers w w' p reply) : Told answers w p result w' := by
  refine ⟨fun reply' same => ?_, ?_⟩
  · obtain rfl := Option.some.inj (heard.symm.trans same)
    exact answered
  · rintro e code rfl report
    obtain ⟨code', text, rfl⟩ := BrokerConnection.eq_of_heard?_error heard
    obtain rfl := Option.some.inj report
    exact ⟨text, rfl⟩

private theorem Told.mono {p : Packet} {result : Except ClientError Packet} {w₁ w₂ w' : Wires}
    (h : Told answers w₁ p result w₂) (before : w.Grows w₁) (later : w₂.Grows w') :
    Told answers w p result w' :=
  ⟨fun reply heard => (h.own reply heard).mono before later, h.reported⟩

/-- What a request leaves behind: a session that is ready for the next one, and, if a packet came,
the broker's answer to this very request. -/
structure Served (answers : Answers) (w : Wires) (p : Packet)
    (result : Except ClientError Packet × Session) (w' : Wires) : Prop where
  settled : Settled answers w' result.2
  told : Told answers w p result.1 w'

/-- A failure that is worth another attempt costs the connection, in whatever state it is. -/
theorem ensures_giveUp {w₀ : Wires} {p : Packet} {e : ClientError}
    (kept : e.isRetryable = false → Settled answers w s) (told : Told answers w₀ p (.error e) w) :
    ((do
      if e.isRetryable then reset
      return .error e : Client (Except ClientError Packet)) s).Ensures answers.obliging w
        (Served answers w₀ p) := by
  cases retryable : e.isRetryable with
  | false => exact ⟨kept retryable, told⟩
  | true =>
    refine Client.ensures_bind (Answers.ensures_grows (ensures_reset answers w s)) ?_
    rintro _ s' w' ⟨none, grown⟩
    exact ⟨settled_of_none none, told.mono (fun _ => List.prefix_rfl) grown⟩

theorem Settled.requestWithin (h : Settled answers w s) (p : Packet) (limit : Duration) :
    (Session.requestWithin p limit s).Ensures answers.obliging w (Served answers w p) := by
  refine Client.ensures_bind (Answers.ensures_grows h.ensureConnected) ?_
  rintro result s₁ w₁ ⟨ensured, grown⟩
  cases ensured with
  | failed silent settled => exact ⟨settled, told_of_silent silent⟩
  | @ready b _ _ held isOpen ready =>
    refine Client.ensures_plan (ready.requestWithin isOpen p limit) ?_
    rintro ⟨result, b'⟩ w₂ replied
    cases replied with
    | failed silent kept =>
      exact ensures_giveUp (fun final => settled_of_ready (s := s₁) (kept final))
        (told_of_silent silent)
    | heard heard answered ready' =>
      have settled := settled_of_ready (s := s₁) fun _ => ready'
      have told := (told_of_heard heard answered).mono grown fun _ => List.prefix_rfl
      cases result with
      | ok reply => exact ⟨settled, told⟩
      | error e => exact ensures_giveUp (fun _ => settled) told

theorem ensures_connect_of {σ : Type} {e : Surroundings σ} {config : ClientConfig} {role : Role}
    {Q : BrokerConnection → σ → Prop}
    (opens : ∀ w, (BrokerConnection.connect config role).Ensures e w fun result w' =>
      ∀ b, result = .ok b → Q b w') (w : σ) :
    (Session.connect config role).Ensures e w fun result w' =>
      ∀ s, result = .ok s → ∃ b, s.connection = some b ∧ Q b w' := by
  rw [Session.connect]
  cases config.validate with
  | error e => exact nofun
  | ok =>
    have round : ∀ attempt v,
        (BrokerConnection.connectRound config role attempt).Ensures e v
          fun result w' => ∀ b, result = .ok b → Q b w' := by
      intro attempt v
      refine (opens v).bind ?_
      intro result w' good
      cases result with
      | ok b => exact good
      | error e => exact fun _ _ => nofun
    refine Plan.Ensures.bind (Q := fun result w' => ∀ b, result = .ok b → Q b w')
      ((RetryPolicy.ensures_runFrom _ _ round _ w).bind ?_) ?_
    · intro outcome w' good
      cases outcome with
      | delivered b => exact fun _ same => Except.ok.inj same ▸ good b rfl
      | rejected e => exact nofun
      | exhausted attempts last => exact nofun
    · intro result w' good
      cases result with
      | error e => exact nofun
      | ok b =>
        rintro _ same
        obtain rfl := Except.ok.inj same
        exact ⟨b, rfl, good b rfl⟩

theorem ensures_connect (answers : Answers) (w : Wires) (config : ClientConfig) (role : Role) :
    (Session.connect config role).Ensures answers.obliging w fun result w' =>
      ∀ s, result = .ok s → Settled answers w' s := by
  have opens : ∀ v, (BrokerConnection.connect config role).Ensures answers.obliging v
      fun result w' => ∀ b, result = .ok b → b.Ready answers w' := by
    intro v
    refine (BrokerConnection.ensures_connect answers config role v).mono ?_
    intro result w' reached
    cases reached with
    | opened isOpen ready => exact fun _ same => Except.ok.inj same ▸ ready
    | failed silent => exact nofun
  refine (ensures_connect_of opens w).mono ?_
  intro result w' good s same b held isOpen
  obtain ⟨b', held', ready⟩ := good s same
  obtain rfl := Option.some.inj (held.symm.trans held')
  exact ready

end Session
end WorkBroker
