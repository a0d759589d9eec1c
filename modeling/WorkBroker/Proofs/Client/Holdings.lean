import WorkBroker.Proofs.Client.Courses
/-!
What a session holds.  A property that every connection has when it is opened, and that requests
leave alone, is a property of the connection that a session holds, whatever the session has gone
through.
-/

set_option autoImplicit false
set_option relaxedAutoImplicit false

namespace WorkBroker

open Net

variable {σ : Type} {e : Surroundings σ} {P : BrokerConnection → Prop} {w : σ} {s s' : Session}

namespace BrokerConnection

/-- What may have come of reaching for a broker: an open connection that has a property, or a
failure that the broker has not reported. -/
inductive Landed (P : BrokerConnection → Prop) : Except ClientError BrokerConnection → Prop
  | opened {b : BrokerConnection} (isOpen : b.isOpen) (has : P b) : Landed P (.ok b)
  | failed {e : ClientError} (silent : e.brokerCode? = none) : Landed P (.error e)

/-- Whether connections have a property from the beginning, and keep it. -/
structure Lasts (e : Surroundings σ) (P : BrokerConnection → Prop) : Prop where
  opened : ∀ (config : ClientConfig) (role : Role) (broker : String) (w : σ),
    (openAt config role broker).Ensures e w fun result _ => Landed P result
  asked : ∀ (b : BrokerConnection) (p : Packet) (limit : Duration) (w : σ), P b →
    (b.requestWithin p limit).Ensures e w fun result _ => P result.2

private theorem Lasts.connectTo (lasts : Lasts e P) (config : ClientConfig) (role : Role)
    (brokers : List String) (last : ClientError) (silent : last.brokerCode? = none) (w : σ) :
    (connectTo config role last brokers).Ensures e w fun result _ => Landed P result := by
  induction brokers generalizing last w with
  | nil => exact .failed silent
  | cons broker rest ih =>
    refine (lasts.opened config role broker w).bind ?_
    intro result w' landed
    cases landed with
    | opened isOpen has => exact .opened isOpen has
    | failed silent => exact fun _ _ => ih _ silent _

private theorem Lasts.connect (lasts : Lasts e P) (config : ClientConfig) (role : Role) (w : σ) :
    (connect config role).Ensures e w fun result _ => Landed P result :=
  lasts.connectTo config role config.brokers .noBrokers rfl w

end BrokerConnection

open BrokerConnection (Lasts Landed)

namespace Session

/-- Whether the connection that a session holds, if it holds one, has a property. -/
def Holds (P : BrokerConnection → Prop) (s : Session) : Prop := ∀ b, s.connection = some b → P b

private theorem holds_of_none (none : s.connection = none) : Holds P s := by
  intro b held
  cases none.symm.trans held

private theorem holds_of_some {b : BrokerConnection} (has : P b) :
    Holds P { s with connection := some b } := by
  rintro _ held
  obtain rfl := Option.some.inj held
  exact has

inductive Secured (P : BrokerConnection → Prop) :
    Except ClientError BrokerConnection × Session → Prop
  | connected {b : BrokerConnection} {s : Session} (held : s.connection = some b)
      (isOpen : b.isOpen) (has : P b) : Secured P (.ok b, s)
  | failed {e : ClientError} {s : Session} (silent : e.brokerCode? = none)
      (none : s.connection = none) : Secured P (.error e, s)

private theorem secured_reconnect (lasts : Lasts e P) (w : σ) (s : Session) :
    (ensureConnected.reconnect s).Ensures e w fun result _ => Secured P result := by
  refine Client.ensures_bind (drops_reset e w s) ?_
  intro _ s₁ w₁ none
  refine Client.ensures_get ?_
  refine Client.ensures_plan (lasts.connect s₁.config s₁.role w₁) ?_
  intro result w₂ landed
  cases landed with
  | opened isOpen has => exact .connected rfl isOpen has
  | failed silent => exact .failed silent none

theorem Holds.ensureConnected (h : s.Holds P) (lasts : Lasts e P) (w : σ) :
    (Session.ensureConnected s).Ensures e w fun result _ => Secured P result := by
  refine Client.ensures_get ?_
  cases held : s.connection with
  | none => exact secured_reconnect lasts w _
  | some b =>
    by_cases isOpen : b.isOpen
    · simp only [if_pos isOpen]
      exact .connected held isOpen (h b held)
    · simp only [if_neg isOpen]
      exact secured_reconnect lasts w s

private theorem Holds.requestWithin (h : s.Holds P) (lasts : Lasts e P) (p : Packet)
    (limit : Duration) (w : σ) :
    (Session.requestWithin p limit s).Ensures e w fun result _ => Holds P result.2 := by
  refine Client.ensures_bind (h.ensureConnected lasts w) ?_
  rintro result s₁ w₁ secured
  cases secured with
  | failed silent none => exact holds_of_none none
  | @connected b _ held isOpen has =>
    refine Client.ensures_plan (lasts.asked b p limit w₁ has) ?_
    rintro ⟨result, b'⟩ w₂ kept
    cases result with
    | ok reply => exact holds_of_some kept
    | error failure =>
      show Plan.Ensures _ ((do
        if failure.isRetryable then reset
        return .error failure : Client (Except ClientError Packet)) _) _ _
      cases retryable : failure.isRetryable with
      | false => exact holds_of_some kept
      | true =>
        refine Client.ensures_bind (drops_reset e w₂ _) ?_
        exact fun _ _ _ none => holds_of_none none

theorem Begins.holds {opening : List Occurrence} (begins : s.Begins opening) (lasts : Lasts e P)
    (allowed : e.Allow w opening) : s.Holds P := by
  cases begins with
  | unconnected config role => exact holds_of_none rfl
  | @connected config role opening s run =>
    have opens : ∀ v, (BrokerConnection.connect config role).Ensures e v
        fun result _ => ∀ b, result = .ok b → P b := by
      intro v
      refine (lasts.connect config role v).mono ?_
      intro result w' landed
      cases landed with
      | opened isOpen has => exact fun _ same => Except.ok.inj same ▸ has
      | failed silent => exact nofun
    obtain ⟨b, held, has⟩ := (ensures_connect_of opens w).of_traces run allowed s rfl
    intro b' held'
    obtain rfl := Option.some.inj (held.symm.trans held')
    exact has

end Session

private theorem Episode.Happens.holds {x : Episode} (happens : x.Happens) (lasts : Lasts e P)
    (held : x.before.Holds P) (allowed : e.Allow w x.trace) : x.after.Holds P := by
  obtain ⟨act, before, trace, after⟩ := x
  cases act with
  | request p limit result =>
    have kept := Session.Holds.requestWithin held lasts p limit w
    exact kept.of_traces happens allowed
  | reset =>
    have reset := (Session.drops_reset e w before).of_traces happens allowed
    exact Session.holds_of_none reset
  | pause d =>
    obtain ⟨-, rfl⟩ : (Plan.sleep d).Traces trace () ∧ after = before := happens
    exact held

/-- What lasts holds in every episode of a course, and in the end. -/
theorem Course.holds {episodes : List Episode} (course : Course s episodes s')
    (lasts : Lasts e P) (before : s.Holds P) (allowed : e.Allow w (Episode.traces episodes)) :
    s'.Holds P ∧ ∀ x ∈ episodes, x.Happens ∧ x.before.Holds P ∧ ∃ v, e.Allow v x.trace := by
  induction course generalizing w with
  | done s => exact ⟨before, fun _ none => absurd none List.not_mem_nil⟩
  | @next x rest s happens _ ih =>
    obtain ⟨first, later⟩ := e.allow_append.mp allowed
    obtain ⟨after, others⟩ := ih (happens.holds lasts before first) later
    exact ⟨after, List.forall_mem_cons.mpr ⟨⟨happens, before, w, first⟩, others⟩⟩

end WorkBroker
