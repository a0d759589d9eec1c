import WorkBroker.Proofs.Client.Terms
/-!
Both ends agree on sizes.  What a client's codec writes its broker reads, and the other way round,
and a message above the broker's limit is refused on the client's side: by the producer if it holds
a connection, else by the codec of the connection that it opens for the message.
-/

set_option autoImplicit false
set_option relaxedAutoImplicit false

namespace WorkBroker

open Net
open BrokerConnection (Attuned lasts_attuned)

variable {settings : Settings} {voice : Nat → Bytes} {w : Wires} {s : Session}

section Codecs

/-- Whether the codec of a client agrees with a broker on sizes: it has the broker's limit, what it
writes is read by the broker and never too large for it, what is above the limit it does not write,
and it reads what the broker delivers. -/
structure PacketCodec.Agrees (settings : Settings) (c : PacketCodec) : Prop where
  limit : c.maxMessageSize = settings.maxMessageSize.toNat
  push : ∀ id priority delay payload bytes,
    c.encode (.push id priority delay payload) = .ok bytes →
      (∀ rest, settings.codec.decode (bytes ++ rest) =
        (.ok (some (.push id priority delay payload)), rest)) ∧
      ∀ events connection role text,
        .said connection (some (role, .push id priority delay payload))
          (.send (.error .messageTooLarge text)) ∉ ((Broker.start settings).run events).1
  refusal : ∀ p size, p.IsAbove settings.maxMessageSize.toNat size →
    c.encode p = .error (.oversize size settings.maxMessageSize.toNat)
  deliver : ∀ id token attempt payload bytes,
    settings.codec.encode (.deliver id token attempt payload) = .ok bytes →
      ∀ rest, c.decode (bytes ++ rest) = (.ok (some (.deliver id token attempt payload)), rest)

private theorem PacketCodec.agrees_codec (valid : settings.IsValid) :
    settings.codec.Agrees settings := by
  have limit : settings.codec.maxMessageSize = settings.maxMessageSize.toNat :=
    settings.limit_codec valid
  have room := settings.maxFrameSize_codec valid
  constructor
  case limit => exact limit
  case push =>
    intro id priority delay payload bytes encoded
    refine ⟨decode_of_encode room encoded, fun events connection role text said => ?_⟩
    obtain ⟨_, _, _, _, _, same, large⟩ := Broker.tooLarge_of_said said
    obtain ⟨-, sent⟩ := Prod.mk.inj (Option.some.inj same)
    obtain ⟨-, -, -, rfl⟩ := Packet.push.inj sent
    have small := payload_le (of_encode encoded).1 rfl
    exact absurd (limit ▸ small) (Nat.not_le_of_lt large)
  case refusal =>
    intro p size above
    rw [← limit] at above ⊢
    exact encode_of_isAbove above
  case deliver => exact fun _ _ _ _ _ encoded => decode_of_encode room encoded

private theorem Session.Holds.agrees (h : s.Holds (Attuned settings)) (valid : settings.IsValid)
    (b : BrokerConnection) (held : s.connection = some b) :
    b.connection.codec.Agrees settings := by
  rw [h b held]
  exact PacketCodec.agrees_codec valid

end Codecs

section Refusals

/-- Whether a request is refused on this side: nothing happens but what it takes to have a
connection, and the request fails with the reason, or for the lack of a connection, which is nothing
that the broker has reported. -/
def Session.Refuses {α : Type} (s : Session) (reason : ClientError) (trace : List Occurrence)
    (result : Except ClientError α) (s' : Session) : Prop :=
  ∃ reached, (ensureConnected s).Traces trace (reached, s') ∧
    match reached with
    | .ok _ => result = .error reason
    | .error lost => lost.brokerCode? = none ∧ result = .error lost

/-- Whether an attempt to push is refused on this side: without further ado if a connection is held,
and else once there is one. -/
def Session.RefusesPush (s : Session) (reason : ClientError) (trace : List Occurrence)
    (result : Except ClientError String) (s' : Session) : Prop :=
  match s.connection with
  | some _ => trace = [] ∧ s' = s ∧ result = .error reason
  | none => s.Refuses reason trace result s'

variable (leads : settings.LeadsTo voice) (valid : settings.IsValid)

include leads valid

private theorem Session.Holds.refuses (h : s.Holds (Attuned settings)) {p : Packet} {size : Nat}
    (above : p.IsAbove settings.maxMessageSize.toNat size) {limit : Duration}
    {trace : List Occurrence} {result : Except ClientError Packet} {s' : Session}
    (ran : (Session.requestWithin p limit s).Traces trace (result, s'))
    (allowed : (voices voice).Allow w trace) :
    s.Refuses (.messageTooLarge size settings.maxMessageSize.toNat) trace result s' := by
  obtain ⟨first, later, ⟨reached, s₁⟩, rfl, front, back⟩ := Plan.Traces.of_bind ran
  have before := ((voices voice).allow_append.mp allowed).1
  have secured := (h.ensureConnected (lasts_attuned leads valid) w).of_traces front before
  cases secured with
  | @failed e _ silent none =>
    cases back
    exact ⟨.error e, (List.append_nil first).symm ▸ front, silent, rfl⟩
  | @connected b _ held isOpen attuned =>
    have same : b.connection.codec.maxMessageSize = settings.maxMessageSize.toNat :=
      attuned ▸ settings.limit_codec valid
    have refused := b.requestWithin_of_isAbove isOpen (same.symm ▸ above) limit
    rw [same] at refused
    obtain ⟨config, role, connection⟩ := s₁
    obtain rfl : connection = some b := held
    simp only [refused] at back
    cases back
    exact ⟨.ok b, (List.append_nil first).symm ▸ front, rfl⟩

private theorem Session.Holds.refusesPush (h : s.Holds (Attuned settings)) {r : PushRecord}
    {size attempt : Nat} (above : r.toPacket.IsAbove settings.maxMessageSize.toNat size)
    {trace : List Occurrence} {result : Except ClientError String} {s' : Session}
    (ran : (Producer.tryPush r attempt s).Traces trace (result, s'))
    (allowed : (voices voice).Allow w trace) :
    s.RefusesPush (.messageTooLarge size settings.maxMessageSize.toNat) trace result s' := by
  obtain ⟨config, role, connection⟩ := s
  cases connection with
  | some b =>
    -- The producer looks at the size itself.
    obtain ⟨id, priority, delay, payload, same, -, -, rfl, large⟩ := above
    obtain ⟨-, -, -, rfl⟩ := Packet.push.inj same
    have limit : b.connection.maxMessageSize = settings.maxMessageSize.toNat := by
      rw [Connection.maxMessageSize, h b rfl]
      exact settings.limit_codec valid
    have refused : Producer.tryPush r attempt ⟨config, role, some b⟩ =
        .done (.error (.messageTooLarge r.payload.length settings.maxMessageSize.toNat),
          ⟨config, role, some b⟩) := by
      rw [← limit] at large ⊢
      show (if _ then _ else _ : Client (Except ClientError String)) _ = _
      rw [if_pos large]
      rfl
    rw [refused] at ran
    cases ran
    exact ⟨rfl, rfl, rfl⟩
  | none =>
    -- Only the codec of the connection that is opened now sees the size.
    obtain ⟨first, later, ⟨told, s₁⟩, rfl, front, back⟩ := Plan.Traces.of_bind
      (p := Session.requestWithin r.toPacket config.requestTimeout ⟨config, role, none⟩) ran
    have before := ((voices voice).allow_append.mp allowed).1
    obtain ⟨reached, secured, refused⟩ := h.refuses leads valid above front before
    have failed : ∀ e, told = .error e → e.brokerCode? = none →
        later = [] ∧ result = .error e ∧ s' = s₁ := by
      rintro e rfl silent
      have nothing : ((none : Option ErrorCode) == some .duplicateMessage) = false := rfl
      simp only [silent, nothing, Bool.and_false, Bool.false_eq_true, if_false] at back
      cases back
      exact ⟨rfl, rfl, rfl⟩
    cases reached with
    | ok b =>
      obtain ⟨rfl, rfl, rfl⟩ := failed _ refused rfl
      exact ⟨.ok b, (List.append_nil first).symm ▸ secured, rfl⟩
    | error lost =>
      obtain ⟨silent, same⟩ := refused
      obtain ⟨rfl, rfl, rfl⟩ := failed lost same silent
      exact ⟨.error lost, (List.append_nil first).symm ▸ secured, silent, rfl⟩

end Refusals

/-- Whether an episode has its sizes right: the codec of the connection that is held agrees with the
broker, and a message above the limit is refused on this side. -/
structure Episode.Sized (settings : Settings) (e : Episode) : Prop where
  agrees : ∀ b, e.before.connection = some b → b.connection.codec.Agrees settings
  refused : ∀ p limit result size, e.act = .request p limit result →
    p.IsAbove settings.maxMessageSize.toNat size →
      e.before.Refuses (.messageTooLarge size settings.maxMessageSize.toNat) e.trace result e.after

private theorem Episode.Happens.sized {e : Episode} (happens : e.Happens)
    (leads : settings.LeadsTo voice)
    (valid : settings.IsValid) (held : e.before.Holds (Attuned settings))
    (allowed : (voices voice).Allow w e.trace) : e.Sized settings where
  agrees := held.agrees valid
  refused p limit result size isRequest above := by
    obtain ⟨act, before, trace, after⟩ := e
    obtain rfl : act = .request p limit result := isRequest
    exact Session.Holds.refuses leads valid held above happens allowed

/-- Whether sizes are right in the course of a session: in every episode, in the codec of the
connection that is held in the end, and whatever is pushed then. -/
structure Session.Sized (settings : Settings) (voice : Nat → Bytes) (w : Wires) (s₀ : Session)
    (trace : List Occurrence) (s : Session) : Prop where
  episodes : ∃ episodes, Course s₀ episodes s ∧ trace = Episode.traces episodes ∧
    ∀ e ∈ episodes, e.Sized settings
  agrees : ∀ b, s.connection = some b → b.connection.codec.Agrees settings
  refusesPush : ∀ r attempt more result s' size,
    (Producer.tryPush r attempt s).Traces more (result, s') → (voices voice).Allow w more →
      r.toPacket.IsAbove settings.maxMessageSize.toNat size →
        s.RefusesPush (.messageTooLarge size settings.maxMessageSize.toNat) more result s'

/-- Both ends agree on sizes.  A broker with a usable set-up welcomes its clients with its own limit
on payloads.  Whatever a client calls then and however often it connects anew, as long as its links
lead to brokers with this set-up, the codec of the connection that it holds agrees with the broker,
and a message above the limit never gets as far as the link. -/
theorem sizes_agree_after_handshake {s₀ : Session} {opening trace : List Occurrence}
    {calls : List ClientCall} (valid : settings.IsValid) (leads : settings.LeadsTo voice)
    (begins : s₀.Begins opening) (ran : (ClientCall.performAll calls s₀).Traces trace ((), s))
    (allowed : (voices voice).Allow .blank (opening ++ trace)) :
    (∀ owner, ∃ terms, Conversation.welcome settings owner = .welcome terms ∧
      terms.maxMessageSize.toNat = settings.maxMessageSize.toNat) ∧
    s₀.Sized settings voice ((voices voice).final .blank (opening ++ trace)) trace s := by
  refine ⟨Conversation.terms_of_welcome valid, ?_⟩
  have lasts := lasts_attuned leads valid
  obtain ⟨first, later⟩ := (voices voice).allow_append.mp allowed
  obtain ⟨episodes, course, rfl⟩ := ClientCall.divides_performAll calls s₀ trace () s ran
  obtain ⟨after, all⟩ := course.holds lasts (begins.holds lasts first) later
  constructor
  case episodes =>
    refine ⟨episodes, course, rfl, fun e mem => ?_⟩
    obtain ⟨happens, held, v, may⟩ := all e mem
    exact happens.sized leads valid held may
  case agrees => exact after.agrees valid
  case refusesPush =>
    exact fun _ _ _ _ _ _ pushed may above => after.refusesPush leads valid above pushed may

/-- A broker for payloads of at most two bytes. -/
def narrow : Settings := { maxMessageSize := 2 }

def narrowVoice (_link : Nat) : Bytes :=
  Bytes.framedAll [PacketCodec.body (Conversation.welcome narrow 1)]

private theorem leadsTo_narrowVoice : narrow.LeadsTo narrowVoice := by
  let greeted : List Broker.Event := [.arrive, .tell 1 (.greeted (.ok (.producer, "mqclient")))]
  have words : Broker.words 1 ((Broker.start narrow).run greeted).1 =
      [Conversation.welcome narrow 1] := by decide +kernel
  refine fun _ => ⟨greeted, 1, ?_⟩
  rw [words]
  rfl

def askingTooMuch : Plan (Unit × Session) :=
  ClientCall.performAll [.request (.push "a" 0 0 [1, 2, 3])]
    ⟨{ brokers := ["b"] }, .producer, none⟩

def welcoming : (action : Action) → Wires × Nat → action.Outcome × (Wires × Nat) :=
  Answers.prompt (.script (fun _ => [Conversation.welcome narrow 1]) fun _ => by decide +kernel)
    fun _ _ => false

theorem sizes_agree_with_narrow_broker :
    ∃ s, s.connection.isSome ∧ Session.Begins ⟨{ brokers := ["b"] }, .producer, none⟩ [] ∧
      askingTooMuch.Traces (askingTooMuch.trace welcoming (.blank, 0)) ((), s) ∧
      (voices narrowVoice).Allow .blank ([] ++ askingTooMuch.trace welcoming (.blank, 0)) ∧
      (∀ owner, ∃ terms, Conversation.welcome narrow owner = .welcome terms ∧
        terms.maxMessageSize.toNat = narrow.maxMessageSize.toNat) ∧
      Session.Sized narrow narrowVoice
        ((voices narrowVoice).final .blank ([] ++ askingTooMuch.trace welcoming (.blank, 0)))
        ⟨{ brokers := ["b"] }, .producer, none⟩ (askingTooMuch.trace welcoming (.blank, 0)) s := by
  have begins := Session.Begins.unconnected { brokers := ["b"] } .producer
  have ran := askingTooMuch.traces_trace welcoming (.blank, 0)
  have allowed : (voices narrowVoice).Allow .blank
      ([] ++ askingTooMuch.trace welcoming (.blank, 0)) := by decide +kernel
  exact ⟨_, by decide +kernel, begins, ran, allowed,
    sizes_agree_after_handshake (by decide) leadsTo_narrowVoice begins ran allowed⟩

end WorkBroker
