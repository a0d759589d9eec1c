import WorkBroker.Proofs.Broker.Openings
import WorkBroker.Proofs.Client.Holdings
import WorkBroker.Proofs.Connection.Locality
/-!
The terms of a connection.  A broker announces its limit on payloads in the welcome, which is the
first packet that a client may get from it.  So a client that reaches a broker has the broker's own
codec from then on, and a message above the limit does not get as far as the link.
-/

set_option autoImplicit false
set_option relaxedAutoImplicit false

namespace WorkBroker

open Net
open Bytes (framed framedAll)

section Limits

variable {settings : Settings} {c : PacketCodec} {p : Packet}

theorem Conversation.terms_of_welcome (valid : settings.IsValid) (owner : Nat) :
    ∃ terms, welcome settings owner = .welcome terms ∧
      terms.maxMessageSize.toNat = settings.maxMessageSize.toNat := by
  have small : settings.maxMessageSize.toNat < UInt32.size :=
    Nat.lt_succ_of_le (settings.limit_codec valid ▸ settings.codec.frame.limit_le)
  exact ⟨_, rfl, UInt32.toNat_ofNat_of_lt small⟩

theorem PacketCodec.decode_of_encode {bytes : Bytes} (room : c.maxFrameSize ≤ maxHeaderValue)
    (encoded : c.encode p = .ok bytes) (rest : Bytes) :
    c.decode (bytes ++ rest) = (.ok (some p), rest) := by
  obtain ⟨valid, rfl⟩ := of_encode encoded
  have fits := length_body_le valid
  exact decode_packet valid (Nat.le_trans fits room) fits rest

/-- Whether a packet is a message with a valid id and a payload above a limit. -/
def Packet.IsAbove (limit : Nat) (size : Nat) (p : Packet) : Prop :=
  ∃ id priority delay payload, p = .push id priority delay payload ∧
    1 ≤ Bytes.sizeOfText id ∧ Bytes.sizeOfText id ≤ 255 ∧ payload.length = size ∧ limit < size

theorem PacketCodec.encode_of_isAbove {size : Nat} (above : p.IsAbove c.maxMessageSize size) :
    c.encode p = .error (.oversize size c.maxMessageSize) := by
  obtain ⟨id, priority, delay, payload, rfl, named, short, rfl, large⟩ := above
  have nonempty : id.isEmpty = false := by
    rw [Bool.eq_false_iff]
    intro empty
    rw [String.isEmpty_iff.mp empty] at named
    exact absurd named (by decide)
  have valid : checkId "message id" id false = .ok () := by
    rw [checkId, nonempty, if_neg (by decide)]
    exact if_neg (Nat.not_lt_of_le short)
  have exceeds : c.frame.checkSize payload.length =
      .error (.oversize payload.length c.maxMessageSize) := if_pos large
  rw [encode, validate, valid]
  simp only [bind, Except.bind, exceeds]

end Limits

namespace Net

private def Wires.on (w : Wires) (link : Nat) : Traffic := ⟨w.written link, w.taken link⟩

/-- Whether something may happen where so much is said on each link: a link is new when it is
reached, the bytes that come from it are those that are said, in order, and a wait without a
deadline does not run out of time.  How many of them have come by now is open. -/
def Voiced (voice : Nat → Bytes) (w : Wires) (o : Occurrence) : Prop :=
  match o with
  | ⟨.read link deadline _, outcome⟩ =>
    match (outcome : ReadOutcome) with
    | .bytes first rest => w.taken link ++ first :: rest <+: voice link
    | .elapsed => deadline ≠ none
    | _ => True
  | ⟨.dial _ _, outcome⟩ =>
    match (outcome : DialOutcome) with
    | .connected link => w.written link = [] ∧ w.taken link = []
    | _ => True
  | _ => True

instance (voice : Nat → Bytes) (w : Wires) (o : Occurrence) : Decidable (Voiced voice w o) :=
  match o with
  | ⟨.read link deadline _, outcome⟩ =>
    match (outcome : ReadOutcome) with
    | .bytes first rest =>
      inferInstanceAs (Decidable (w.taken link ++ first :: rest <+: voice link))
    | .elapsed => inferInstanceAs (Decidable (deadline ≠ none))
    | .ended | .failed _ => isTrue trivial
  | ⟨.dial _ _, outcome⟩ =>
    match (outcome : DialOutcome) with
    | .connected link => inferInstanceAs (Decidable (w.written link = [] ∧ w.taken link = []))
    | .failed _ | .elapsed => isTrue trivial
  | ⟨.clock, _⟩ | ⟨.write _ _, _⟩ | ⟨.shutdown _, _⟩ | ⟨.discard _, _⟩ | ⟨.sleepUntil _, _⟩
  | ⟨.log _, _⟩ => isTrue trivial

def voices (voice : Nat → Bytes) : Surroundings Wires := ⟨Voiced voice, Wires.after⟩

instance (voice : Nat → Bytes) (w : Wires) (o : Occurrence) :
    Decidable ((voices voice).permits w o) := inferInstanceAs (Decidable (Voiced voice w o))

private theorem shows_voices (voice : Nat → Bytes) (link : Nat) :
    (voices voice).Shows link (·.on link) where
  permits w o may := by
    obtain ⟨action, outcome⟩ := o
    cases action with
    | read other deadline most =>
      cases deadline with
      | some moment => trivial
      | none =>
        rintro rfl
        exact absurd rfl may
    | _ => trivial
  after w o here := by
    obtain ⟨action, outcome⟩ := o
    cases action with
    | write other bytes =>
      obtain rfl : other = link := here other rfl
      cases outcome with
      | accepted more =>
        show Wires.on (w.write other _) other = _
        rw [Wires.on, Wires.written_write]
        rfl
      | failed failure => rfl
    | read other deadline most =>
      obtain rfl : other = link := here other rfl
      cases outcome with
      | bytes first rest =>
        show Wires.on (w.take other _) other = _
        rw [Wires.on, Wires.taken_take]
        rfl
      | ended | failed | elapsed => rfl
    | _ => rfl

private theorem taken_voices {voice : Nat → Bytes} {link : Nat} (w : Wires) (o : Occurrence)
    (before : w.taken link <+: voice link) (may : (voices voice).permits w o) :
    ((voices voice).after w o).taken link <+: voice link := by
  obtain ⟨action, outcome⟩ := o
  cases action with
  | write other bytes => cases outcome <;> exact before
  | read other deadline most =>
    cases outcome with
    | bytes first rest =>
      show (w.take other _).taken link <+: voice link
      by_cases same : link = other
      · rw [same, Wires.taken_take]
        exact may
      · have untouched : (w.take other (first :: rest)).taken link = w.taken link :=
          Function.update_of_ne same _ _
        rw [untouched]
        exact before
    | ended | failed | elapsed => exact before
  | _ => exact before

end Net

/-- Whether each link leads to a broker with a certain set-up: what is said on it is what such a
broker says on one of its connections, in the course of some events. -/
def Settings.LeadsTo (settings : Settings) (voice : Nat → Bytes) : Prop :=
  ∀ link, ∃ events id, voice link =
    framedAll ((Broker.words id ((Broker.start settings).run events).1).map PacketCodec.body)

section Handshake

variable {settings : Settings} {voice : Nat → Bytes} {w : Wires}

private theorem Settings.LeadsTo.terms (leads : settings.LeadsTo voice) (valid : settings.IsValid)
    {link : Nat} {c : PacketCodec} {front rest : Bytes} {terms : Welcome}
    (isFront : front <+: voice link)
    (found : c.scan front = .frame (.ok (.welcome terms)) rest) :
    terms.maxMessageSize.toNat = settings.maxMessageSize.toNat := by
  obtain ⟨events, id, said⟩ := leads link
  obtain ⟨more, whole⟩ := isFront
  have decoded : c.decode front = (.ok (some (.welcome terms)), rest) := by
    rw [PacketCodec.decode, found]
    rfl
  have again := PacketCodec.decode_append decoded (by simp) more
  rw [whole, said] at again
  cases words : Broker.words id ((Broker.start settings).run events).1 with
  | nil =>
    rw [words] at again
    cases congrArg Prod.fst again
  | cons p others =>
    have opening := Broker.isOpening_of_words words
    have ok := Conversation.validate_of_isOpening opening
    have small : (PacketCodec.body p).length ≤ maxHeaderValue :=
      Nat.le_trans (PacketCodec.length_body_le (ok (.ofLimit 0))) (by decide)
    rw [words] at again
    have first := PacketCodec.decode_packet (ok c) small (PacketCodec.length_body_le (ok c))
      (framedAll (others.map PacketCodec.body))
    have same := congrArg Prod.fst (first.symm.trans again)
    obtain rfl : p = .welcome terms := by simpa using same
    obtain ⟨terms', told, size⟩ := Conversation.terms_of_welcome valid id
    cases opening with
    | welcome =>
      obtain rfl := Packet.welcome.inj told
      exact size

namespace Connection

variable {c : Connection}

private theorem ensures_greet (leads : settings.LeadsTo voice) (valid : settings.IsValid)
    (connecting : c.state = .connecting) (nothing : c.inbox.bytes = [])
    (untaken : w.taken c.link = []) (role : Role) (name : String) (limit : Duration) :
    (c.greet role name limit).Ensures (voices voice) w fun result _ => ∀ terms,
      result.1 = .ok terms → result.2.state = .open ∧
        terms.maxMessageSize.toNat = settings.maxMessageSize.toNat := by
  have connects : c.expect .connecting = .ok () := if_pos connecting
  have shown := shows_voices voice c.link
  have front : w.taken c.link <+: voice c.link := untaken ▸ List.nil_prefix
  rw [greet, connects]
  refine ((posted_over shown _ w).within front taken_voices).bind ?_
  rintro ⟨result, c'⟩ w₁ ⟨posted, front₁⟩
  obtain ⟨-, same, whole⟩ := posted.kept
  cases result with
  | error e =>
    intro terms welcomed
    cases welcomed
  | ok =>
    obtain rfl : c' = c := whole rfl
    refine ((hears_over shown limit w₁).within front₁ taken_voices).bind ?_
    rintro ⟨received, c''⟩ w₂ ⟨⟨moment, hears⟩, front₂⟩ terms welcomed
    cases received with
    | packet q =>
      cases q with
      | welcome offered =>
        obtain rfl := Except.ok.inj welcomed
        obtain ⟨more, rest, taken, found⟩ := hears.packet _ rfl
        have taken : w₂.taken c'.link = w₁.taken c'.link ++ more := taken
        have same : w₁.taken c'.link = w.taken c'.link := same
        rw [same, untaken, List.nil_append] at taken
        rw [nothing, List.nil_append] at found
        exact ⟨rfl, leads.terms valid (taken ▸ front₂) found⟩
      | _ => cases welcomed
    | _ => cases welcomed

end Connection

namespace BrokerConnection

private theorem ensures_requestWithin_codec (b : BrokerConnection) (p : Packet) (limit : Duration) :
    (b.requestWithin p limit).Ensures (voices voice) w fun result _ =>
      result.2.connection.codec = b.connection.codec := by
  refine (Connection.ensures_request_codec (shows_voices voice b.connection.link) p limit w).bind ?_
  rintro ⟨result, c⟩ w' codec
  cases result with
  | error e => exact codec
  | ok reply => cases reply <;> exact codec

/-- Whether a connection has the codec of its broker. -/
def Attuned (settings : Settings) (b : BrokerConnection) : Prop :=
  b.connection.codec = settings.codec

/-- A client that reaches a broker has the broker's codec for as long as it holds the connection. -/
theorem lasts_attuned (leads : settings.LeadsTo voice) (valid : settings.IsValid) :
    Lasts (voices voice) (Attuned settings) where
  opened config role broker w := by
    intro _ _ now _ outcome may
    cases outcome with
    | elapsed => exact .failed rfl
    | failed failure => exact .failed rfl
    | connected link =>
      obtain ⟨-, untaken⟩ : w.written link = [] ∧ w.taken link = [] := may
      refine (Connection.ensures_greet (c := .ofLink 0 broker link config.maxMessageSize) leads
        valid rfl rfl untaken role config.name config.connectionTimeout).bind ?_
      rintro ⟨result, c'⟩ w' greeted
      cases result with
      | error e =>
        refine (Plan.Ensures.of_always (Q := fun _ _ => True) fun _ _ => trivial).bind ?_
        exact fun _ _ _ _ _ => .failed (ClientError.brokerCode?_ofConnection e)
      | ok terms =>
        obtain ⟨isOpen, limit⟩ := greeted terms rfl
        exact .opened (beq_iff_eq.mpr isOpen) (congrArg PacketCodec.ofLimit limit)
  asked b p limit w attuned :=
    (b.ensures_requestWithin_codec p limit).mono fun _ _ same => same.trans attuned

theorem requestWithin_of_encode {b : BrokerConnection} (isOpen : b.isOpen) {p : Packet}
    {e : ConnectionError} {c : Connection} (refused : b.connection.encode p = (.error e, c))
    (limit : Duration) :
    b.requestWithin p limit = .done (.error (.ofConnection e), { b with connection := c }) := by
  have opened : b.connection.expect .open = .ok () := if_pos (beq_iff_eq.mp isOpen)
  have unwritten : b.connection.write p = .done (.error e, c) := by
    rw [Connection.write, refused]
    rfl
  rw [requestWithin, Connection.request, Connection.send, opened]
  simp only [unwritten]
  rfl

theorem requestWithin_of_isAbove {b : BrokerConnection} (isOpen : b.isOpen) {p : Packet}
    {size : Nat} (above : p.IsAbove b.connection.codec.maxMessageSize size) (limit : Duration) :
    b.requestWithin p limit =
      .done (.error (.messageTooLarge size b.connection.codec.maxMessageSize), b) := by
  have refused : b.connection.encode p =
      (.error (.oversize size b.connection.codec.maxMessageSize), b.connection) := by
    rw [Connection.encode, PacketCodec.encode_of_isAbove above]
  exact requestWithin_of_encode isOpen refused limit

end BrokerConnection
end Handshake

end WorkBroker
