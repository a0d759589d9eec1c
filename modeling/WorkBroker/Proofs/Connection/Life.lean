import WorkBroker.Proofs.Connection.Transport
/-!
The life of a connection: any sequence of its operations, over any transport.  A deed is an
operation together with what it went through.  Every deed keeps the rules (`Lawful`), so the
state of a connection never goes back, and what is closed stays closed.
-/

set_option autoImplicit false
set_option relaxedAutoImplicit false

namespace WorkBroker

open Net

inductive ConnectionCall
  | greet (role : Role) (clientId : String) (limit : Duration)
  | awaitHello (limit : Duration)
  | acceptHello (terms : Welcome)
  | reject (reason : RejectReason) (linger : Duration)
  | send (p : Packet)
  | receive
  | receiveFor (limit : Duration)
  | request (p : Packet) (limit : Duration)
  | close

inductive ConnectionGain
  | nothing
  | terms (terms : Welcome)
  | hello (peer : Role × String)
  | packet (p : Packet)

namespace ConnectionCall

/-- The state that an operation needs; the two that end a connection need none. -/
def needs : ConnectionCall → Option ConnectionState
  | .greet .. | .awaitHello _ | .acceptHello _ => some .connecting
  | .send _ | .receive | .receiveFor _ | .request .. => some .open
  | .reject .. | .close => none

private theorem connecting_or_open {call : ConnectionCall} {needed : ConnectionState}
    (needs : call.needs = some needed) : needed = .connecting ∨ needed = .open := by
  cases call with
  | greet | awaitHello | acceptHello => exact .inl (Option.some.inj needs).symm
  | send | receive | receiveFor | request => exact .inr (Option.some.inj needs).symm
  | reject | close => cases needs

/-- Whether a failure of an operation leaves the state as it was: the packet was too large, or no
packet came in time over an open connection. -/
def keeps : ConnectionCall → ConnectionError → Bool
  | _, .oversize _ _ => true
  | .receiveFor _, .timeout _ | .request .., .timeout _ => true
  | _, _ => false

end ConnectionCall

def Packet.isHandshake : Packet → Bool
  | .hello _ _ | .welcome _ | .rejected _ => true
  | _ => false

namespace Connection

def perform (c : Connection) :
    ConnectionCall → Plan (Except ConnectionError ConnectionGain × Connection)
  | .greet role clientId limit => do
    let (result, c) ← c.greet role clientId limit
    return (result.map .terms, c)
  | .awaitHello limit => do
    let (result, c) ← c.awaitHello limit
    return (result.map .hello, c)
  | .acceptHello terms => do
    let (result, c) ← c.acceptHello terms
    return (result.map fun () => .nothing, c)
  | .reject reason linger => do
    let c ← c.reject reason linger
    return (.ok .nothing, c)
  | .send p => do
    let (result, c) ← c.send p
    return (result.map fun () => .nothing, c)
  | .receive => do
    let (result, c) ← c.receive
    return (result.map .packet, c)
  | .receiveFor limit => do
    let (result, c) ← c.receiveFor limit
    return (result.map .packet, c)
  | .request p limit => do
    let (result, c) ← c.request p limit
    return (result.map .packet, c)
  | .close => do
    let c ← c.close
    return (.ok .nothing, c)

/-- Whether a welcome was written as a whole, or read. -/
def Welcomes (c : Connection) (t : Traffic) : Prop :=
  (∃ terms, c.codec.encode (.welcome terms) = .ok t.written) ∨
    ∃ terms rest, c.codec.scan (c.inbox.bytes ++ t.taken) = .frame (.ok (.welcome terms)) rest

/-- Whether nothing was written but a packet of the handshake, or a front part of one. -/
def WritesHandshake (c : Connection) (t : Traffic) : Prop :=
  t.written = [] ∨
    ∃ p bytes, p.isHandshake ∧ c.codec.encode p = .ok bytes ∧ t.written <+: bytes

end Connection

structure ConnectionDeed where
  call : ConnectionCall
  before : Connection
  trace : List Occurrence
  result : Except ConnectionError ConnectionGain
  after : Connection

namespace ConnectionDeed

/-- Whether the operation may have gone that way. -/
structure Happens (d : ConnectionDeed) : Prop where
  traces : (d.before.perform d.call).Traces d.trace (d.result, d.after)
  allowed : Traffic.anyhow.Allow .untouched d.trace

def traffic (d : ConnectionDeed) : Traffic := Traffic.anyhow.final .untouched d.trace

/-- The rules for one operation. -/
structure Lawful (d : ConnectionDeed) : Prop where
  /-- No operation takes a state back. -/
  forward : d.before.state.rank ≤ d.after.state.rank
  /-- A connection is opened by writing or by reading a welcome. -/
  opens : d.after.state = .open → d.before.state = .open ∨ d.before.state = .connecting ∧
    d.before.Welcomes d.traffic
  /-- During the handshake only packets of the handshake are written. -/
  writes : d.before.state = .connecting → d.before.WritesHandshake d.traffic
  /-- An operation that needs another state does not touch the transport. -/
  idle : ∀ needed, d.call.needs = some needed → d.before.state ≠ needed →
    d.trace = [] ∧ d.after = d.before ∧ ∃ e, d.result = .error e
  /-- Once a connection closes, nothing is left to do but to end it. -/
  finished : d.before.state = .closing ∨ d.before.state = .closed → d.call.needs.isSome →
    d.result = .error .closed
  /-- A failure makes the connection close, but for those that leave it as it was. -/
  fails : ∀ e, d.call.needs = some d.before.state → d.result = .error e →
    d.after.state = if d.call.keeps e then d.before.state else .closing
  /-- Whatever ends a connection closes it. -/
  ends : d.call.needs = none → d.after.state = .closed

end ConnectionDeed

namespace Connection

variable {c : Connection} {call : ConnectionCall}

section Refusals

private theorem perform_of_refused {needed : ConnectionState} {e : ConnectionError}
    (needs : call.needs = some needed) (refused : c.expect needed = .error e) :
    c.perform call = .done (.error e, c) := by
  cases call with
  | reject | close => cases needs
  | _ =>
    obtain rfl := Option.some.inj needs
    simp only [perform, greet, awaitHello, acceptHello, send, receive, receiveFor, request, refused]
    rfl

private theorem expect_of_ne {needed : ConnectionState} (other : c.state ≠ needed) :
    ∃ e, c.expect needed = .error e ∧
      (c.state = .closing ∨ c.state = .closed → e = .closed) := by
  rw [expect, if_neg other]
  cases c.state with
  | closing => exact ⟨.closed, rfl, fun _ => rfl⟩
  | closed => exact ⟨.closed, rfl, fun _ => rfl⟩
  | connecting => exact ⟨_, rfl, nofun⟩
  | «open» => exact ⟨_, rfl, nofun⟩

end Refusals

/-- Whether an operation that could be carried out leaves a connection where it should: in a certain
state if it succeeds, and closing if it fails for good. -/
structure Settles (call : ConnectionCall) (c : Connection) (done : ConnectionState)
    (r : Except ConnectionError ConnectionGain × Connection) : Prop where
  ok : ∀ gain, r.1 = .ok gain → r.2.state = done
  error : ∀ e, r.1 = .error e → r.2.state = if call.keeps e then c.state else .closing

private theorem keeps_of_isFatal {e : ConnectionError} (fatal : e.isFatal) :
    call.keeps e = false := by
  cases e with
  | oversize | timeout => cases fatal
  | _ => cases call <;> rfl

private theorem Settles.of_ok {c' : Connection} {gain : ConnectionGain} :
    Settles call c c'.state (.ok gain, c') where
  ok _ _ := rfl
  error e failed := by cases failed

private theorem Settles.of_kept {done : ConnectionState} {c' : Connection} {e : ConnectionError}
    (kept : call.keeps e) (same : c'.state = c.state) : Settles call c done (.error e, c') where
  ok gain won := by cases won
  error e' failed := by
    obtain rfl := Except.error.inj failed
    rw [if_pos kept, same]

private theorem Settles.of_lost (done : ConnectionState) {c' : Connection} {e : ConnectionError}
    (lost : call.keeps e = false) (closing : c'.state = .closing) :
    Settles call c done (.error e, c') where
  ok gain won := by cases won
  error e' failed := by
    obtain rfl := Except.error.inj failed
    rw [lost, closing]
    rfl

/-- Whether an operation that could be carried out has kept the rules. -/
structure Proper (call : ConnectionCall) (c : Connection)
    (r : Except ConnectionError ConnectionGain × Connection) (t : Traffic) : Prop where
  forward : c.state.rank ≤ r.2.state.rank
  opens : r.2.state = .open → c.state = .open ∨ c.state = .connecting ∧ Welcomes c t
  writes : c.state = .connecting → WritesHandshake c t
  fails : ∀ e, call.needs = some c.state → r.1 = .error e →
    r.2.state = if call.keeps e then c.state else .closing
  ends : call.needs = none → r.2.state = .closed

section Proper

variable {r : Except ConnectionError ConnectionGain × Connection} {t : Traffic}
  {done : ConnectionState}

private theorem Settles.state_cases (h : Settles call c done r) :
    r.2.state = done ∧ (∃ gain, r.1 = .ok gain) ∨ r.2.state = c.state ∨ r.2.state = .closing := by
  cases came : r.1 with
  | ok gain => exact .inl ⟨h.ok gain came, gain, rfl⟩
  | error e =>
    have state := h.error e came
    split_ifs at state
    · exact .inr (.inl state)
    · exact .inr (.inr state)

private theorem Settles.proper_of_open (h : Settles call c .open r) (isOpen : c.state = .open)
    (needs : call.needs = some .open) : Proper call c r t where
  forward := by
    rcases h.state_cases with ⟨state, -⟩ | state | state <;>
      simp [state, isOpen, ConnectionState.rank]
  opens _ := .inl isOpen
  writes connecting := by simp [isOpen] at connecting
  fails e _ := h.error e
  ends none := by simp [needs] at none

private theorem Settles.proper_of_connecting (h : Settles call c done r)
    (connecting : c.state = .connecting) (needs : call.needs = some .connecting)
    (welcomes : ∀ gain, r.1 = .ok gain → done = .open → Welcomes c t)
    (writes : WritesHandshake c t) : Proper call c r t where
  forward := by simp [connecting, ConnectionState.rank]
  opens opened := by
    refine .inr ⟨connecting, ?_⟩
    rcases h.state_cases with ⟨state, gain, won⟩ | state | state
    · exact welcomes gain won (state.symm.trans opened)
    · cases (state.symm.trans opened).symm.trans connecting
    · cases state.symm.trans opened
  writes _ := writes
  fails e _ := h.error e
  ends none := by simp [needs] at none

private theorem Settles.proper_of_error {e : ConnectionError} {c' : Connection}
    (h : Settles call c done (.error e, c')) (connecting : c.state = .connecting)
    (needs : call.needs = some .connecting) (writes : WritesHandshake c t) :
    Proper call c (.error e, c') t :=
  h.proper_of_connecting connecting needs (fun _ won => by cases won) writes

private theorem proper_of_closed (needs : call.needs = none) (closed : r.2.state = .closed)
    (writes : c.state = .connecting → WritesHandshake c t) : Proper call c r t where
  forward := by
    rw [closed]
    cases c.state <;> decide
  opens opened := by cases closed.symm.trans opened
  writes := writes
  fails e needed := by cases needs.symm.trans needed
  ends _ := closed

end Proper

section Operations

variable {p : Packet} {t : Traffic} {c' : Connection} {done : ConnectionState}

private theorem Posted.outcome {r : Except ConnectionError Unit × Connection}
    (posted : Posted c p .untouched r t) :
    (∃ bytes, c.codec.encode p = .ok bytes ∧ r = (.ok (), c) ∧
        t = Traffic.untouched.write bytes) ∨
      ∃ e c', r = (.error e, c') ∧ ∀ call done, Settles call c done (.error e, c') := by
  cases posted with
  | whole encoded => exact .inl ⟨_, encoded, rfl, rfl⟩
  | tooLarge size limit =>
    exact .inr ⟨_, _, rfl, fun call done => .of_kept (by cases call <;> rfl) rfl⟩
  | refused fatal | broken _ _ fatal =>
    exact .inr ⟨_, _, rfl, fun call done => .of_lost done (keeps_of_isFatal fatal) rfl⟩

private theorem Posted.writesHandshake {r : Except ConnectionError Unit × Connection}
    (posted : Posted c p .untouched r t) (handshake : p.isHandshake) : WritesHandshake c t := by
  cases posted with
  | whole encoded => exact .inr ⟨p, _, handshake, encoded, List.prefix_rfl⟩
  | tooLarge | refused => exact .inl rfl
  | broken encoded isFront => exact .inr ⟨p, _, handshake, encoded, isFront⟩

private theorem Hears.outcome {deadline : Option Instant} {before : Traffic} {received : Received}
    (hears : Hears c deadline before received c' t) (done : ConnectionState) (limit : Duration)
    (kept : deadline = none ∨ ∀ ms, call.keeps (.timeout ms)) :
    (∃ p, received = .packet p ∧ c'.conclude limit received = (.ok p, c')) ∨
      ∃ e c'', c'.conclude limit received = (.error e, c'') ∧
        Settles call c done (.error e, c'') := by
  cases received with
  | packet p => exact .inl ⟨p, rfl, rfl⟩
  | failed e => exact .inr ⟨_, _, rfl, .of_lost _ (keeps_of_isFatal (hears.failed e rfl)) rfl⟩
  | ended => exact .inr ⟨_, _, rfl, .of_lost _ (keeps_of_isFatal rfl) rfl⟩
  | elapsed =>
    obtain unlimited | keeps := kept
    · exact absurd rfl (hears.elapsed unlimited)
    · exact .inr ⟨_, _, rfl, .of_kept (keeps _) hears.state⟩

private theorem Hears.handshake {deadline : Option Instant} {before : Traffic} {received : Received}
    (hears : Hears c deadline before received c' t) (call : ConnectionCall)
    (done : ConnectionState) (limit : Duration)
    (lost : ∀ ms, call.keeps (.timeout ms) = false) :
    (∃ p, received = .packet p ∧ c'.concludeHandshake limit received = (.ok p, c')) ∨
      ∃ e c'', c'.concludeHandshake limit received = (.error e, c'') ∧
        Settles call c done (.error e, c'') := by
  cases received with
  | packet p => exact .inl ⟨p, rfl, rfl⟩
  | failed e => exact .inr ⟨_, _, rfl, .of_lost _ (keeps_of_isFatal (hears.failed e rfl)) rfl⟩
  | ended => exact .inr ⟨_, _, rfl, .of_lost _ (keeps_of_isFatal rfl) rfl⟩
  | elapsed => exact .inr ⟨_, _, rfl, .of_lost _ (lost _) rfl⟩

section Handshake

variable (connecting : c.state = .connecting)

include connecting

private theorem proper_greet (role : Role) (clientId : String) (limit : Duration) :
    (c.perform (.greet role clientId limit)).Ensures Traffic.anyhow .untouched
      (Proper (.greet role clientId limit) c) := by
  have connects : c.expect .connecting = .ok () := if_pos connecting
  show Plan.Ensures _ ((c.greet role clientId limit).bind _) _ _
  rw [Connection.greet, connects]
  refine Plan.ensures_bind.mpr ((posted_write c _ _).bind fun result t posted => ?_)
  have writes := posted.writesHandshake rfl
  obtain ⟨bytes, encoded, rfl, rfl⟩ | ⟨e, c', rfl, settles⟩ := posted.outcome
  · refine (hears_awaitPacketFor c limit _).bind ?_
    rintro ⟨received, c'⟩ t' ⟨moment, hears⟩
    have writes : WritesHandshake c t' := by
      rw [WritesHandshake, hears.written]
      exact writes
    show Proper _ c ((c'.concludeWelcome limit received).1.map .terms,
      (c'.concludeWelcome limit received).2) t'
    rw [concludeWelcome]
    obtain ⟨p, rfl, answered⟩ | ⟨e, c'', failed, settles⟩ :=
      hears.handshake (.greet role clientId limit) .open limit fun _ => rfl
    · rw [answered]
      obtain ⟨more, rest, taken, found⟩ := hears.packet p rfl
      cases p with
      | welcome terms =>
        refine Settles.of_ok.proper_of_connecting connecting rfl (fun _ _ _ => ?_) writes
        exact .inr ⟨terms, rest, by rw [taken]; exact found⟩
      | rejected reason =>
        exact (Settles.of_lost .open rfl rfl).proper_of_error connecting rfl writes
      | _ =>
        exact (Settles.of_lost .open rfl rfl).proper_of_error connecting rfl writes
    · rw [failed]
      exact settles.proper_of_error connecting rfl writes
  · exact (settles _ .open).proper_of_error connecting rfl writes

private theorem proper_awaitHello (limit : Duration) :
    (c.perform (.awaitHello limit)).Ensures Traffic.anyhow .untouched
      (Proper (.awaitHello limit) c) := by
  have connects : c.expect .connecting = .ok () := if_pos connecting
  show Plan.Ensures _ ((c.awaitHello limit).bind _) _ _
  rw [Connection.awaitHello, connects]
  refine Plan.ensures_bind.mpr ((hears_awaitPacketFor c limit _).bind ?_)
  rintro ⟨received, c'⟩ t' ⟨moment, hears⟩
  have writes : WritesHandshake c t' := .inl hears.written
  show Proper _ c ((c'.concludeHello limit received).1.map .hello,
    (c'.concludeHello limit received).2) t'
  rw [concludeHello]
  obtain ⟨p, rfl, answered⟩ | ⟨e, c'', failed, settles⟩ :=
    hears.handshake (.awaitHello limit) .connecting limit fun _ => rfl
  · rw [answered]
    cases p with
    | hello role clientId =>
      refine Settles.of_ok.proper_of_connecting connecting rfl (fun _ _ opened => ?_) writes
      cases (hears.state.symm.trans opened).symm.trans connecting
    | _ =>
      exact (Settles.of_lost .open rfl rfl).proper_of_error connecting rfl writes
  · rw [failed]
    exact settles.proper_of_error connecting rfl writes

private theorem proper_acceptHello (terms : Welcome) :
    (c.perform (.acceptHello terms)).Ensures Traffic.anyhow .untouched
      (Proper (.acceptHello terms) c) := by
  have connects : c.expect .connecting = .ok () := if_pos connecting
  show Plan.Ensures _ ((c.acceptHello terms).bind _) _ _
  rw [Connection.acceptHello, connects]
  refine Plan.ensures_bind.mpr ((posted_write c _ _).bind fun result t posted => ?_)
  have writes := posted.writesHandshake rfl
  obtain ⟨bytes, encoded, rfl, rfl⟩ | ⟨e, c', rfl, settles⟩ := posted.outcome
  · refine Settles.of_ok.proper_of_connecting connecting rfl (fun _ _ _ => ?_) writes
    exact .inl ⟨terms, encoded⟩
  · exact (settles _ .open).proper_of_error connecting rfl writes

end Handshake

section Exchange

variable (isOpen : c.state = .open)

include isOpen

private theorem proper_send (p : Packet) :
    (c.perform (.send p)).Ensures Traffic.anyhow .untouched (Proper (.send p) c) := by
  have opened : c.expect .open = .ok () := if_pos isOpen
  show Plan.Ensures _ ((c.send p).bind _) _ _
  rw [Connection.send, opened]
  refine (posted_write c _ _).bind fun result t posted => ?_
  obtain ⟨bytes, encoded, rfl, rfl⟩ | ⟨e, c', rfl, settles⟩ := posted.outcome
  · exact (isOpen ▸ Settles.of_ok).proper_of_open isOpen rfl
  · exact (settles _ .open).proper_of_open isOpen rfl

private theorem proper_of_hears {deadline : Option Instant} {before : Traffic} {received : Received}
    (needs : call.needs = some .open) (hears : Hears c deadline before received c' t)
    (limit : Duration) (kept : deadline = none ∨ ∀ ms, call.keeps (.timeout ms)) :
    Proper call c ((c'.conclude limit received).1.map .packet, (c'.conclude limit received).2)
      t := by
  obtain ⟨p, rfl, heard⟩ | ⟨e, c'', failed, settles⟩ :=
    hears.outcome .open limit kept
  · rw [heard]
    have still : c'.state = .open := hears.state.trans isOpen
    exact (still ▸ Settles.of_ok).proper_of_open isOpen needs
  · rw [failed]
    exact settles.proper_of_open isOpen needs

private theorem proper_receive :
    (c.perform .receive).Ensures Traffic.anyhow .untouched (Proper .receive c) := by
  have opened : c.expect .open = .ok () := if_pos isOpen
  show Plan.Ensures _ (c.receive.bind _) _ _
  rw [Connection.receive, opened]
  refine Plan.ensures_bind.mpr ((hears_awaitPacket c none _).bind ?_)
  intro result t hears
  exact proper_of_hears isOpen rfl hears _ (.inl rfl)

private theorem proper_receiveFor (limit : Duration) :
    (c.perform (.receiveFor limit)).Ensures Traffic.anyhow .untouched
      (Proper (.receiveFor limit) c) := by
  have opened : c.expect .open = .ok () := if_pos isOpen
  show Plan.Ensures _ ((c.receiveFor limit).bind _) _ _
  rw [Connection.receiveFor, opened]
  refine Plan.ensures_bind.mpr ((hears_awaitPacketFor c limit _).bind ?_)
  rintro result t ⟨moment, hears⟩
  exact proper_of_hears isOpen rfl hears _ (.inr fun _ => rfl)

private theorem proper_request (p : Packet) (limit : Duration) :
    (c.perform (.request p limit)).Ensures Traffic.anyhow .untouched
      (Proper (.request p limit) c) := by
  have opened : c.expect .open = .ok () := if_pos isOpen
  show Plan.Ensures _ ((c.request p limit).bind _) _ _
  rw [Connection.request, Connection.send, opened]
  refine Plan.ensures_bind.mpr ((posted_write c _ _).bind fun result t posted => ?_)
  obtain ⟨bytes, encoded, rfl, rfl⟩ | ⟨e, c', rfl, settles⟩ := posted.outcome
  · show Plan.Ensures _ (c.receiveFor limit) _ _
    rw [Connection.receiveFor, opened]
    refine (hears_awaitPacketFor c limit _).bind ?_
    rintro result t ⟨moment, hears⟩
    exact proper_of_hears isOpen rfl hears _ (.inr fun _ => rfl)
  · exact (settles _ .open).proper_of_open isOpen rfl

end Exchange

section Ends

private theorem proper_close (c : Connection) :
    (c.perform .close).Ensures Traffic.anyhow .untouched (Proper .close c) := by
  show Plan.Ensures _ (c.close.bind _) _ _
  rw [close]
  split_ifs with closed
  · exact proper_of_closed rfl closed fun _ => .inl rfl
  · exact fun _ _ => proper_of_closed rfl rfl fun _ => .inl rfl

private theorem written_drain (deadline : Instant) (reads : Nat) (c : Connection) (t : Traffic) :
    (drain deadline reads c).Ensures Traffic.anyhow t fun _ t' => t'.written = t.written := by
  induction reads generalizing c t with
  | zero => rfl
  | succ reads ih =>
    rw [drain]
    refine (hears_awaitPacket c (some deadline) t).bind ?_
    rintro ⟨received, c'⟩ t' hears
    cases received with
    | packet p => exact (ih c' t').mono fun _ _ same => same.trans hears.written
    | _ => exact hears.written

private theorem proper_reject (c : Connection) (reason : RejectReason) (linger : Duration) :
    (c.perform (.reject reason linger)).Ensures Traffic.anyhow .untouched
      (Proper (.reject reason linger) c) := by
  show Plan.Ensures _ ((c.reject reason linger).bind _) _ _
  rw [reject]
  split_ifs with other
  · rw [close]
    split_ifs with closed
    · exact proper_of_closed rfl closed fun connecting => absurd connecting other
    · exact fun _ _ => proper_of_closed rfl rfl fun connecting => absurd connecting other
  · refine Plan.ensures_bind.mpr ((posted_write c _ _).bind fun result t posted => ?_)
    have writes := posted.writesHandshake rfl
    obtain ⟨bytes, encoded, rfl, rfl⟩ | ⟨e, c', rfl, -⟩ := posted.outcome
    · intro _ _ now _
      refine (written_drain _ _ c _).bind fun _ t' same => ?_
      refine proper_of_closed rfl rfl fun _ => ?_
      rw [WritesHandshake, same]
      exact writes
    · exact proper_of_closed rfl rfl fun _ => writes

end Ends

/-- Every operation that can be carried out keeps the rules. -/
theorem proper_perform (fit : ∀ needed, call.needs = some needed → c.state = needed) :
    (c.perform call).Ensures Traffic.anyhow .untouched (Proper call c) := by
  cases call with
  | greet role clientId limit => exact proper_greet (fit _ rfl) role clientId limit
  | awaitHello limit => exact proper_awaitHello (fit _ rfl) limit
  | acceptHello terms => exact proper_acceptHello (fit _ rfl) terms
  | reject reason linger => exact proper_reject c reason linger
  | send p => exact proper_send (fit _ rfl) p
  | receive => exact proper_receive (fit _ rfl)
  | receiveFor limit => exact proper_receiveFor (fit _ rfl) limit
  | request p limit => exact proper_request (fit _ rfl) p limit
  | close => exact proper_close c

end Operations

end Connection

/-- What a connection has been through since it stood somewhere.  A limit may be agreed on between
two operations. -/
inductive Life (c₀ : Connection) : List ConnectionDeed → Connection → Prop
  | begins : Life c₀ [] c₀
  | agrees {deeds : List ConnectionDeed} {c : Connection} (life : Life c₀ deeds c) (limit : Nat) :
      Life c₀ deeds (c.setMaxMessageSize limit)
  | acts {deeds : List ConnectionDeed} {d : ConnectionDeed} (life : Life c₀ deeds d.before)
      (happens : d.Happens) : Life c₀ (deeds ++ [d]) d.after

namespace ConnectionDeed

variable {d : ConnectionDeed}

private theorem Happens.lawful_of_fit (happens : d.Happens)
    (fit : ∀ needed, d.call.needs = some needed → d.before.state = needed) : d.Lawful := by
  have proper := (Connection.proper_perform fit).of_traces happens.traces happens.allowed
  refine ⟨proper.forward, proper.opens, proper.writes, fun needed needs other => ?_,
    fun ending needs => ?_, proper.fails, proper.ends⟩
  · exact absurd (fit needed needs) other
  · obtain ⟨needed, needs⟩ := Option.isSome_iff_exists.mp needs
    rw [fit needed needs] at ending
    rcases ConnectionCall.connecting_or_open needs with rfl | rfl <;> simp at ending

private theorem Happens.lawful_of_refused (happens : d.Happens) {needed : ConnectionState}
    (needs : d.call.needs = some needed) (other : d.before.state ≠ needed) : d.Lawful := by
  obtain ⟨call, c, trace, result, c'⟩ := d
  obtain ⟨e, refused, closed⟩ := Connection.expect_of_ne other
  have traces := happens.traces
  rw [Connection.perform_of_refused needs refused] at traces
  cases traces
  exact {
    forward := Nat.le_refl _
    opens := .inl
    writes := fun _ => .inl rfl
    idle := fun _ _ _ => ⟨rfl, rfl, e, rfl⟩
    finished := fun ending _ => congrArg Except.error (closed ending)
    fails := fun _ same => absurd (Option.some.inj (same.symm.trans needs)) other
    ends := fun none => by cases none.symm.trans needs }

private theorem Happens.lawful (happens : d.Happens) : d.Lawful := by
  by_cases fit : ∀ needed, d.call.needs = some needed → d.before.state = needed
  · exact happens.lawful_of_fit fit
  · simp only [not_forall] at fit
    obtain ⟨needed, needs, other⟩ := fit
    exact happens.lawful_of_refused needs other

end ConnectionDeed

private theorem ConnectionState.eq_closed_of_rank {state : ConnectionState}
    (last : ConnectionState.closed.rank ≤ state.rank) : state = .closed := by
  cases state <;> simp_all [rank]

namespace Life

variable {c₀ c : Connection} {deeds : List ConnectionDeed}

private theorem forward (life : Life c₀ deeds c) : c₀.state.rank ≤ c.state.rank ∧
    ∀ d ∈ deeds, c₀.state.rank ≤ d.before.state.rank ∧ d.after.state.rank ≤ c.state.rank := by
  induction life with
  | begins => exact ⟨Nat.le_refl _, fun _ mem => absurd mem List.not_mem_nil⟩
  | agrees _ _ ih => exact ih
  | @acts deeds d _ happens ih =>
    have step := happens.lawful.forward
    refine ⟨Nat.le_trans ih.1 step, fun e mem => ?_⟩
    rcases List.mem_append.mp mem with old | new
    · exact ⟨(ih.2 e old).1, Nat.le_trans (ih.2 e old).2 step⟩
    · obtain rfl := List.mem_singleton.mp new
      exact ⟨ih.1, Nat.le_refl _⟩

private theorem happens (life : Life c₀ deeds c) : ∀ d ∈ deeds, d.Happens := by
  induction life with
  | begins => exact fun _ mem => absurd mem List.not_mem_nil
  | agrees _ _ ih => exact ih
  | acts _ happens ih =>
    exact List.forall_mem_append.mpr ⟨ih, List.forall_mem_singleton.mpr happens⟩

/-- Of two deeds the later one starts from a state that is at least as far. -/
theorem pairwise (life : Life c₀ deeds c) :
    deeds.Pairwise fun d e => d.after.state.rank ≤ e.before.state.rank := by
  induction life with
  | begins => exact .nil
  | agrees _ _ ih => exact ih
  | acts life _ ih =>
    refine List.pairwise_append.mpr ⟨ih, List.pairwise_singleton _ _, fun d mem e new => ?_⟩
    obtain rfl := List.mem_singleton.mp new
    exact (life.forward.2 d mem).2

end Life

/-- What holds of any sequence of operations on a connection, over any transport.  Each of them
keeps the rules; between them, too, the state never goes back; and a connection that was closed or
rejected is closed for good. -/
theorem connections_only_go_forward {c₀ c : Connection} {deeds : List ConnectionDeed}
    (life : Life c₀ deeds c) :
    (∀ d ∈ deeds, d.Lawful ∧
      c₀.state.rank ≤ d.before.state.rank ∧ d.after.state.rank ≤ c.state.rank ∧
        (d.call.needs = none → c.state = .closed)) ∧
      deeds.Pairwise fun d e => d.after.state.rank ≤ e.before.state.rank ∧
        (d.call.needs = none → e.before.state = .closed ∧ e.after.state = .closed) := by
  have lawful : ∀ d ∈ deeds, d.Lawful := fun d mem => (life.happens d mem).lawful
  refine ⟨fun d mem => ?_, life.pairwise.imp_of_mem fun {d e} hd he later => ?_⟩
  · obtain ⟨before, after⟩ := life.forward.2 d mem
    refine ⟨lawful d mem, before, after, fun needs => ?_⟩
    rw [(lawful d mem).ends needs] at after
    exact ConnectionState.eq_closed_of_rank after
  · refine ⟨later, fun needs => ?_⟩
    rw [(lawful d hd).ends needs] at later
    exact ⟨ConnectionState.eq_closed_of_rank later,
      ConnectionState.eq_closed_of_rank (Nat.le_trans later (lawful e he).forward)⟩

/-- A transport that takes all that is written, and whose reads end as listed. -/
def scripted (action : Action) (reads : List ReadOutcome) :
    action.Outcome × List ReadOutcome :=
  match action with
  | .clock => (Instant.start, reads)
  | .dial _ _ => (DialOutcome.elapsed, reads)
  | .read _ _ _ => (reads.headD .ended, reads.tail)
  | .write _ bytes => (WriteOutcome.accepted (bytes.length - 1), reads)
  | .shutdown _ | .discard _ | .sleepUntil _ | .log _ => ((), reads)

def ConnectionDeed.scripted (c : Connection) (call : ConnectionCall)
    (reads : List ReadOutcome) : ConnectionDeed where
  call := call
  before := c
  trace := (c.perform call).trace WorkBroker.scripted reads
  result := ((c.perform call).run WorkBroker.scripted reads).1.1
  after := ((c.perform call).run WorkBroker.scripted reads).1.2

private theorem ConnectionDeed.happens_scripted {c : Connection} {call : ConnectionCall}
    {reads : List ReadOutcome}
    (allowed : Traffic.anyhow.Allow .untouched (ConnectionDeed.scripted c call reads).trace) :
    (ConnectionDeed.scripted c call reads).Happens :=
  ⟨(c.perform call).traces_trace WorkBroker.scripted reads, allowed⟩

def welcomed : ConnectionDeed :=
  let welcome := (Bytes.ofNat headerSize 17 ++ PacketCodec.body (.welcome ⟨7, 250, 2⟩))
  .scripted (.ofLink 0 "broker" 0 250) (.greet .monitor "m" (.ofMillis 100))
    [.bytes 0 (welcome.tail.take 5), .bytes (welcome.getD 6 0) (welcome.drop 7)]

def waited : ConnectionDeed :=
  .scripted welcomed.after (.receiveFor (.ofMillis 100)) [.bytes 0 [0, 0], .elapsed]

def parted : ConnectionDeed := .scripted waited.after .close []

def asked : ConnectionDeed := .scripted parted.after (.send .count) []

def briefly : List ConnectionDeed := [welcomed, waited, parted, asked]

private theorem life_briefly : Life (.ofLink 0 "broker" 0 250) briefly asked.after := by
  have last : asked.Happens := ConnectionDeed.happens_scripted (by decide +kernel)
  have first : Life (.ofLink 0 "broker" 0 250) [welcomed] welcomed.after :=
    .acts .begins (ConnectionDeed.happens_scripted (by decide +kernel))
  have second : Life (.ofLink 0 "broker" 0 250) [welcomed, waited] waited.after :=
    .acts first (ConnectionDeed.happens_scripted (by decide +kernel))
  have third : Life (.ofLink 0 "broker" 0 250) [welcomed, waited, parted] parted.after :=
    .acts second (ConnectionDeed.happens_scripted (by decide +kernel))
  exact .acts third last

theorem welcomed_client_goes_forward :
    (welcomed.after.state, waited.after.state, parted.after.state, asked.after.state) =
        (.open, .open, .closed, .closed) ∧
      (∀ d ∈ briefly, d.Lawful ∧ (ConnectionState.connecting).rank ≤ d.before.state.rank ∧
        d.after.state.rank ≤ asked.after.state.rank ∧
          (d.call.needs = none → asked.after.state = .closed)) ∧
      briefly.Pairwise fun d e => d.after.state.rank ≤ e.before.state.rank ∧
        (d.call.needs = none → e.before.state = .closed ∧ e.after.state = .closed) :=
  ⟨by decide +kernel, connections_only_go_forward life_briefly⟩

end WorkBroker
