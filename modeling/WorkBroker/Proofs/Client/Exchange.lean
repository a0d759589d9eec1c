import WorkBroker.Connection.Operations
import WorkBroker.Proofs.Net.Wires
/-!
One exchange over a connection: a packet is written, and the next packet that is read is its answer.
A connection is in step when it has had every answer and holds no byte that it has not understood.
An exchange starts in step.  Afterwards the connection is in step again, or no longer open, or the
time for the answer ran out.
-/

set_option autoImplicit false
set_option relaxedAutoImplicit false

namespace WorkBroker

open Net
open Bytes (framed framedAll unframe)

namespace PacketCodec

variable {c : PacketCodec}

theorem eq_body_of_welcome {b : Bytes} {terms : Welcome}
    (h : c.decodeBody b = .ok (.welcome terms)) : b = body (.welcome terms) := by
  rcases (accepts_of_decodeBody h).1.spells with same | ⟨_, _, isError, _⟩
  · exact same
  · cases isError

end PacketCodec

namespace Connection

variable {answers : Answers} {w : Wires} {c : Connection} {sent : List Bytes}

/-- A connection that has written some packets, has had an answer to each, and holds nothing else.
-/
structure InStep (answers : Answers) (w : Wires) (c : Connection) (sent : List Bytes) : Prop where
  small : ∀ b ∈ sent, b.length ≤ maxHeaderValue
  written : w.written c.link = framedAll sent
  taken : w.taken c.link = framedAll (answers.upTo c.link sent.length)
  nothing : c.inbox.bytes = []

/-- A connection that has written some packets and has not had all of the answer to the last one. -/
structure Awaits (answers : Answers) (w : Wires) (c : Connection) (n : Nat) : Prop where
  count : (w.packets c.link).length = n + 1
  taken : w.taken c.link = framedAll (answers.upTo c.link n) ++ c.inbox.bytes
  front : c.inbox.bytes <+: framed (answers.body c.link n)

/-- What may have come of waiting for the answer to packet number `n` on the link of a connection.
-/
structure Arrival (answers : Answers) (w : Wires) (c : Connection) (n : Nat) (r : Received)
    (c' : Connection) (w' : Wires) : Prop where
  written : w'.written = w.written
  link : c'.link = c.link
  codec : c'.codec = c.codec
  state : c'.state = c.state
  answer : ∀ p, r = .packet p → c'.inbox.bytes = [] ∧
    w'.taken c.link = framedAll (answers.upTo c.link (n + 1)) ∧
      c.codec.decodeBody (answers.body c.link n) = .ok p

section Waiting

variable {n : Nat}

private theorem Awaits.take (h : Awaits answers w c n) {bytes : Bytes}
    (may : w.taken c.link ++ bytes <+: framedAll (answers.upTo c.link (w.packets c.link).length)) :
    Awaits answers (w.take c.link bytes) (c.makeRoom.withBytes bytes) n := by
  have all : (c.makeRoom.withBytes bytes).inbox.bytes = c.inbox.bytes ++ bytes := by
    simp only [withBytes, Connection.makeRoom, Inbox.bytes_append, Inbox.bytes_reserve]
  rw [h.taken, h.count, answers.framedAll_upTo_succ, List.append_assoc] at may
  refine ⟨h.count, ?_, ?_⟩
  · rw [all, ← List.append_assoc]
    exact (w.taken_take c.link bytes).trans (congrArg (· ++ bytes) h.taken)
  · rw [all]
    exact (List.prefix_append_right_inj _).mp may

private theorem Arrival.since {v : Wires} {d c' : Connection} {r : Received} {w' : Wires}
    (h : Arrival answers v d n r c' w') (written : v.written = w.written) (link : d.link = c.link)
    (codec : d.codec = c.codec) (state : d.state = c.state) : Arrival answers w c n r c' w' := by
  obtain ⟨written', link', codec', state', answer⟩ := h
  rw [link, codec] at answer
  exact ⟨written'.trans written, link'.trans link, codec'.trans codec, state'.trans state, answer⟩

private theorem Arrival.of_nothing {r : Received} (none : ∀ p, r ≠ .packet p) :
    Arrival answers w c n r c w :=
  ⟨rfl, rfl, rfl, rfl, fun p isPacket => absurd isPacket (none p)⟩

private theorem Awaits.look (h : Awaits answers w c n) {r : Received} {c' : Connection}
    (found : c.look = some (r, c')) : Arrival answers w c n r c' w := by
  rw [Connection.look] at found
  rcases c.codec.scan_of_prefix (answers.small c.link n) h.front with
    none | ⟨declared, long⟩ | ⟨whole, frame⟩
  · rw [none] at found
    cases found
  · rw [long] at found
    obtain ⟨rfl, rfl⟩ := Prod.mk.inj (Option.some.inj found)
    exact .of_nothing nofun
  · rw [frame] at found
    cases decoded : c.codec.decodeBody (answers.body c.link n) with
    | error e =>
      rw [decoded] at found
      obtain ⟨rfl, rfl⟩ := Prod.mk.inj (Option.some.inj found)
      exact ⟨rfl, rfl, rfl, rfl, fun p isPacket => by cases isPacket⟩
    | ok p =>
      rw [decoded] at found
      obtain ⟨rfl, rfl⟩ := Prod.mk.inj (Option.some.inj found)
      refine ⟨rfl, rfl, rfl, rfl, fun q isPacket => ?_⟩
      obtain rfl := Received.packet.inj isPacket
      refine ⟨rfl, ?_, decoded⟩
      rw [answers.framedAll_upTo_succ, h.taken, whole]

private theorem Awaits.await (h : Awaits answers w c n) : Awaits answers w c.await n := by
  refine ⟨h.count, ?_, ?_⟩
  · rw [Connection.await, Inbox.bytes_await]
    exact h.taken
  · rw [Connection.await, Inbox.bytes_await]
    exact h.front

private theorem Awaits.makeRoom (h : Awaits answers w c n) : Awaits answers w c.makeRoom n := by
  refine ⟨h.count, ?_, ?_⟩
  · rw [Connection.makeRoom, Inbox.bytes_reserve]
    exact h.taken
  · rw [Connection.makeRoom, Inbox.bytes_reserve]
    exact h.front

private theorem Awaits.readPacket (h : Awaits answers w c n) (deadline : Option Instant) :
    (c.readPacket deadline).Ensures answers.obliging w fun result w' =>
      Arrival answers w c n result.1 result.2 w' := by
  induction c using readPacket.induct generalizing w with
  | case1 c ih =>
    rw [Connection.readPacket]
    intro outcome may
    cases outcome with
    | bytes first rest =>
      have more := h.take may
      simp only
      split
      · rename_i found looked
        exact (more.look looked).since rfl rfl rfl rfl
      · rename_i nothing
        exact (ih _ _ nothing more.await).mono fun _ _ arrival => arrival.since rfl rfl rfl rfl
    | ended =>
      -- What has come so far is looked at once more.
      cases looked : c.makeRoom.look with
      | none =>
        refine (Arrival.of_nothing ?_).since rfl rfl rfl rfl
        simp only [Option.getD_none, atEnd]
        split
        · intro p different
          cases different
        · intro p different
          cases different
      | some found =>
        have arrival := h.makeRoom.look looked
        simp only [Option.getD_some]
        exact arrival.since rfl rfl rfl rfl
    | failed failure =>
      have nothing (p : Packet) : Received.failed (.io failure) ≠ .packet p := by simp
      exact (Arrival.of_nothing nothing).since rfl rfl rfl rfl
    | elapsed =>
      have nothing (p : Packet) : Received.elapsed ≠ .packet p := by simp
      exact (Arrival.of_nothing nothing).since rfl rfl rfl rfl

private theorem Awaits.awaitPacketFor (h : Awaits answers w c n) (limit : Duration) :
    (c.awaitPacketFor limit).Ensures answers.obliging w fun result w' =>
      Arrival answers w c n result.1 result.2 w' := by
  intro now _
  show Plan.Ensures _ (c.awaitPacket _) _ _
  rw [awaitPacket]
  split
  · split
    · rename_i found looked
      exact h.look looked
    · exact (h.await.readPacket _).mono fun _ _ arrival => arrival.since rfl rfl rfl rfl
  · exact h.readPacket _

end Waiting

section Writing

variable {p : Packet}

private theorem ensures_writeAll (answers : Answers) (w : Wires) (link : Nat) (bytes : Bytes) :
    (writeAll link bytes).Ensures answers.obliging w fun result w' =>
      result = .ok () → w' = w.write link bytes := by
  induction bytes using writeAll.induct generalizing w with
  | case1 =>
    rw [writeAll]
    exact fun _ => (w.write_nil link).symm
  | case2 first rest ih =>
    rw [writeAll]
    intro outcome may
    cases outcome with
    | accepted more =>
      refine (ih more (w.write link ((first :: rest).take (more + 1)))).mono ?_
      intro result w' written done
      rw [written done, Wires.write_append, List.take_succ_cons, List.cons_append,
        List.take_append_drop]
    | failed failure =>
      intro done
      cases done

/-- What may have come of writing a packet on a connection that is in step: it is written, or
refused because it is too large, or the connection closes. -/
inductive Written (answers : Answers) (w : Wires) (c : Connection) (p : Packet) :
    Except ConnectionError Unit × Connection → Wires → Prop
  | whole (valid : c.codec.validate p = .ok ()) :
      Written answers w c p (.ok (), c) (w.write c.link (framed (PacketCodec.body p)))
  | tooLarge (size limit : Nat) : Written answers w c p (.error (.oversize size limit), c) w
  | broken (e : ConnectionError) (w' : Wires) :
      Written answers w c p (.error e, { c with state := .closing }) w'

private theorem ensures_write (answers : Answers) (w : Wires) (c : Connection) (p : Packet) :
    (c.write p).Ensures answers.obliging w (Written answers w c p) := by
  rw [write]
  cases encoded : c.codec.encode p with
  | error e =>
    cases e with
    | oversize size limit =>
      rw [encode, encoded]
      exact .tooLarge size limit
    | _ =>
      rw [encode, encoded]
      exact .broken _ w
  | ok bytes =>
    obtain ⟨valid, rfl⟩ := PacketCodec.of_encode encoded
    rw [encode, encoded]
    refine (ensures_writeAll answers w c.link _).bind ?_
    intro result w' written
    cases result with
    | ok =>
      rw [written rfl]
      exact .whole valid
    | error failure => exact .broken _ w'

theorem InStep.packets (h : InStep answers w c sent) : w.packets c.link = sent := by
  rw [Wires.packets, h.written, Bytes.unframe_framedAll h.small]

theorem InStep.whole (h : InStep answers w c sent) : InStep answers w c (w.packets c.link) :=
  h.packets.symm ▸ h

theorem InStep.setMaxMessageSize (h : InStep answers w c sent) (n : Nat) :
    InStep answers w (c.setMaxMessageSize n) sent := ⟨h.small, h.written, h.taken, h.nothing⟩

private theorem InStep.small_concat (h : InStep answers w c sent) {b : Bytes}
    (small : b.length ≤ maxHeaderValue) : ∀ x ∈ sent ++ [b], x.length ≤ maxHeaderValue := by
  intro x mem
  rcases List.mem_append.mp mem with old | new
  · exact h.small x old
  · rwa [List.mem_singleton.mp new]

private theorem InStep.awaits (h : InStep answers w c sent) {b : Bytes}
    (small : b.length ≤ maxHeaderValue) :
    Awaits answers (w.write c.link (framed b)) c sent.length := by
  refine ⟨?_, ?_, ?_⟩
  · rw [Wires.packets, Wires.written_write, h.written, ← Bytes.framedAll_concat,
      Bytes.unframe_framedAll (h.small_concat small), List.length_append]
    rfl
  · rw [h.nothing, List.append_nil]
    exact h.taken
  · rw [h.nothing]
    exact List.nil_prefix

private theorem InStep.of_arrival (h : InStep answers w c sent) {b : Bytes}
    (small : b.length ≤ maxHeaderValue) {q : Packet} {c' : Connection} {w' : Wires}
    (arrival : Arrival answers (w.write c.link (framed b)) c sent.length (.packet q) c' w') :
    InStep answers w' c' (sent ++ [b]) := by
  obtain ⟨nothing, taken, -⟩ := arrival.answer q rfl
  refine ⟨h.small_concat small, ?_, ?_, nothing⟩
  · rw [arrival.written, arrival.link, Wires.written_write, h.written, Bytes.framedAll_concat]
  · rw [arrival.link, taken, List.length_append]
    rfl

end Writing

section Exchanges

variable {p : Packet}

/-- What may have come of a request on a connection that is in step. -/
inductive Exchanged (answers : Answers) (w : Wires) (c : Connection) (sent : List Bytes)
    (p : Packet) : Except ConnectionError Packet × Connection → Wires → Prop
  | answered {reply : Packet} {c' : Connection} {w' : Wires} (link : c'.link = c.link)
      (codec : c'.codec = c.codec) (inStep : InStep answers w' c' (sent ++ [PacketCodec.body p]))
      (valid : c.codec.validate p = .ok ())
      (answer : c.codec.decodeBody (answers.body c.link sent.length) = .ok reply) :
      Exchanged answers w c sent p (.ok reply, c') w'
  | tooLarge (size limit : Nat) : Exchanged answers w c sent p (.error (.oversize size limit), c) w
  | late (ms : Nat) (c' : Connection) (w' : Wires) :
      Exchanged answers w c sent p (.error (.timeout ms), c') w'
  | broken (e : ConnectionError) (c' : Connection) (w' : Wires) (notOpen : c'.state ≠ .open) :
      Exchanged answers w c sent p (.error e, c') w'

theorem InStep.request (h : InStep answers w c sent) (isOpen : c.state = .open)
    (room : c.codec.maxFrameSize ≤ maxHeaderValue) (p : Packet) (limit : Duration) :
    (c.request p limit).Ensures answers.obliging w (Exchanged answers w c sent p) := by
  have opened : c.expect .open = .ok () := if_pos isOpen
  refine Plan.Ensures.bind (Q := Written answers w c p) ?_ ?_
  · rw [send, opened]
    exact ensures_write answers w c p
  · intro result w₁ written
    cases written with
    | tooLarge size limit => exact .tooLarge size limit
    | broken e => exact .broken e _ w₁ (by simp)
    | whole valid =>
      have small : (PacketCodec.body p).length ≤ maxHeaderValue :=
        Nat.le_trans (PacketCodec.length_body_le valid) room
      show Plan.Ensures _ (c.receiveFor limit) _ _
      rw [receiveFor, opened]
      refine ((h.awaits small).awaitPacketFor limit).bind ?_
      rintro ⟨received, c'⟩ w' arrival
      cases received with
      | packet q =>
        exact .answered arrival.link arrival.codec (h.of_arrival small arrival) valid
          (arrival.answer q rfl).2.2
      | failed e => exact .broken _ _ w' (by simp)
      | ended => exact .broken _ _ w' (by simp)
      | elapsed => exact .late _ c' w'

/-- What has come of a handshake that succeeded. -/
structure Welcomed (answers : Answers) (c : Connection) (role : Role) (name : String)
    (terms : Welcome) (c' : Connection) (w' : Wires) : Prop where
  isOpen : c'.state = .open
  inStep : InStep answers w' c' [PacketCodec.body (.hello role name)]
  answer : c.codec.decodeBody (answers.body c.link 0) = .ok (.welcome terms)

theorem InStep.greet (h : InStep answers w c []) (connecting : c.state = .connecting) (role : Role)
    (name : String) (limit : Duration) :
    (c.greet role name limit).Ensures answers.obliging w fun result w' =>
      ∀ terms, result.1 = .ok terms → Welcomed answers c role name terms result.2 w' := by
  have connects : c.expect .connecting = .ok () := if_pos connecting
  rw [Connection.greet, connects]
  refine (ensures_write answers w c _).bind ?_
  intro result w₁ written
  cases written with
  | tooLarge size limit =>
    intro terms welcomed
    cases welcomed
  | broken e =>
    intro terms welcomed
    cases welcomed
  | whole valid =>
    have small : (PacketCodec.body (.hello role name)).length ≤ maxHeaderValue := by
      have fields := PacketCodec.length_fields_le valid
      have noPayload : PacketCodec.payload? (.hello role name) = none := rfl
      rw [PacketCodec.length_body, noPayload, Option.elim_none, maxHeaderValue]
      rw [envelopeRoom] at fields
      omega
    refine ((h.awaits small).awaitPacketFor limit).bind ?_
    rintro ⟨received, c'⟩ w' arrival terms welcomed
    cases received with
    | packet q =>
      cases q with
      | welcome offered =>
        obtain rfl := Except.ok.inj welcomed
        obtain ⟨nothing, taken, answer⟩ := arrival.answer _ rfl
        have again := h.of_arrival small arrival
        exact ⟨rfl, ⟨again.small, again.written, again.taken, again.nothing⟩, answer⟩
      | _ => cases welcomed
    | _ => cases welcomed

end Exchanges
end Connection
end WorkBroker
