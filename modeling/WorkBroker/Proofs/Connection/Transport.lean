import WorkBroker.Connection.Operations
import WorkBroker.Proofs.Net.Surroundings
import WorkBroker.Proofs.Wire.Grammar
/-!
What the operations of a connection make of the outcomes of its transport, whatever these are.  The
surroundings remember the bytes that were written and taken (`Traffic`); all that is required of
them is that a wait without a deadline does not run out of time.
-/

set_option autoImplicit false
set_option relaxedAutoImplicit false

namespace WorkBroker

namespace Net

/-- The bytes that were written to a transport, and those that were taken from it. -/
structure Traffic where
  written : Bytes
  taken : Bytes

namespace Traffic

def untouched : Traffic := ⟨[], []⟩

def write (t : Traffic) (bytes : Bytes) : Traffic := { t with written := t.written ++ bytes }

def take (t : Traffic) (bytes : Bytes) : Traffic := { t with taken := t.taken ++ bytes }

private theorem write_nil (t : Traffic) : t.write [] = t := by
  rw [write, List.append_nil]

private theorem write_append (t : Traffic) (first more : Bytes) :
    (t.write first).write more = t.write (first ++ more) := by
  simp only [write, List.append_assoc]

def after (t : Traffic) (o : Occurrence) : Traffic :=
  match o with
  | ⟨.write _ bytes, outcome⟩ =>
    match (outcome : WriteOutcome) with
    | .accepted more => t.write (bytes.take (more + 1))
    | .failed _ => t
  | ⟨.read _ _ _, outcome⟩ =>
    match (outcome : ReadOutcome) with
    | .bytes first rest => t.take (first :: rest)
    | _ => t
  | _ => t

/-- Whether something does not run out of a time that is not limited. -/
def Permits (o : Occurrence) : Prop :=
  match o with
  | ⟨.read _ none _, outcome⟩ => (outcome : ReadOutcome) ≠ .elapsed
  | _ => True

instance (o : Occurrence) : Decidable (Permits o) :=
  match o with
  | ⟨.read _ none _, outcome⟩ =>
    match (outcome : ReadOutcome) with
    | .elapsed => isFalse fun endless => endless rfl
    | .bytes _ _ | .ended | .failed _ => isTrue nofun
  | ⟨.read _ (some _) _, _⟩ | ⟨.clock, _⟩ | ⟨.dial _ _, _⟩ | ⟨.write _ _, _⟩ | ⟨.shutdown _, _⟩
  | ⟨.discard _, _⟩ | ⟨.sleepUntil _, _⟩ | ⟨.log _, _⟩ => isTrue trivial

def anyhow : Surroundings Traffic := ⟨fun _ => Permits, after⟩

instance (t : Traffic) (o : Occurrence) : Decidable (anyhow.permits t o) :=
  inferInstanceAs (Decidable (Permits o))

end Traffic
end Net

open Net

/-- Whether a failure means that a connection cannot go on.  A packet that is too large is not sent,
and one that is late may still come. -/
def ConnectionError.isFatal : ConnectionError → Bool
  | .oversize _ _ | .timeout _ => false
  | _ => true

private theorem ConnectionError.isFatal_ofIo (failure : IoFailure) :
    (ConnectionError.ofIo failure).isFatal := by
  rw [ofIo]
  split_ifs <;> rfl

private theorem PacketCodec.malformed_of_scan {c : PacketCodec} {buffer rest : Bytes}
    {e : CodecError}
    (h : c.scan buffer = .frame (.error e) rest) : ∃ cause, e = .malformed cause := by
  simp only [scan] at h
  split_ifs at h
  obtain ⟨decoded, -⟩ := Scan.frame.inj h
  obtain ⟨cause, rfl, -⟩ := malformed_of_decodeBody decoded
  exact ⟨cause, rfl⟩

namespace Connection

variable {c c' d : Connection} {t t' t₁ : Traffic} {p : Packet} {r : Received}
  {deadline : Option Instant}

section Reading

/-- What may have come of waiting for a packet. -/
structure Hears (c : Connection) (deadline : Option Instant) (t : Traffic) (r : Received)
    (c' : Connection) (t' : Traffic) : Prop where
  state : c'.state = c.state
  codec : c'.codec = c.codec
  written : t'.written = t.written
  /-- A packet stands in front of all the bytes that had not been understood. -/
  packet : ∀ p, r = .packet p → ∃ more rest, t'.taken = t.taken ++ more ∧
    c.codec.scan (c.inbox.bytes ++ more) = .frame (.ok p) rest
  failed : ∀ e, r = .failed e → (ConnectionError.ofCodec e).isFatal
  elapsed : deadline = none → r ≠ .elapsed

private theorem Hears.since {bytes : Bytes} (h : Hears d deadline (t.take bytes) r c' t')
    (state : d.state = c.state) (codec : d.codec = c.codec)
    (all : d.inbox.bytes = c.inbox.bytes ++ bytes) : Hears c deadline t r c' t' where
  state := h.state.trans state
  codec := h.codec.trans codec
  written := h.written
  packet p isPacket := by
    obtain ⟨more, rest, taken, found⟩ := h.packet p isPacket
    refine ⟨bytes ++ more, rest, ?_, ?_⟩
    · rw [taken, ← List.append_assoc]
      rfl
    · rw [← List.append_assoc, ← all, ← codec, found]
  failed := h.failed
  elapsed := h.elapsed

private theorem Hears.like (h : Hears d deadline t r c' t') (state : d.state = c.state)
    (codec : d.codec = c.codec) (all : d.inbox.bytes = c.inbox.bytes) :
    Hears c deadline t r c' t' := by
  have none : t.take [] = t := by rw [Traffic.take, List.append_nil]
  exact (none.symm ▸ h).since state codec (all.trans (List.append_nil _).symm)

private theorem Hears.of_nothing (packet : ∀ p, r ≠ .packet p)
    (failed : ∀ e, r = .failed e → (ConnectionError.ofCodec e).isFatal)
    (elapsed : deadline = none → r ≠ .elapsed) : Hears c deadline t r c t where
  state := rfl
  codec := rfl
  written := rfl
  packet p isPacket := absurd isPacket (packet p)
  failed := failed
  elapsed := elapsed

private theorem Hears.of_failed {e : CodecError} (fatal : (ConnectionError.ofCodec e).isFatal) :
    Hears c deadline t (.failed e) c t :=
  .of_nothing (by simp) (fun _ isError => Received.failed.inj isError ▸ fatal) (by simp)

private theorem Hears.of_elapsed (limited : deadline ≠ none) : Hears c deadline t .elapsed c t :=
  .of_nothing (by simp) (by simp) fun unlimited => absurd unlimited limited

private theorem hears_look (found : c.look = some (r, c')) : Hears c deadline t r c' t := by
  rw [look] at found
  cases scanned : c.codec.scan c.inbox.bytes with
  | incomplete =>
    rw [scanned] at found
    cases found
  | tooLong declared =>
    rw [scanned] at found
    obtain ⟨rfl, rfl⟩ := Prod.mk.inj (Option.some.inj found)
    exact .of_failed rfl
  | frame decoded rest =>
    rw [scanned] at found
    cases decoded with
    | ok p =>
      obtain ⟨rfl, rfl⟩ := Prod.mk.inj (Option.some.inj found)
      refine ⟨rfl, rfl, rfl, fun q isPacket => ?_, nofun, nofun⟩
      obtain rfl := Received.packet.inj isPacket
      exact ⟨[], rest, (List.append_nil _).symm, by rw [List.append_nil, scanned]⟩
    | error e =>
      obtain ⟨rfl, rfl⟩ := Prod.mk.inj (Option.some.inj found)
      obtain ⟨cause, rfl⟩ := PacketCodec.malformed_of_scan scanned
      refine ⟨rfl, rfl, rfl, nofun, fun e isError => ?_, nofun⟩
      obtain rfl := Received.failed.inj isError
      rfl

private theorem hears_atEnd : Hears d deadline t c.atEnd d t := by
  rw [atEnd]
  split_ifs
  · exact .of_nothing (by simp) (by simp) (by simp)
  · exact .of_failed (ConnectionError.isFatal_ofIo _)

private theorem hears_readPacket (c : Connection) (deadline : Option Instant) (t : Traffic) :
    (c.readPacket deadline).Ensures Traffic.anyhow t fun result t' =>
      Hears c deadline t result.1 result.2 t' := by
  induction c using readPacket.induct generalizing t with
  | case1 c ih =>
    have room : c.makeRoom.inbox.bytes = c.inbox.bytes := Inbox.bytes_reserve _ _
    rw [readPacket]
    intro outcome may
    cases outcome with
    | bytes first rest =>
      have all : (c.makeRoom.withBytes (first :: rest)).inbox.bytes =
          c.inbox.bytes ++ first :: rest := by rw [withBytes, Inbox.bytes_append, room]
      simp only
      split
      · rename_i found looked
        exact (hears_look looked).since rfl rfl all
      · rename_i nothing
        refine (ih first rest nothing _).mono fun _ _ hears => hears.since rfl rfl ?_
        rw [await, Inbox.bytes_await, all]
    | ended =>
      cases looked : c.makeRoom.look with
      | none =>
        exact (hears_atEnd (d := c.makeRoom)).like rfl rfl room
      | some found =>
        exact (hears_look looked).like rfl rfl room
    | failed failure =>
      exact Hears.like (d := c.makeRoom) (.of_failed (ConnectionError.isFatal_ofIo _)) rfl rfl room
    | elapsed =>
      have limited : deadline ≠ none := by
        rintro rfl
        exact may rfl
      exact Hears.like (d := c.makeRoom) (.of_elapsed limited) rfl rfl room

theorem hears_awaitPacket (c : Connection) (deadline : Option Instant) (t : Traffic) :
    (c.awaitPacket deadline).Ensures Traffic.anyhow t fun result t' =>
      Hears c deadline t result.1 result.2 t' := by
  rw [awaitPacket]
  split
  · split
    · rename_i found looked
      exact hears_look looked
    · refine (hears_readPacket c.await deadline t).mono fun _ _ hears => hears.like rfl rfl ?_
      rw [await, Inbox.bytes_await]
  · exact hears_readPacket c deadline t

theorem hears_awaitPacketFor (c : Connection) (limit : Duration) (t : Traffic) :
    (c.awaitPacketFor limit).Ensures Traffic.anyhow t fun result t' =>
      ∃ moment, Hears c (some moment) t result.1 result.2 t' := by
  intro now _
  exact (hears_awaitPacket c _ t).mono fun _ _ hears => ⟨_, hears⟩

end Reading

section Writing

private theorem ensures_posting (link : Nat) (bytes : Bytes) (t : Traffic) :
    (writeAll link bytes).Ensures Traffic.anyhow t fun result t' =>
      ∃ front, front <+: bytes ∧ t' = t.write front ∧ (result = .ok () → front = bytes) := by
  induction bytes using writeAll.induct generalizing t with
  | case1 =>
    rw [writeAll]
    exact ⟨[], List.nil_prefix, t.write_nil.symm, fun _ => rfl⟩
  | case2 first rest ih =>
    rw [writeAll]
    intro outcome may
    cases outcome with
    | accepted more =>
      have split : (first :: rest).take (more + 1) ++ rest.drop more = first :: rest :=
        List.take_append_drop (more + 1) (first :: rest)
      refine (ih more (t.write ((first :: rest).take (more + 1)))).mono ?_
      rintro result t' ⟨front, isFront, rfl, whole⟩
      refine ⟨(first :: rest).take (more + 1) ++ front, ?_, t.write_append _ _, fun done => ?_⟩
      · have longer := (List.prefix_append_right_inj ((first :: rest).take (more + 1))).mpr isFront
        rwa [split] at longer
      · rw [whole done, split]
    | failed failure => exact ⟨[], List.nil_prefix, t.write_nil.symm, nofun⟩

/-- What may have come of sending a packet: it is written, or refused because it is too large, or
the connection closes. -/
inductive Posted (c : Connection) (p : Packet) (t : Traffic) :
    Except ConnectionError Unit × Connection → Traffic → Prop
  | whole {bytes : Bytes} (encoded : c.codec.encode p = .ok bytes) :
      Posted c p t (.ok (), c) (t.write bytes)
  | tooLarge (size limit : Nat) : Posted c p t (.error (.oversize size limit), c) t
  | refused {e : ConnectionError} (fatal : e.isFatal) :
      Posted c p t (.error e, { c with state := .closing }) t
  | broken {bytes front : Bytes} {e : ConnectionError} (encoded : c.codec.encode p = .ok bytes)
      (isFront : front <+: bytes) (fatal : e.isFatal) :
      Posted c p t (.error e, { c with state := .closing }) (t.write front)

theorem posted_write (c : Connection) (p : Packet) (t : Traffic) :
    (c.write p).Ensures Traffic.anyhow t (Posted c p t) := by
  rw [write]
  cases encoded : c.codec.encode p with
  | error e =>
    rw [encode, encoded]
    cases e with
    | oversize size limit => exact .tooLarge size limit
    | malformed cause => exact .refused rfl
    | io failure => exact .refused (ConnectionError.isFatal_ofIo failure)
  | ok bytes =>
    rw [encode, encoded]
    refine (ensures_posting c.link bytes t).bind ?_
    rintro result t' ⟨front, isFront, rfl, whole⟩
    cases result with
    | ok =>
      rw [whole rfl]
      exact .whole encoded
    | error failure =>
      exact .broken encoded isFront (ConnectionError.isFatal_ofIo failure)

end Writing

end Connection
end WorkBroker
