import WorkBroker.Proofs.Wire.RoundTrip
import WorkBroker.Wire.Buffer
/-!
What is appended to a buffer.  A packet that is refused leaves the buffer as it was, byte for byte:
either nothing has been written, or what has been written is taken back.  For a valid packet nothing
ever has to be taken back, because its payload is within the limit and the fields around it fit into
the room that a frame has for them.
-/

set_option autoImplicit false
set_option relaxedAutoImplicit false

namespace WorkBroker

theorem FrameCodec.on_append (c : FrameCodec) (payload buffer : Bytes) :
    (c.append payload).on buffer =
      match c.encodeInto payload buffer with
      | .ok bytes => (.ok (), bytes)
      | .error e => (.error e, buffer) := by
  simp only [append, encodeInto, encode, Buffered.on_bind, Buffered.on_lift]
  cases c.checkSize payload.length with
  | error e => rfl
  | ok _ => simp [pure, Except.pure, bind, Except.bind]

namespace PacketCodec

variable {c : PacketCodec} {p : Packet} {buffer : Bytes}

private theorem on_appendBody (c : PacketCodec) (p : Packet) (buffer : Bytes) :
    (c.appendBody p).on buffer =
      match c.writeBody p with
      | .ok body => (.ok (), buffer ++ body)
      | .error e => (.error e, buffer ++ p.typeByte :: fields p) := by
  simp only [appendBody, writeBody, Buffered.on_bind, Buffered.on_write]
  cases payload? p with
  | none =>
    rw [List.append_assoc]
    rfl
  | some payload =>
    simp only [FrameCodec.on_append, FrameCodec.encodeInto]
    cases c.frame.encode payload <;> simp [pure, Except.pure, bind, Except.bind]

private theorem overwrite_header {room header body : Bytes} (same : room.length = header.length) :
    (buffer ++ room ++ body).take buffer.length ++ header ++
        (buffer ++ room ++ body).drop (buffer.length + header.length) =
      buffer ++ (header ++ body) := by
  rw [List.append_assoc buffer, List.take_left, ← same, ← List.drop_drop, List.drop_left,
    List.drop_left, List.append_assoc]

theorem encode_eq (c : PacketCodec) (p : Packet) :
    c.encode p =
      match c.validate p, c.writeBody p with
      | .error e, _ => .error e
      | .ok (), .error e => .error e
      | .ok (), .ok body =>
        if c.maxFrameSize < body.length then .error (.oversize body.length c.maxFrameSize)
        else .ok (Bytes.ofNat headerSize body.length ++ body) := by
  simp only [encode, bind, Except.bind]
  cases c.validate p with
  | error e => rfl
  | ok _ =>
    cases c.writeBody p with
    | error e => rfl
    | ok body =>
      dsimp only
      split_ifs <;> rfl

/-- Appending a packet appends its encoding, or leaves the buffer as it was. -/
theorem on_append (c : PacketCodec) (p : Packet) (buffer : Bytes) :
    (c.append p).on buffer =
      match c.encodeInto p buffer with
      | .ok bytes => (.ok (), bytes)
      | .error e => (.error e, buffer) := by
  rw [encodeInto, encode_eq]
  simp only [append, Buffered.on_bind, Buffered.on_lift]
  cases c.validate p with
  | error e => rfl
  | ok _ =>
    simp only [Buffered.on_size, Buffered.on_write, Buffered.on_tryCatch, on_appendBody]
    cases c.writeBody p with
    | error e =>
      simp only [Buffered.on_bind, Buffered.on_truncate, Buffered.on_throw, List.append_assoc,
        List.take_left]
      rfl
    | ok body =>
      have size : (buffer ++ Bytes.ofNat headerSize 0 ++ body).length - buffer.length - headerSize =
          body.length := by
        simp only [List.length_append, Bytes.length_ofNat]
        omega
      have header : (Bytes.ofNat headerSize 0).length =
          (Bytes.ofNat headerSize body.length).length := by
        rw [Bytes.length_ofNat, Bytes.length_ofNat]
      simp only [size, gt_iff_lt]
      split_ifs
      · simp only [Buffered.on_bind, Buffered.on_truncate, Buffered.on_throw, List.append_assoc,
          List.take_left]
        rfl
      · rw [Buffered.on_overwrite, overwrite_header header]
        rfl

/-- A packet that is refused is refused for what is wrong with its fields, and nothing has been
appended; any other one is appended as a header and a body.  The body of such a packet can always be
written, behind whatever stands in the buffer, and is never too long for a frame.  So once the
fields have been found valid nothing is taken back.  What is appended is what connections send. -/
theorem appended_whole_or_not_at_all (c : PacketCodec) (p : Packet) (buffer : Bytes) :
    (((c.append p).on buffer).1 = .ok () ↔ c.validate p = .ok ()) ∧
      (∀ e, c.validate p = .error e → (c.append p).on buffer = (.error e, buffer)) ∧
      (c.validate p = .ok () → ∃ header body : Bytes, header.length = headerSize ∧
        (c.append p).on buffer = (.ok (), buffer ++ (header ++ body)) ∧
        (∀ front, (c.appendBody p).on front = (.ok (), front ++ body)) ∧
        body.length ≤ c.maxFrameSize ∧ c.encode p = .ok (header ++ body)) := by
  cases valid : c.validate p with
  | error e =>
    have refused : (c.append p).on buffer = (.error e, buffer) := by
      rw [on_append, encodeInto, encode_eq, valid]
      rfl
    refine ⟨by simp [refused], ?_, by rintro ⟨⟩⟩
    intro e' same
    obtain rfl := Except.error.inj same
    exact refused
  | ok _ =>
    have written : c.writeBody p = .ok (body p) := writeBody_eq valid
    have fits : (body p).length ≤ c.maxFrameSize := length_body_le valid
    have encoded : c.encode p = .ok (Bytes.ofNat headerSize (body p).length ++ body p) := by
      rw [encode_eq, valid, written]
      exact if_neg (Nat.not_lt_of_le fits)
    have appended : (c.append p).on buffer =
        (.ok (), buffer ++ (Bytes.ofNat headerSize (body p).length ++ body p)) := by
      rw [on_append, encodeInto_eq valid]
    refine ⟨by simp [appended], by rintro _ ⟨⟩, fun _ => ?_⟩
    refine ⟨_, body p, Bytes.length_ofNat _ _, appended, ?_, fits, encoded⟩
    intro front
    rw [on_appendBody, written]

end PacketCodec
end WorkBroker
