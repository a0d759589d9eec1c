import WorkBroker.Proofs.Wire.Fields
/-!
Packets read back.  The body that a packet is written to does not depend on the codec, and every
codec whose frames are long enough for it reads the packet back, whatever its own limit on payloads
is.  A reader whose frames are too short refuses the header and takes nothing.
-/

set_option autoImplicit false
set_option relaxedAutoImplicit false

namespace WorkBroker.PacketCodec

open Reader (Yields)

section Body

def contents (p : Packet) : Bytes :=
  fields p ++
    match payload? p with
    | none => []
    | some payload => Bytes.ofNat headerSize payload.length ++ payload

def body (p : Packet) : Bytes := p.typeByte :: contents p

variable {c : PacketCodec} {p : Packet} {x : Bytes}

private theorem le_of_checkSize {f : FrameCodec} {size : Nat} (ok : f.checkSize size = .ok ()) :
    size ≤ f.limit := by
  rw [FrameCodec.checkSize] at ok
  split_ifs at ok with exceeds
  exact Nat.le_of_not_lt exceeds

theorem ok_of_validate_payload {id : String}
    (ok : (do checkId "message id" id false; c.frame.checkSize x.length) = .ok ()) :
    checkId "message id" id false = .ok () ∧ x.length ≤ c.frame.limit :=
  ⟨(ok_of_bind ok).1, le_of_checkSize (ok_of_bind ok).2⟩

theorem size_le_of_validate_error {code : ErrorCode} {message : String}
    (ok : c.validate (.error code message) = .ok ()) :
    Bytes.sizeOfText message ≤ maxErrorMessage := by
  rw [validate] at ok
  split_ifs at ok with long
  exact Nat.le_of_not_lt long

theorem payload_le (ok : c.validate p = .ok ()) (hx : payload? p = some x) :
    x.length ≤ c.frame.limit := by
  cases p with
  | push id priority delayMs payload =>
    obtain rfl := Option.some.inj hx
    exact (ok_of_validate_payload ok).2
  | deliver id token attempt payload =>
    obtain rfl := Option.some.inj hx
    exact (ok_of_validate_payload ok).2
  | _ => cases hx

@[simp] private theorem length_word32 (n : UInt32) : (word32 n).length = 4 := Bytes.length_ofNat _ _

@[simp] private theorem length_word64 (n : UInt64) : (word64 n).length = 8 := Bytes.length_ofNat _ _

private theorem length_fields_le_of_checkIds {ids : List String} (ok : checkIds ids = .ok ()) :
    (texts ids).length ≤ 51402 := by
  obtain ⟨few, all⟩ := ok_of_checkIds ok
  have short := length_texts_le fun id hid => size_le_of_checkId (all id hid)
  simp only [maxIds, maxIdSize] at few short
  omega

theorem length_fields_le (ok : c.validate p = .ok ()) : (fields p).length + 5 ≤ envelopeRoom := by
  have id_le : ∀ {field id : String} {mayBeEmpty : Bool}, checkId field id mayBeEmpty = .ok () →
      (text id).length ≤ 257 := by
    intro field id mayBeEmpty valid
    have short := size_le_of_checkId valid
    rw [length_text]
    simp only [maxIdSize] at short
    omega
  rw [envelopeRoom]
  cases p with
  | hello role clientId =>
    have h := id_le ok
    simp only [fields, List.length_cons]
    omega
  | push id priority delayMs payload =>
    have h := id_le (ok_of_validate_payload ok).1
    simp only [fields, List.length_append, List.length_cons, length_word32]
    omega
  | ack id token requeue delayMs =>
    have h := id_le ok
    simp only [fields, flag, List.length_append, length_word32, length_word64,
      List.length_singleton]
    omega
  | ackPop id token requeue delayMs waitMs =>
    have h := id_le ok
    simp only [fields, flag, List.length_append, length_word32, length_word64,
      List.length_singleton]
    omega
  | eraseFailed ids =>
    have h := length_fields_le_of_checkIds ok
    simp only [fields]
    omega
  | accepted id =>
    have h := id_le ok
    simp only [fields]
    omega
  | deliver id token attempt payload =>
    have h := id_le (ok_of_validate_payload ok).1
    simp only [fields, List.length_append, length_word32, length_word64]
    omega
  | acked id =>
    have h := id_le ok
    simp only [fields]
    omega
  | failed ids truncated =>
    have h := length_fields_le_of_checkIds ok
    simp only [fields, flag, List.length_append, List.length_singleton]
    omega
  | erased ids =>
    have h := length_fields_le_of_checkIds ok
    simp only [fields]
    omega
  | error code message =>
    have h := size_le_of_validate_error ok
    simp only [maxErrorMessage] at h
    simp only [fields, List.length_append, length_text, Bytes.length_ofNat]
    omega
  | _ => simp [fields]

theorem length_body (p : Packet) :
    (body p).length = 1 + (fields p).length +
      (payload? p).elim 0 fun payload => headerSize + payload.length := by
  rw [body, List.length_cons, contents, List.length_append]
  cases payload? p with
  | none => simp [Nat.add_comm]
  | some payload =>
    simp only [List.length_append, Bytes.length_ofNat, Option.elim_some]
    omega

theorem length_body_le (ok : c.validate p = .ok ()) : (body p).length ≤ c.maxFrameSize := by
  have room := length_fields_le ok
  rw [length_body, maxFrameSize]
  cases hx : payload? p with
  | none =>
    simp only [Option.elim_none]
    omega
  | some x =>
    have le := payload_le ok hx
    simp only [Option.elim_some, headerSize]
    omega

theorem writeBody_of_payload_le (le : ∀ x, payload? p = some x → x.length ≤ c.frame.limit) :
    c.writeBody p = .ok (body p) := by
  simp only [writeBody, body, contents]
  cases hx : payload? p with
  | none => rw [List.append_nil]; rfl
  | some x =>
    have fits : c.frame.encode x = .ok (Bytes.ofNat headerSize x.length ++ x) := by
      rw [FrameCodec.encode, FrameCodec.checkSize, if_neg (Nat.not_lt_of_le (le x hx))]
      rfl
    simp only [fits]
    rfl

theorem writeBody_eq (ok : c.validate p = .ok ()) : c.writeBody p = .ok (body p) :=
  writeBody_of_payload_le fun _ hx => payload_le ok hx

/-- A valid packet is written, and to a frame of its body. -/
theorem encodeInto_eq (ok : c.validate p = .ok ()) (buffer : Bytes) :
    c.encodeInto p buffer =
      .ok (buffer ++ (Bytes.ofNat headerSize (body p).length ++ body p)) := by
  have written : c.encode p = .ok (Bytes.ofNat headerSize (body p).length ++ body p) := by
    have fits := Nat.not_lt_of_le (length_body_le ok)
    simp only [encode, ok, writeBody_eq ok, bind, Except.bind]
    rw [if_neg fits]
    rfl
  rw [encodeInto, written]
  rfl

end Body

section Reading

variable {c r : PacketCodec} {p : Packet} {x : Bytes}

private theorem yields_readRole (role : Role) : readRole.Yields [role.toByte] role := by
  refine (Reader.yields_uint8 _ role.toByte).last ?_
  rw [Role.ofByte?_toByte]

private theorem yields_readReason (reason : RejectReason) :
    readReason.Yields [reason.toByte] reason := by
  refine (Reader.yields_uint8 _ reason.toByte).last ?_
  rw [RejectReason.ofByte?_toByte]

theorem run_readPayload (c : PacketCodec) (bytes : Bytes) :
    (readPayload c).run bytes = c.envelope.decodeFrom bytes := by
  simp only [readPayload]
  cases h : c.envelope.decodeFrom bytes with
  | error e => simp [h]
  | ok p => simp [h]

theorem yields_readPayload (fits : x.length ≤ c.envelope.limit) :
    (readPayload c).Yields (Bytes.ofNat headerSize x.length ++ x) x := by
  intro rest
  rw [run_readPayload, FrameCodec.decodeFrom_append fits rest]

private theorem yields_readFields (ok : c.validate p = .ok ())
    (fits : ∀ x, payload? p = some x → x.length ≤ r.envelope.limit) :
    (r.readFields p.typeByte).Yields (contents p) p := by
  -- The fields are read in the order in which they are written; only the brackets differ.
  have regroup : ∀ {reading : Reader Packet} {bytes more : Bytes}, reading.Yields bytes p →
      more = bytes → reading.Yields more p := fun y same => same ▸ y
  cases p with
  | hello role clientId =>
    refine regroup ((yields_readRole role).bind ((Reader.yields_id ok).bind (.of_pure _))) ?_
    simp [contents, fields, payload?]
  | push id priority delayMs payload =>
    refine regroup ((Reader.yields_id (ok_of_validate_payload ok).1).bind
      ((Reader.yields_uint8 _ priority).bind ((Reader.yields_uint32 _ delayMs).bind
        ((yields_readPayload (fits payload rfl)).bind (.of_pure _))))) ?_
    simp [contents, fields, payload?]
  | pop waitMs =>
    refine regroup ((Reader.yields_uint32 _ waitMs).bind (.of_pure _)) ?_
    simp [contents, fields, payload?]
  | ack id token requeue delayMs =>
    refine regroup ((Reader.yields_id ok).bind ((Reader.yields_uint64 _ token).bind
      ((Reader.yields_flag _ requeue).bind
        ((Reader.yields_uint32 _ delayMs).bind (.of_pure _))))) ?_
    simp [contents, fields, payload?]
  | ackPop id token requeue delayMs waitMs =>
    refine regroup ((Reader.yields_id ok).bind ((Reader.yields_uint64 _ token).bind
      ((Reader.yields_flag _ requeue).bind ((Reader.yields_uint32 _ delayMs).bind
        ((Reader.yields_uint32 _ waitMs).bind (.of_pure _)))))) ?_
    simp [contents, fields, payload?]
  | listFailed limit =>
    refine regroup ((Reader.yields_uint32 _ limit).bind (.of_pure _)) ?_
    simp [contents, fields, payload?]
  | eraseFailed ids =>
    refine regroup ((Reader.yields_idList ok).bind (.of_pure _)) ?_
    simp [contents, fields, payload?]
  | welcome terms =>
    refine regroup ((Reader.yields_uint64 _ terms.connectionId).bind
      ((Reader.yields_uint32 _ terms.maxMessageSize).bind
        ((Reader.yields_uint32 _ terms.maxRetries).bind (.of_pure _)))) ?_
    simp [contents, fields, payload?]
  | rejected reason =>
    refine regroup ((yields_readReason reason).bind (.of_pure _)) ?_
    simp [contents, fields, payload?]
  | accepted id =>
    refine regroup ((Reader.yields_id ok).bind (.of_pure _)) ?_
    simp [contents, fields, payload?]
  | deliver id token attempt payload =>
    refine regroup ((Reader.yields_id (ok_of_validate_payload ok).1).bind
      ((Reader.yields_uint64 _ token).bind ((Reader.yields_uint32 _ attempt).bind
        ((yields_readPayload (fits payload rfl)).bind (.of_pure _))))) ?_
    simp [contents, fields, payload?]
  | acked id =>
    refine regroup ((Reader.yields_id ok).bind (.of_pure _)) ?_
    simp [contents, fields, payload?]
  | counts capacity active failed free =>
    refine regroup ((Reader.yields_uint64 _ capacity).bind ((Reader.yields_uint64 _ active).bind
      ((Reader.yields_uint64 _ failed).bind ((Reader.yields_uint64 _ free).bind (.of_pure _))))) ?_
    simp [contents, fields, payload?]
  | failed ids truncated =>
    refine regroup ((Reader.yields_idList ok).bind
      ((Reader.yields_flag _ truncated).bind (.of_pure _))) ?_
    simp [contents, fields, payload?]
  | erased ids =>
    refine regroup ((Reader.yields_idList ok).bind (.of_pure _)) ?_
    simp [contents, fields, payload?]
  | error code message =>
    have short : Bytes.sizeOfText message < 65536 :=
      Nat.lt_of_le_of_lt (size_le_of_validate_error ok) (by decide)
    refine regroup ((Reader.yields_uint16 _ code.toUInt16.toNat_lt).bind
      ((Reader.yields_text _ short).last ?_)) ?_
    · rw [UInt16.ofNat_toNat, ErrorCode.ofUInt16_toUInt16]
    · simp [contents, fields, payload?]
  | count => exact .of_pure _
  | goodbye => exact .of_pure _
  | empty => exact .of_pure _

theorem decodeBody_body (ok : c.validate p = .ok ())
    (fits : ∀ x, payload? p = some x → x.length ≤ r.envelope.limit) :
    r.decodeBody (body p) = .ok p := by
  have read : ((do r.readFields (← Reader.uint8 "packet type")) : Reader Packet).run (body p) =
      .ok (p, []) := by
    have whole := (Reader.yields_uint8 "packet type" p.typeByte).bind
      (yields_readFields ok fits) []
    rwa [List.append_nil] at whole
  simp only [decodeBody, read]
  rfl

private theorem scan_tooLong {n : Nat} (h : n ≤ maxHeaderValue) (exceeds : r.maxFrameSize < n)
    (rest : Bytes) : r.scan (Bytes.ofNat headerSize n ++ rest) = .tooLong n := by
  have long : ¬(Bytes.ofNat headerSize n ++ rest).length < headerSize := by
    rw [List.length_append, Bytes.length_ofNat]
    omega
  rw [scan, if_neg long, FrameCodec.declaredLength_append h]
  exact if_pos exceeds

theorem scan_frame {b : Bytes} (h : b.length ≤ maxHeaderValue) (fits : b.length ≤ r.maxFrameSize)
    (rest : Bytes) :
    r.scan (Bytes.ofNat headerSize b.length ++ (b ++ rest)) = .frame (r.decodeBody b) rest := by
  have header : (Bytes.ofNat headerSize b.length).length = headerSize := Bytes.length_ofNat _ _
  have long : ¬(Bytes.ofNat headerSize b.length ++ (b ++ rest)).length < headerSize := by
    rw [List.length_append, header]
    omega
  have whole : ¬(b ++ rest).length < b.length := by
    rw [List.length_append]
    omega
  rw [scan, if_neg long, FrameCodec.declaredLength_append h, List.drop_left' header]
  refine (if_neg (Nat.not_lt_of_le fits)).trans ((if_neg whole).trans ?_)
  rw [List.take_left, List.drop_left]

theorem decode_tooLong {n : Nat} (h : n ≤ maxHeaderValue) (exceeds : r.maxFrameSize < n)
    (rest : Bytes) :
    r.decode (Bytes.ofNat headerSize n ++ rest) =
      (.error (.malformed (.frameTooLong n r.maxFrameSize)), Bytes.ofNat headerSize n ++ rest) := by
  rw [decode, scan_tooLong h exceeds]

/-- A valid packet is read back by every codec whose frames are long enough for it. -/
theorem decode_packet (ok : c.validate p = .ok ()) (h : (body p).length ≤ maxHeaderValue)
    (fits : (body p).length ≤ r.maxFrameSize) (rest : Bytes) :
    r.decode (Bytes.ofNat headerSize (body p).length ++ body p ++ rest) = (.ok (some p), rest) := by
  have payload_fits : ∀ x, payload? p = some x → x.length ≤ r.envelope.limit := by
    intro x hx
    have size := length_body p
    rw [hx, Option.elim_some] at size
    refine Nat.le_min.mpr ⟨?_, ?_⟩ <;> omega
  rw [List.append_assoc, decode, scan_frame h fits, decodeBody_body ok payload_fits]
  rfl

end Reading

section Streams

variable {c : PacketCodec}

private theorem length_lt_of_decode {buffer rest : Bytes} {p : Packet}
    (h : c.decode buffer = (.ok (some p), rest)) : rest.length < buffer.length := by
  simp only [decode] at h
  cases found : c.scan buffer with
  | incomplete => simp [found] at h
  | tooLong declared => simp [found] at h
  | frame result left =>
    obtain rfl : left = rest := by simpa [found] using congrArg Prod.snd h
    simp only [scan] at found
    split_ifs at found with short
    obtain ⟨-, rfl⟩ := Scan.frame.inj found
    simp only [headerSize, List.length_drop] at short ⊢
    omega

/-- The packets in front of a buffer, up to the first frame that is not complete, and the bytes that
are left then. -/
def decodeAll (c : PacketCodec) (buffer : Bytes) : Except CodecError (List Packet × Bytes) :=
  match h : c.decode buffer with
  | (.ok none, left) => .ok ([], left)
  | (.ok (some p), rest) =>
    have _shorter := length_lt_of_decode h
    do
      let (others, left) ← c.decodeAll rest
      return (p :: others, left)
  | (.error e, _) => .error e
termination_by buffer.length

def encodeAll (c : PacketCodec) (ps : List Packet) (buffer : Bytes) : Except CodecError Bytes :=
  ps.foldlM (fun buffer p => c.encodeInto p buffer) buffer

private theorem decodeAll_of_none {buffer left : Bytes} (h : c.decode buffer = (.ok none, left)) :
    c.decodeAll buffer = .ok ([], left) := by
  rw [decodeAll]
  split <;> simp_all

private theorem decodeAll_of_some {buffer rest left : Bytes} {p : Packet} {ps : List Packet}
    (h : c.decode buffer = (.ok (some p), rest)) (others : c.decodeAll rest = .ok (ps, left)) :
    c.decodeAll buffer = .ok (p :: ps, left) := by
  rw [decodeAll]
  split <;> simp_all

private def transportFrame (p : Packet) : Bytes := Bytes.ofNat headerSize (body p).length ++ body p

private theorem encodeAll_eq {ps : List Packet} (ok : ∀ p ∈ ps, c.validate p = .ok ())
    (buffer : Bytes) :
    c.encodeAll ps buffer = .ok (buffer ++ (ps.map transportFrame).flatten) := by
  induction ps generalizing buffer with
  | nil => rw [List.map_nil, List.flatten_nil, List.append_nil]; rfl
  | cons p ps ih =>
    obtain ⟨first, others⟩ := List.forall_mem_cons.mp ok
    have later := ih others (buffer ++ transportFrame p)
    rw [List.append_assoc] at later
    rw [encodeAll, List.foldlM_cons, encodeInto_eq first]
    exact later

private theorem decodeAll_frames {ps : List Packet} (ok : ∀ p ∈ ps, c.validate p = .ok ())
    (limit : c.maxFrameSize ≤ maxHeaderValue) {rest : Bytes}
    (short : c.decode rest = (.ok none, rest)) :
    c.decodeAll ((ps.map transportFrame).flatten ++ rest) = .ok (ps, rest) := by
  induction ps with
  | nil => exact decodeAll_of_none short
  | cons p ps ih =>
    obtain ⟨first, others⟩ := List.forall_mem_cons.mp ok
    have fits := length_body_le first
    rw [List.map_cons, List.flatten_cons, List.append_assoc]
    exact decodeAll_of_some (decode_packet first (Nat.le_trans fits limit) fits _) (ih others)

end Streams

/-- A valid packet is appended to any buffer as one frame of header and body.  A reader with any
limit of its own takes exactly this frame and returns the packet if the body is within its frames,
and otherwise refuses it on seeing the header, and takes nothing.  So a list of packets that are
written back to back is read back by the same codec. -/
theorem written_is_read (M N : Nat) (bound : M ≤ maxHeaderValue - envelopeRoom) :
    (∀ p, (ofLimit M).validate p = .ok () →
      ∃ header body : Bytes, header.length = headerSize ∧
        (∀ buffer, (ofLimit M).encodeInto p buffer = .ok (buffer ++ (header ++ body))) ∧
        (body.length ≤ min N maxHeaderValue + envelopeRoom →
          ∀ rest, (ofLimit N).decode (header ++ body ++ rest) = (.ok (some p), rest)) ∧
        (min N maxHeaderValue + envelopeRoom < body.length →
          ∀ rest, (ofLimit N).decode (header ++ rest) =
            (.error (.malformed
              (.frameTooLong body.length (min N maxHeaderValue + envelopeRoom))),
              header ++ rest))) ∧
    ∀ ps, (∀ p ∈ ps, (ofLimit M).validate p = .ok ()) →
      ∃ bytes, (∀ buffer, (ofLimit M).encodeAll ps buffer = .ok (buffer ++ bytes)) ∧
        (ofLimit M).decodeAll bytes = .ok (ps, []) := by
  have limit : (ofLimit M).maxFrameSize ≤ maxHeaderValue := by
    have le : (ofLimit M).frame.limit ≤ M := Nat.min_le_left M maxHeaderValue
    simp only [maxHeaderValue, envelopeRoom] at bound
    simp only [maxFrameSize, maxHeaderValue, envelopeRoom]
    omega
  constructor
  · intro p ok
    have short := Nat.le_trans (length_body_le ok) limit
    refine ⟨Bytes.ofNat headerSize (body p).length, body p, Bytes.length_ofNat _ _,
      encodeInto_eq ok, ?_, ?_⟩
    · intro fits rest
      exact decode_packet (r := ofLimit N) ok short fits rest
    · intro exceeds rest
      exact decode_tooLong (r := ofLimit N) short exceeds rest
  · intro ps ok
    have read := decodeAll_frames ok limit (show (ofLimit M).decode [] = (.ok none, []) from rfl)
    rw [List.append_nil] at read
    exact ⟨_, encodeAll_eq ok, read⟩

/-- A payload of three bytes is read by a codec that would not write more than two. -/
theorem push_above_the_limit_is_read :
    16 ≤ maxHeaderValue - envelopeRoom ∧ (ofLimit 2).maxMessageSize < 3 ∧
      (ofLimit 16).validate (.push "a" 0 0 [1, 2, 3]) = .ok () ∧
      (ofLimit 2).decode
          ([0, 0, 0, 16, 2, 0, 1, 97, 0, 0, 0, 0, 0, 0, 0, 0, 3, 1, 2, 3] ++ [7]) =
        (.ok (some (.push "a" 0 0 [1, 2, 3])), [7]) := by
  have bound : 16 ≤ maxHeaderValue - envelopeRoom := by decide
  have ok : (ofLimit 16).validate (.push "a" 0 0 [1, 2, 3]) = .ok () := by decide
  obtain ⟨header, body, four, written, read, -⟩ := (written_is_read 16 2 bound).1 _ ok
  have bytes : (ofLimit 16).encodeInto (.push "a" 0 0 [1, 2, 3]) [] =
      .ok [0, 0, 0, 16, 2, 0, 1, 97, 0, 0, 0, 0, 0, 0, 0, 0, 3, 1, 2, 3] := by decide
  have frame := Except.ok.inj ((written []).symm.trans bytes)
  have size := congrArg List.length frame
  simp only [List.nil_append, List.length_append, four, headerSize, List.length_cons,
    List.length_nil] at size
  have fits : body.length ≤ min 2 maxHeaderValue + envelopeRoom := by
    simp only [maxHeaderValue, envelopeRoom]
    omega
  refine ⟨bound, by decide, ok, ?_⟩
  rw [← frame]
  exact read fits [7]

end WorkBroker.PacketCodec
