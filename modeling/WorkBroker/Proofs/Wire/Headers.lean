import WorkBroker.Proofs.Wire.Appending
import WorkBroker.Proofs.Wire.Framing
import WorkBroker.Wire.Stretch
/-!
What a header says about the bytes behind it.  A frame is written only around a payload whose length
its header can express, so writing and reading frames undo each other.  A transport frame has fields
around such a payload, and a header of the same width: its length is written modulo the number of
values that a header has.  The frames that come out wrong are too long to be looked at byte by byte,
but not as stretches.
-/

set_option autoImplicit false
set_option relaxedAutoImplicit false

namespace WorkBroker

namespace FrameCodec

variable {c : FrameCodec} {frame payload : Bytes}

private theorem encode_eq_ok_iff :
    c.encode payload = .ok frame ↔ frame = Bytes.framed payload ∧ payload.length ≤ c.limit := by
  rw [encode, checkSize]
  by_cases long : payload.length > c.limit
  · rw [if_pos long]
    constructor
    · rintro ⟨⟩
    · rintro ⟨-, fits⟩
      exact absurd fits (Nat.not_le_of_lt long)
  · rw [if_neg long]
    constructor
    · intro h
      exact ⟨(Except.ok.inj h).symm, Nat.le_of_not_lt long⟩
    · rintro ⟨rfl, -⟩
      rfl

private theorem encode_eq_error {payload : Bytes} (long : c.limit < payload.length) :
    c.encode payload = .error (.oversize payload.length c.limit) := by
  rw [encode, checkSize, if_pos long]
  rfl

private theorem decode_eq_ok_iff_decodeFrom : c.decode frame = .ok payload ↔
    c.decodeFrom frame = .ok (payload, []) := by
  rw [decode]
  cases c.decodeFrom frame with
  | error e =>
    constructor <;> rintro ⟨⟩
  | ok read =>
    obtain ⟨p, rest⟩ := read
    cases rest with
    | nil =>
      constructor
      · rintro ⟨⟩
        rfl
      · rintro ⟨⟩
        rfl
    | cons b rest =>
      constructor <;> rintro ⟨⟩

private theorem decode_eq_ok_iff :
    c.decode frame = .ok payload ↔ frame = Bytes.framed payload ∧ payload.length ≤ c.limit := by
  rw [decode_eq_ok_iff_decodeFrom]
  constructor
  · intro h
    obtain ⟨whole, fits⟩ := of_decodeFrom h
    rw [List.append_nil] at whole
    exact ⟨whole, fits⟩
  · rintro ⟨rfl, fits⟩
    have read := decodeFrom_append fits []
    rwa [List.append_nil] at read

private theorem eq_framed_iff (small : payload.length ≤ maxHeaderValue) :
    frame = Bytes.framed payload ↔
      ∃ header : Bytes, frame = header ++ payload ∧ header.length = headerSize ∧
        Bytes.toNat header = payload.length := by
  constructor
  · rintro rfl
    refine ⟨_, rfl, Bytes.length_ofNat _ _, Bytes.toNat_ofNat_of_lt ?_⟩
    exact Nat.lt_succ_of_le small
  · rintro ⟨header, rfl, width, value⟩
    have same := Bytes.ofNat_toNat header
    rw [width, value] at same
    rw [Bytes.framed, same]

/-- Whatever number of bytes a codec is asked to admit, it admits as many as a header can express at
most, and then reading and writing are inverse to each other: a byte string is read as a payload
just when the payload is written as this byte string.  So the byte strings that are read are those
that consist of a header of four bytes and of exactly as many bytes as it says, within the limit;
and a payload is refused just when it is above the limit, in which case a buffer that it was to be
appended to is what it was before. -/
theorem decodes_what_it_encodes (n : Nat) :
    (ofLimit n).limit = min n maxHeaderValue ∧
      (∀ frame payload,
        (ofLimit n).decode frame = .ok payload ↔ (ofLimit n).encode payload = .ok frame) ∧
      (∀ frame, (∃ payload, (ofLimit n).decode frame = .ok payload) ↔
        ∃ header payload : Bytes, frame = header ++ payload ∧ header.length = headerSize ∧
          Bytes.toNat header = payload.length ∧ payload.length ≤ min n maxHeaderValue) ∧
      (∀ payload, (∃ e, (ofLimit n).encode payload = .error e) ↔
        min n maxHeaderValue < payload.length) ∧
      ∀ payload buffer,
        (∀ e, (ofLimit n).encode payload = .error e →
          e = .oversize payload.length (min n maxHeaderValue) ∧
            ((ofLimit n).append payload).on buffer = (.error e, buffer)) ∧
        ∀ frame, (ofLimit n).encode payload = .ok frame →
          ((ofLimit n).append payload).on buffer = (.ok (), buffer ++ frame) := by
  have limit : (ofLimit n).limit = min n maxHeaderValue := rfl
  have refused : ∀ payload e, (ofLimit n).encode payload = .error e →
      min n maxHeaderValue < payload.length := by
    intro payload e h
    by_contra fits
    have written : (ofLimit n).encode payload = .ok (Bytes.framed payload) :=
      encode_eq_ok_iff.mpr ⟨rfl, Nat.le_of_not_lt fits⟩
    rw [h] at written
    cases written
  refine ⟨limit, ?inverse, ?accepted, ?failing, ?appended⟩
  case inverse =>
    intro frame payload
    rw [decode_eq_ok_iff, encode_eq_ok_iff]
  case accepted =>
    intro frame
    rw [exists_comm]
    refine exists_congr fun payload => ?_
    rw [decode_eq_ok_iff, limit]
    constructor
    · rintro ⟨framed, fits⟩
      obtain ⟨header, whole, width, value⟩ :=
        (eq_framed_iff (Nat.le_trans fits (Nat.min_le_right _ _))).mp framed
      exact ⟨header, whole, width, value, fits⟩
    · rintro ⟨header, whole, width, value, fits⟩
      refine ⟨(eq_framed_iff (Nat.le_trans fits (Nat.min_le_right _ _))).mpr ?_, fits⟩
      exact ⟨header, whole, width, value⟩
  case failing =>
    intro payload
    exact ⟨fun ⟨e, h⟩ => refused payload e h, fun long => ⟨_, encode_eq_error long⟩⟩
  case appended =>
    intro payload buffer
    rw [on_append, encodeInto]
    constructor
    · intro e h
      have named := encode_eq_error (c := ofLimit n) (refused payload e h)
      rw [h]
      exact ⟨Except.error.inj (h.symm.trans named), rfl⟩
    · intro frame h
      rw [h]
      rfl

end FrameCodec

namespace Stretch

private theorem toBytes_ofBytes (bytes : Bytes) :
    (ofBytes bytes).toBytes = bytes := List.append_nil bytes

private theorem length_toBytes (s : Stretch) : s.toBytes.length = s.length := by
  rw [toBytes, List.length_append, List.length_replicate, length]

private theorem toBytes_behind (bytes : Bytes) (s : Stretch) :
    (s.behind bytes).toBytes = bytes ++ s.toBytes := List.append_assoc _ _ _

theorem toBytes_append (s t : Stretch) : (s.append t).toBytes = s.toBytes ++ t.toBytes :=
  toBytes_behind _ _

private theorem take_toBytes (n : Nat) (s : Stretch) : s.toBytes.take n = s.take n := by
  rw [toBytes, List.take_append, List.take_replicate, take]

private theorem toBytes_drop (n : Nat) (s : Stretch) : (s.drop n).toBytes = s.toBytes.drop n := by
  rw [toBytes, toBytes, List.drop_append, List.drop_replicate, drop]

end Stretch

namespace PacketCodec

variable {c : PacketCodec} {p : Packet} {f : Bytes}

private theorem checkSize_zero (c : FrameCodec) : c.checkSize 0 = .ok () := if_neg
    (Nat.not_lt_zero _)

private theorem validate_withPayload {x : Bytes} (carries : (payload? p).isSome) :
    c.validate (p.withPayload x) =
      (do c.validate (p.withPayload []); c.frame.checkSize x.length) := by
  cases p with
  | push id priority delayMs payload =>
    simp only [Packet.withPayload, validate, List.length_nil, checkSize_zero]
    cases checkId "message id" id false <;> rfl
  | deliver id token attempt payload =>
    simp only [Packet.withPayload, validate, List.length_nil, checkSize_zero]
    cases checkId "message id" id false <;> rfl
  | _ => cases carries

private theorem fields_withPayload (x : Bytes) (p : Packet) :
    fields (p.withPayload x) = fields p := by
  cases p <;> rfl

private theorem typeByte_withPayload (x : Bytes) (p : Packet) :
    (p.withPayload x).typeByte = p.typeByte := by
  cases p <;> rfl

private theorem payload?_withPayload {x : Bytes} (carries : (payload? p).isSome) :
    payload? (p.withPayload x) = some x := by
  cases p with
  | push id priority delayMs payload => rfl
  | deliver id token attempt payload => rfl
  | _ => cases carries

private theorem withPayload_of_none {x : Bytes} (bare : (payload? p).isNone) :
    p.withPayload x = p := by
  cases p with
  | push id priority delayMs payload => cases bare
  | deliver id token attempt payload => cases bare
  | _ => rfl

/-- A packet is written with a stretch as with the bytes that it stands for. -/
theorem encodeLong_eq (c : PacketCodec) (p : Packet) (payload : Stretch) :
    (c.encodeLong p payload).map Stretch.toBytes = c.encode (p.withPayload payload.toBytes) := by
  cases carried : payload? p with
  | none =>
    have bare : (payload? p).isNone := by rw [carried]; rfl
    rw [encodeLong, if_pos bare, withPayload_of_none bare]
    cases c.encode p with
    | error e => rfl
    | ok f => exact congrArg Except.ok (Stretch.toBytes_ofBytes f)
  | some x =>
    have carries : (payload? p).isSome := by rw [carried]; rfl
    have bare : ¬(payload? p).isNone := by rw [carried]; exact Bool.false_ne_true
    have valid := validate_withPayload (c := c) (x := payload.toBytes) carries
    rw [Stretch.length_toBytes] at valid
    rw [encodeLong, if_neg bare, encode_eq, valid, writeBody, payload?_withPayload carries,
      typeByte_withPayload, fields_withPayload]
    simp only [FrameCodec.encode, Stretch.length_toBytes, bind, Except.bind]
    cases c.validate (p.withPayload []) with
    | error e => rfl
    | ok _ =>
      cases c.frame.checkSize payload.length with
      | error e => rfl
      | ok _ =>
        simp only [pure, Except.pure, List.length_append, Stretch.length_toBytes, Nat.add_assoc,
          gt_iff_lt]
        split_ifs with long
        · rfl
        · simp only [Except.map, Stretch.toBytes_behind, List.append_assoc]

/-- A buffer that ends in a run is read as with the run written out. -/
theorem decodeLong_eq (c : PacketCodec) (buffer : Stretch) :
    c.decode buffer.toBytes =
      ((c.decodeLong buffer).1, (c.decodeLong buffer).2.toBytes) := by
  simp only [decode, scan, decodeLong, FrameCodec.declaredLength, Stretch.take_toBytes,
    Stretch.length_toBytes, ← Stretch.toBytes_drop]
  split_ifs <;> rfl

/-- A packet that is written stands in the buffer as a header and the body that was written behind
it.  The header tells the length of the body modulo the number of values of four bytes.  So it tells
the truth just when it can, and just then is the body split off again from whatever follows it.  All
packets have such a body unless their payload is among the longest that a header can express; their
codec then admits them, since the room that a frame has for the fields is added to the limit without
regard to the width of the header. -/
theorem header_is_length_modulo (n : Nat) (p : Packet) (f : Bytes)
    (written : (ofLimit n).encode p = .ok f) :
    ∃ header body : Bytes, f = header ++ body ∧ header.length = headerSize ∧
      (ofLimit n).writeBody p = .ok body ∧
      Bytes.toNat header = body.length % (maxHeaderValue + 1) ∧
      (Bytes.toNat header = body.length ↔ body.length ≤ maxHeaderValue) ∧
      (∀ rest, (FrameCodec.ofLimit maxHeaderValue).decodeFrom (f ++ rest) = .ok (body, rest) ↔
        body.length ≤ maxHeaderValue) ∧
      ((∀ x, payload? p = some x → x.length ≤ maxHeaderValue - envelopeRoom) →
        body.length ≤ maxHeaderValue) := by
  obtain ⟨valid, rfl⟩ := of_encode written
  have value : Bytes.toNat (Bytes.ofNat headerSize (body p).length) =
      (body p).length % (maxHeaderValue + 1) := Bytes.toNat_ofNat _ _
  refine ⟨Bytes.ofNat headerSize (body p).length, body p, rfl, Bytes.length_ofNat _ _,
    writeBody_eq valid, value, ?_, ?_, ?_⟩
  · rw [value, ← Nat.lt_add_one_iff]
    constructor
    · intro same
      rw [← same]
      exact Nat.mod_lt _ (Nat.succ_pos _)
    · exact Nat.mod_eq_of_lt
  · intro rest
    constructor
    · intro read
      exact (FrameCodec.of_decodeFrom read).2
    · intro fits
      exact FrameCodec.decodeFrom_append (c := .ofLimit maxHeaderValue) fits rest
  · intro short
    have room := length_fields_le valid
    simp only [envelopeRoom] at room
    rw [length_body]
    cases carried : payload? p with
    | none =>
      simp only [Option.elim_none, maxHeaderValue]
      omega
    | some x =>
      have le := short x carried
      simp only [envelopeRoom, maxHeaderValue] at le
      simp only [Option.elim_some, headerSize, maxHeaderValue]
      omega

/-- The header of a short push tells the truth, and the push is split off by it. -/
theorem short_push_is_split_off :
    (ofLimit 16).encode (.push "a" 0 0 [1, 2, 3]) =
        .ok [0, 0, 0, 16, 2, 0, 1, 97, 0, 0, 0, 0, 0, 0, 0, 0, 3, 1, 2, 3] ∧
      (FrameCodec.ofLimit maxHeaderValue).decodeFrom
          ([0, 0, 0, 16, 2, 0, 1, 97, 0, 0, 0, 0, 0, 0, 0, 0, 3, 1, 2, 3] ++ [7]) =
        .ok ([2, 0, 1, 97, 0, 0, 0, 0, 0, 0, 0, 0, 3, 1, 2, 3], [7]) := by
  have written : (ofLimit 16).encode (.push "a" 0 0 [1, 2, 3]) =
      .ok [0, 0, 0, 16, 2, 0, 1, 97, 0, 0, 0, 0, 0, 0, 0, 0, 3, 1, 2, 3] := by decide
  have wrote : (ofLimit 16).writeBody (.push "a" 0 0 [1, 2, 3]) =
      .ok [2, 0, 1, 97, 0, 0, 0, 0, 0, 0, 0, 0, 3, 1, 2, 3] := by decide
  obtain ⟨header, body, -, -, same, -, -, split, -⟩ := header_is_length_modulo 16 _ _ written
  obtain rfl := Except.ok.inj (wrote.symm.trans same)
  exact ⟨written, (split [7]).mpr (by decide)⟩

section Longest

private def longPush : Packet := .push "a" 0 0 []

/-- So many zeros that the body of a push with them is one byte longer than a header can express. -/
def longPayload : Stretch := ⟨[], 0, 4294967283⟩

/-- What stands in front of the zeros. -/
def longHead : Bytes := [2, 0, 1, 97, 0, 0, 0, 0, 0, 255, 255, 255, 243]

private theorem encode_longPush :
    (ofLimit maxHeaderValue).encode (.push "a" 0 0 (List.replicate 4294967283 0)) =
      .ok ([0, 0, 0, 0] ++ (longPayload.behind longHead).toBytes) := by
  have short : (ofLimit maxHeaderValue).encodeLong longPush longPayload =
      .ok (longPayload.behind ([0, 0, 0, 0] ++ longHead)) := by decide +kernel
  have whole := encodeLong_eq (ofLimit maxHeaderValue) longPush longPayload
  rw [short] at whole
  have zeros : longPayload.toBytes = List.replicate 4294967283 0 := List.nil_append _
  rw [zeros] at whole
  rw [Stretch.toBytes_behind, ← List.append_assoc, ← Stretch.toBytes_behind]
  exact whole.symm

/-- A codec for the longest payloads that a header can express writes a push with a body of 2³²
bytes, behind a header that says that there are none.  Whoever trusts the header takes the header
alone, and reads an empty body. -/
theorem header_of_long_push_lies : ∃ body : Bytes, body.length = 4294967296 ∧
    (ofLimit maxHeaderValue).encode (.push "a" 0 0 (List.replicate 4294967283 0)) =
      .ok ([0, 0, 0, 0] ++ body) ∧
    Bytes.toNat [0, 0, 0, 0] ≠ body.length ∧
    (FrameCodec.ofLimit maxHeaderValue).decodeFrom ([0, 0, 0, 0] ++ body) = .ok ([], body) ∧
    (ofLimit maxHeaderValue).decode ([0, 0, 0, 0] ++ body) =
      (.error (.malformed (.truncated "packet type" 1 0)), body) := by
  have length : (longPayload.behind longHead).toBytes.length = 4294967296 :=
    Stretch.length_toBytes _
  refine ⟨_, length, encode_longPush, ?_, ?_, ?_⟩
  · rw [length]
    decide
  · have none_declared : ([] : Bytes).length ≤ (FrameCodec.ofLimit maxHeaderValue).limit :=
      Nat.zero_le _
    exact FrameCodec.decodeFrom_append none_declared _
  · have read : (ofLimit maxHeaderValue).decodeLong
        ((longPayload.behind longHead).behind [0, 0, 0, 0]) =
        (.error (.malformed (.truncated "packet type" 1 0)), longPayload.behind longHead) := by
      decide +kernel
    rw [← Stretch.toBytes_behind, decodeLong_eq, read]

end Longest

end PacketCodec
end WorkBroker
