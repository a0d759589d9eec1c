import WorkBroker.Proofs.Wire.RoundTrip
/-!
What the packet decoder accepts.  `r.Reads P` says that a reading takes the front of whatever it is
given and looks no further: what it returns stands to the bytes taken as `P` says, and would be read
from them in front of any other bytes; what it refuses is malformed, for a reason that no further
bytes change unless the reason is that bytes are missing.  This is closed under sequencing, so the
bodies that are read turn out to be those that are written.
-/

set_option autoImplicit false
set_option relaxedAutoImplicit false

namespace WorkBroker

namespace Bytes

private theorem valueCount_pos (width : Nat) : 0 < valueCount width := by
  induction width with
  | zero => decide
  | succ width ih =>
    rw [valueCount]
    omega

private theorem toNat_lt_valueCount (b : Bytes) : toNat b < valueCount b.length := by
  induction b with
  | nil => decide
  | cons first rest ih =>
    have digit : (first.toNat + 1) * valueCount rest.length ≤ 256 * valueCount rest.length :=
      Nat.mul_le_mul_right _ first.toNat_lt
    rw [Nat.add_one_mul] at digit
    rw [toNat, List.length_cons, valueCount]
    omega

private theorem ofNat_mul_add (width k n : Nat) :
    ofNat width (k * valueCount width + n) = ofNat width n := by
  induction width generalizing k with
  | zero => rfl
  | succ width ih =>
    have split : k * valueCount (width + 1) + n = k * 256 * valueCount width + n := by
      rw [valueCount, Nat.mul_assoc]
    rw [ofNat, ofNat, split, ih, Nat.mul_comm (k * 256), Nat.mul_add_div (valueCount_pos width),
      Nat.mul_comm k, Nat.mul_add_mod]

theorem ofNat_toNat (b : Bytes) : ofNat b.length (toNat b) = b := by
  induction b with
  | nil => rfl
  | cons first rest ih =>
    have low := toNat_lt_valueCount rest
    have high : (first.toNat * valueCount rest.length + toNat rest) / valueCount rest.length =
        first.toNat := by
      rw [Nat.mul_comm, Nat.mul_add_div (valueCount_pos _), Nat.div_eq_of_lt low, Nat.add_zero]
    rw [List.length_cons, ofNat, toNat, high, ofNat_mul_add, ih, Nat.mod_eq_of_lt first.toNat_lt,
      UInt8.ofNat_toNat]

private theorem ofText_of_toText? {b : Bytes} {s : String} (h : toText? b = some s) :
    ofText s = b := by
  rw [toText?, String.fromUTF8?] at h
  split_ifs at h with valid
  rw [← Option.some.inj h]
  rfl

end Bytes

/-- Whether a cause says that bytes are missing, where at most `total` of them were there. -/
def Malformation.IsShortage (total : Nat) : Malformation → Prop
  | .truncated _ needed available => available < needed ∧ available ≤ total
  | .headerTooShort available => available < headerSize ∧ available ≤ total
  | .payloadTooShort declared available => available < declared ∧ available ≤ total
  | _ => False

def Malformation.isOverLimit : Malformation → Bool
  | .frameTooLong _ _ => true
  | _ => false

private theorem Malformation.IsShortage.mono {cause : Malformation} {n m : Nat}
    (h : cause.IsShortage n) (le : n ≤ m) : cause.IsShortage m := by
  cases cause <;> simp only [IsShortage] at h ⊢ <;> omega

namespace Reader

variable {α β : Type} {r : Reader α} {k : α → Reader β} {P : Bytes → α → Prop}
  {Q : Bytes → β → Prop}

/-- Whatever bytes it is given, a reading keeps to their front. -/
def Reads (r : Reader α) (P : Bytes → α → Prop) : Prop :=
  ∀ bytes,
    match r.run bytes with
    | .ok (a, rest) => ∃ taken, bytes = taken ++ rest ∧ P taken a ∧ r.Yields taken a
    | .error e => ∃ cause, e = .malformed cause ∧ cause.isOverLimit = false ∧
        (cause.IsShortage bytes.length ∨ ∀ more, r.run (bytes ++ more) = .error e)

private theorem reads_pure {a : α} (h : P [] a) : (pure a : Reader α).Reads P :=
  fun _ => ⟨[], rfl, h, .of_pure a⟩

private theorem reads_malformed {cause : Malformation} (within : cause.isOverLimit = false)
    (P : Bytes → α → Prop) : (malformed cause : Reader α).Reads P :=
  fun _ => ⟨cause, rfl, within, .inr fun _ => rfl⟩

/-- What is read after something else may depend on what that was and on how it was written. -/
theorem Reads.bind (first : r.Reads P)
    (next : ∀ x a, P x a → (k a).Reads fun y b => Q (x ++ y) b) : (r >>= k).Reads Q := by
  intro bytes
  have step : ∀ bytes, (r >>= k).run bytes = (r.run bytes >>= fun p => (k p.1).run p.2) :=
    fun _ => rfl
  have one := first bytes
  cases h : r.run bytes with
  | error e =>
    rw [h] at one
    obtain ⟨cause, rfl, within, short | stable⟩ := one
    · rw [step, h]
      exact ⟨cause, rfl, within, .inl short⟩
    · rw [step, h]
      refine ⟨cause, rfl, within, .inr fun more => ?_⟩
      rw [step, stable more]
      rfl
  | ok p =>
    obtain ⟨a, rest⟩ := p
    rw [h] at one
    obtain ⟨x, rfl, hx, yields⟩ := one
    have two := next x a hx rest
    have run : (r >>= k).run (x ++ rest) = (k a).run rest := by
      rw [step, h]
      rfl
    rw [run]
    cases h' : (k a).run rest with
    | error e =>
      rw [h'] at two
      obtain ⟨cause, rfl, within, short | stable⟩ := two
      · exact ⟨cause, rfl, within, .inl (short.mono (by simp))⟩
      · refine ⟨cause, rfl, within, .inr fun more => ?_⟩
        rw [step, List.append_assoc, yields]
        exact stable more
    | ok p =>
      obtain ⟨b, left⟩ := p
      rw [h'] at two
      obtain ⟨y, rfl, hy, yields'⟩ := two
      exact ⟨x ++ y, (List.append_assoc x y left).symm, hy, yields.bind yields'⟩

private theorem Reads.mono {P' : Bytes → α → Prop} (h : r.Reads P)
    (weaker : ∀ x a, P x a → P' x a) :
    r.Reads P' := by
  have both : (r >>= pure).Reads P' := h.bind fun x a hx => reads_pure (by
    rw [List.append_nil]
    exact weaker x a hx)
  rwa [bind_pure] at both

private theorem Reads.map {γ : Type} {P' : Bytes → γ → Prop} (f : α → γ) (h : r.Reads P)
    (weaker : ∀ x a, P x a → P' x (f a)) : (do return f (← r) : Reader γ).Reads P' :=
  h.bind fun x a hx => reads_pure (by
    rw [List.append_nil]
    exact weaker x a hx)

private theorem reads_take (field : String) (size : Nat) :
    (take field size).Reads fun x a => x = a ∧ a.length = size := by
  intro bytes
  have read : (take field size).run bytes =
      if bytes.length < size then .error (.malformed (.truncated field size bytes.length))
      else .ok (bytes.take size, bytes.drop size) := by
    by_cases short : bytes.length < size
    · rw [if_pos short]
      show (if bytes.length < size then _ else _ : Reader Bytes).run bytes = _
      rw [if_pos short]
      rfl
    · rw [if_neg short]
      show (if bytes.length < size then _ else _ : Reader Bytes).run bytes = _
      rw [if_neg short]
      rfl
  rw [read]
  by_cases short : bytes.length < size
  · rw [if_pos short]
    exact ⟨_, rfl, rfl, .inl ⟨short, Nat.le_refl _⟩⟩
  · rw [if_neg short]
    have length : (bytes.take size).length = size :=
      List.length_take_of_le (Nat.le_of_not_lt short)
    exact ⟨_, (List.take_append_drop size bytes).symm, ⟨rfl, length⟩, yields_take field length⟩

private theorem reads_number (field : String) (width : Nat) :
    (number field width).Reads fun x n => x = Bytes.ofNat width n ∧ n < Bytes.valueCount width := by
  refine (reads_take field width).map Bytes.toNat fun x a hx => ?_
  obtain ⟨rfl, rfl⟩ := hx
  exact ⟨(Bytes.ofNat_toNat x).symm, Bytes.toNat_lt_valueCount x⟩

private theorem reads_uint8 (field : String) : (uint8 field).Reads fun x n => x = [n] := by
  refine (reads_number field 1).map UInt8.ofNat fun x n hx => ?_
  obtain ⟨rfl, small⟩ := hx
  have digit : n / Bytes.valueCount 0 % 256 = n := by
    rw [Bytes.valueCount, Nat.div_one]
    exact Nat.mod_eq_of_lt small
  rw [Bytes.ofNat, digit, Bytes.ofNat]

private theorem reads_uint16 (field : String) :
    (uint16 field).Reads fun x n => x = Bytes.ofNat 2 n.toNat := by
  refine (reads_number field 2).map UInt16.ofNat fun x n hx => ?_
  obtain ⟨rfl, small⟩ := hx
  rw [UInt16.toNat_ofNat_of_lt' small]

private theorem reads_uint32 (field : String) :
    (uint32 field).Reads fun x n => x = PacketCodec.word32 n := by
  refine (reads_number field 4).map UInt32.ofNat fun x n hx => ?_
  obtain ⟨rfl, small⟩ := hx
  rw [PacketCodec.word32, UInt32.toNat_ofNat_of_lt' small]

private theorem reads_uint64 (field : String) :
    (uint64 field).Reads fun x n => x = PacketCodec.word64 n := by
  refine (reads_number field 8).map UInt64.ofNat fun x n hx => ?_
  obtain ⟨rfl, small⟩ := hx
  rw [PacketCodec.word64, UInt64.toNat_ofNat_of_lt' small]

private theorem reads_flag (field : String) :
    (flag field).Reads fun x b => x = PacketCodec.flag b := by
  refine (reads_uint8 field).bind fun x n hx => ?_
  subst hx
  split
  · rename_i zero
    obtain rfl : n = 0 := UInt8.toNat_inj.mp zero
    exact reads_pure rfl
  · rename_i one
    obtain rfl : n = 1 := UInt8.toNat_inj.mp one
    exact reads_pure rfl
  · exact reads_malformed rfl _

private theorem reads_text (field : String) :
    (text field).Reads fun x s => x = PacketCodec.text s := by
  refine (reads_uint16 field).bind fun x size hx => ?_
  refine (reads_take field size.toNat).bind fun y a hy => ?_
  obtain ⟨rfl, length⟩ := hy
  subst hx
  split
  · rename_i s found
    have encoded := Bytes.ofText_of_toText? found
    have same : Bytes.sizeOfText s = size.toNat := by
      rw [← Bytes.length_ofText, encoded, length]
    refine reads_pure ?_
    rw [PacketCodec.text, encoded, same, List.append_nil]
  · exact reads_malformed rfl _

private theorem reads_checkId (field id : String) (mayBeEmpty : Bool) :
    (liftM (checkId field id mayBeEmpty) : Reader Unit).Reads fun x _ =>
      x = [] ∧ checkId field id mayBeEmpty = .ok () := by
  cases h : checkId field id mayBeEmpty with
  | ok _ => exact fun _ => ⟨[], rfl, ⟨rfl, rfl⟩, .of_ok rfl⟩
  | error e =>
    have cause : ∃ cause, e = .malformed cause ∧ cause.isOverLimit = false := by
      rw [checkId] at h
      split_ifs at h <;> exact ⟨_, (Except.error.inj h).symm, rfl⟩
    obtain ⟨cause, rfl, within⟩ := cause
    exact fun _ => ⟨cause, rfl, within, .inr fun _ => rfl⟩

private theorem reads_id (field : String) (mayBeEmpty : Bool) :
    (Reader.id field mayBeEmpty).Reads fun x s =>
      x = PacketCodec.text s ∧ checkId field s mayBeEmpty = .ok () := by
  refine (reads_text field).bind fun x s hx => ?_
  refine (reads_checkId field s mayBeEmpty).bind fun y _ hy => ?_
  obtain ⟨rfl, valid⟩ := hy
  exact reads_pure ⟨by simpa using hx, valid⟩

private theorem reads_messageIds (count : Nat) :
    (messageIds count).Reads fun x ids => x = (ids.map PacketCodec.text).flatten ∧
      ids.length = count ∧ ∀ id ∈ ids, checkId "message id" id false = .ok () := by
  induction count with
  | zero => exact reads_pure ⟨rfl, rfl, by simp⟩
  | succ count ih =>
    refine (reads_id "message id" false).bind fun x first hx => ih.bind fun y others hy => ?_
    obtain ⟨rfl, valid⟩ := hx
    obtain ⟨rfl, rfl, all⟩ := hy
    exact reads_pure ⟨by simp, by simp, List.forall_mem_cons.mpr ⟨valid, all⟩⟩

theorem forM_checkId_eq_ok {field : String} {mayBeEmpty : Bool} {ids : List String}
    (all : ∀ id ∈ ids, checkId field id mayBeEmpty = .ok ()) :
    (ids.forM fun id => checkId field id mayBeEmpty) = .ok () := by
  induction ids with
  | nil => rfl
  | cons id ids ih =>
    obtain ⟨valid, others⟩ := List.forall_mem_cons.mp all
    have step : ((id :: ids).forM fun id => checkId field id mayBeEmpty) =
        (do checkId field id mayBeEmpty; ids.forM fun id => checkId field id mayBeEmpty) := rfl
    rw [step, valid]
    exact ih others

private theorem reads_idList :
    idList.Reads fun x ids => x = PacketCodec.texts ids ∧ PacketCodec.checkIds ids = .ok () := by
  refine (reads_uint16 _).bind fun x count hx => ?_
  subst hx
  split
  · exact reads_malformed rfl _
  · rename_i few
    refine (reads_messageIds count.toNat).mono fun y ids hy => ?_
    obtain ⟨rfl, length, all⟩ := hy
    refine ⟨by rw [PacketCodec.texts, length], ?_⟩
    rw [PacketCodec.checkIds, length, if_neg few]
    exact forM_checkId_eq_ok all

end Reader

private theorem Role.toByte_of_ofByte? {b : UInt8} {role : Role} (h : Role.ofByte? b = some role) :
    role.toByte = b := by
  rw [Role.ofByte?] at h
  split_ifs at h with one two three
  · obtain rfl := Option.some.inj h
    exact one.symm
  · obtain rfl := Option.some.inj h
    exact two.symm
  · obtain rfl := Option.some.inj h
    exact three.symm

private theorem RejectReason.toByte_of_ofByte? {b : UInt8} {reason : RejectReason}
    (h : RejectReason.ofByte? b = some reason) : reason.toByte = b := by
  rw [RejectReason.ofByte?] at h
  split_ifs at h with one two
  · obtain rfl := Option.some.inj h
    exact one.symm
  · obtain rfl := Option.some.inj h
    exact two.symm

namespace FrameCodec

variable {c : FrameCodec} {buffer : Bytes}

theorem declaredLength_append_of_le (h : headerSize ≤ buffer.length) (more : Bytes) :
    declaredLength (buffer ++ more) = declaredLength buffer := by
  rw [declaredLength, declaredLength, List.take_append_of_le_length h]

theorem header_eq (h : headerSize ≤ buffer.length) :
    Bytes.ofNat headerSize (declaredLength buffer) = buffer.take headerSize := by
  have written := Bytes.ofNat_toNat (buffer.take headerSize)
  rwa [List.length_take_of_le h] at written

theorem declaredLength_le (h : headerSize ≤ buffer.length) :
    declaredLength buffer ≤ maxHeaderValue := by
  have small := Bytes.toNat_lt_valueCount (buffer.take headerSize)
  rw [List.length_take_of_le h] at small
  exact Nat.le_of_lt_succ small

theorem decodeFrom_eq (c : FrameCodec) (buffer : Bytes) :
    c.decodeFrom buffer =
      if buffer.length < headerSize then .error (.malformed (.headerTooShort buffer.length))
      else if c.limit < declaredLength buffer then
        .error (.malformed (.declaredTooLong (declaredLength buffer) c.limit))
      else if (buffer.drop headerSize).length < declaredLength buffer then
        .error (.malformed
          (.payloadTooShort (declaredLength buffer) (buffer.drop headerSize).length))
      else .ok ((buffer.drop headerSize).take (declaredLength buffer),
        (buffer.drop headerSize).drop (declaredLength buffer)) := by
  simp only [decodeFrom, checkDeclared]
  split_ifs <;> rfl

theorem of_decodeFrom {payload rest : Bytes} (h : c.decodeFrom buffer = .ok (payload, rest)) :
    buffer = Bytes.ofNat headerSize payload.length ++ payload ++ rest ∧
      payload.length ≤ c.limit := by
  rw [decodeFrom_eq] at h
  split_ifs at h with short long lacking
  obtain ⟨rfl, rfl⟩ := Prod.mk.inj (Except.ok.inj h)
  have length : ((buffer.drop headerSize).take (declaredLength buffer)).length =
      declaredLength buffer := List.length_take_of_le (Nat.le_of_not_lt lacking)
  rw [length]
  refine ⟨?_, Nat.le_of_not_lt long⟩
  rw [header_eq (Nat.le_of_not_lt short), List.append_assoc, List.take_append_drop,
    List.take_append_drop]

end FrameCodec

namespace PacketCodec

open Reader (Reads reads_pure reads_malformed)

variable {c : PacketCodec} {p : Packet} {b : Bytes}

/-- Whether a codec could write a packet, but for a payload or an error message that is too long. -/
def Admits (c : PacketCodec) (p : Packet) : Prop :=
  c.validate p = .ok () ∨
    (∃ x, payload? p = some x ∧ c.maxMessageSize < x.length ∧
      c.validate p = .error (.oversize x.length c.maxMessageSize)) ∨
    ∃ code message, p = .error code message ∧ maxErrorMessage < Bytes.sizeOfText message ∧
      c.validate p = .error (.malformed .longErrorMessage)

/-- Whether bytes are the body of a packet, but for the code of an unknown error. -/
def Spells (b : Bytes) (p : Packet) : Prop :=
  b = body p ∨ ∃ code message, p = .error .unknown message ∧ (code = 0 ∨ 11 < code) ∧
    code < 65536 ∧ b = 0x8a :: (Bytes.ofNat 2 code ++ text message) ∧
    body p = 0x8a :: (Bytes.ofNat 2 1 ++ text message)

/-- What is known of a packet that was read from some bytes. -/
structure Accepts (c : PacketCodec) (b : Bytes) (p : Packet) : Prop where
  spells : Spells b p
  admits : c.Admits p
  payload : ∀ x, payload? p = some x → x.length ≤ c.envelope.limit

variable {typeByte : UInt8}

private theorem accepts_of_valid (typed : typeByte.toNat = p.typeByte.toNat)
    (valid : c.validate p = .ok ()) (none : payload? p = none) (h : b = contents p) :
    c.Accepts (typeByte :: b) p := by
  obtain rfl := UInt8.toNat_inj.mp typed
  exact ⟨.inl (congrArg (p.typeByte :: ·) h), .inl valid, fun x hx => by simp [none] at hx⟩

private theorem accepts_of_payload {id : String} {x : Bytes}
    (typed : typeByte.toNat = p.typeByte.toNat) (valid : checkId "message id" id false = .ok ())
    (check : c.validate p = do checkId "message id" id false; c.frame.checkSize x.length)
    (hx : payload? p = some x) (le : x.length ≤ c.envelope.limit) (h : b = contents p) :
    c.Accepts (typeByte :: b) p := by
  obtain rfl := UInt8.toNat_inj.mp typed
  refine ⟨.inl (congrArg (p.typeByte :: ·) h), ?_, fun y hy => ?_⟩
  · rw [valid] at check
    by_cases long : c.frame.limit < x.length
    · exact .inr (.inl ⟨x, hx, long, check.trans (if_pos long)⟩)
    · exact .inl (check.trans (if_neg long))
  · obtain rfl := Option.some.inj (hx.symm.trans hy)
    exact le

private theorem toUInt16_ofUInt16 (n : UInt16) :
    (ErrorCode.ofUInt16 n).toUInt16 = n ∨
      ErrorCode.ofUInt16 n = .unknown ∧ (n.toNat = 0 ∨ 11 < n.toNat) := by
  rw [ErrorCode.ofUInt16]
  split
  case h_11 =>
    by_cases one : n.toNat = 1
    · exact .inl (UInt16.toNat_inj.mp one).symm
    · exact .inr ⟨rfl, by grind⟩
  all_goals
    rename_i h
    exact .inl (UInt16.toNat_inj.mp h).symm

private theorem accepts_error (c : PacketCodec) (code : UInt16) (message : String) :
    c.Accepts (0x8a :: (Bytes.ofNat 2 code.toNat ++ text message))
      (.error (ErrorCode.ofUInt16 code) message) := by
  refine ⟨?_, ?_, fun x hx => by cases hx⟩
  · have written : ∀ known : ErrorCode, body (.error known message) =
        0x8a :: (Bytes.ofNat 2 known.toUInt16.toNat ++ text message) := fun known => by
      simp [body, contents, fields, payload?, Packet.typeByte]
    rcases toUInt16_ofUInt16 code with same | ⟨unknown, other⟩
    · exact .inl (by rw [written, same])
    · rw [unknown]
      exact .inr ⟨code.toNat, message, rfl, other, code.toNat_lt, rfl, written .unknown⟩
  · by_cases long : maxErrorMessage < Bytes.sizeOfText message
    · exact .inr (.inr ⟨_, message, rfl, long, if_pos long⟩)
    · exact .inl (if_neg long)

private theorem reads_readRole : readRole.Reads fun x role => x = [role.toByte] := by
  refine (Reader.reads_uint8 _).bind fun x n hx => ?_
  subst hx
  cases h : Role.ofByte? n with
  | none => exact reads_malformed rfl _
  | some role => exact reads_pure (by rw [Role.toByte_of_ofByte? h, List.append_nil])

private theorem reads_readReason : readReason.Reads fun x reason => x = [reason.toByte] := by
  refine (Reader.reads_uint8 _).bind fun x n hx => ?_
  subst hx
  cases h : RejectReason.ofByte? n with
  | none => exact reads_malformed rfl _
  | some reason => exact reads_pure (by rw [RejectReason.toByte_of_ofByte? h, List.append_nil])

private theorem reads_readPayload (c : PacketCodec) :
    (readPayload c).Reads fun y x =>
      y = Bytes.ofNat headerSize x.length ++ x ∧ x.length ≤ c.envelope.limit := by
  intro bytes
  simp only [run_readPayload]
  cases h : c.envelope.decodeFrom bytes with
  | ok p =>
    obtain ⟨payload, rest⟩ := p
    obtain ⟨whole, fits⟩ := FrameCodec.of_decodeFrom h
    exact ⟨_, whole, ⟨rfl, fits⟩, yields_readPayload fits⟩
  | error e =>
    rw [FrameCodec.decodeFrom_eq] at h
    split_ifs at h with short long lacking
    · exact ⟨_, (Except.error.inj h).symm, rfl, .inl ⟨short, Nat.le_refl _⟩⟩
    · refine ⟨_, (Except.error.inj h).symm, rfl, .inr fun more => ?_⟩
      have same := FrameCodec.declaredLength_append_of_le (Nat.le_of_not_lt short) more
      have short' : ¬(bytes ++ more).length < headerSize := by
        rw [List.length_append]
        omega
      rw [FrameCodec.decodeFrom_eq, if_neg short', same, if_pos long, h]
    · exact ⟨_, (Except.error.inj h).symm, rfl, .inl ⟨lacking, by simp⟩⟩

/-- What follows a type byte is read as the fields of a packet of this type. -/
theorem reads_readFields (c : PacketCodec) (typeByte : UInt8) :
    (c.readFields typeByte).Reads fun y p => c.Accepts (typeByte :: y) p := by
  rw [readFields]
  -- One case for each type of packet, its fields in the order in which they are read.
  split
  next hello =>
    refine reads_readRole.bind fun x role hx => ?_
    refine (Reader.reads_id _ _).bind fun y id hy => ?_
    obtain ⟨rfl, valid⟩ := hy
    subst hx
    exact reads_pure (accepts_of_valid hello valid rfl (by simp [contents, fields, payload?]))
  next push =>
    refine (Reader.reads_id _ _).bind fun x id hx => ?_
    refine (Reader.reads_uint8 _).bind fun y priority hy => ?_
    refine (Reader.reads_uint32 _).bind fun z delayMs hz => ?_
    refine (reads_readPayload c).bind fun v payload hv => ?_
    obtain ⟨rfl, valid⟩ := hx
    obtain ⟨rfl, fits⟩ := hv
    subst hy hz
    exact reads_pure (accepts_of_payload push valid rfl rfl fits
      (by simp [contents, fields, payload?]))
  next pop =>
    refine (Reader.reads_uint32 _).bind fun x waitMs hx => ?_
    subst hx
    exact reads_pure (accepts_of_valid pop rfl rfl (by simp [contents, fields, payload?]))
  next ack =>
    refine (Reader.reads_id _ _).bind fun x id hx => ?_
    refine (Reader.reads_uint64 _).bind fun y token hy => ?_
    refine (Reader.reads_flag _).bind fun z requeue hz => ?_
    refine (Reader.reads_uint32 _).bind fun v delayMs hv => ?_
    obtain ⟨rfl, valid⟩ := hx
    subst hy hz hv
    exact reads_pure (accepts_of_valid ack valid rfl (by simp [contents, fields, payload?]))
  next count =>
    exact reads_pure (accepts_of_valid count rfl rfl rfl)
  next listFailed =>
    refine (Reader.reads_uint32 _).bind fun x limit hx => ?_
    subst hx
    exact reads_pure (accepts_of_valid listFailed rfl rfl (by simp [contents, fields, payload?]))
  next eraseFailed =>
    refine Reader.reads_idList.bind fun x ids hx => ?_
    obtain ⟨rfl, valid⟩ := hx
    exact reads_pure (accepts_of_valid eraseFailed valid rfl (by simp [contents, fields, payload?]))
  next goodbye =>
    exact reads_pure (accepts_of_valid goodbye rfl rfl rfl)
  next ackPop =>
    refine (Reader.reads_id _ _).bind fun x id hx => ?_
    refine (Reader.reads_uint64 _).bind fun y token hy => ?_
    refine (Reader.reads_flag _).bind fun z requeue hz => ?_
    refine (Reader.reads_uint32 _).bind fun v delayMs hv => ?_
    refine (Reader.reads_uint32 _).bind fun w waitMs hw => ?_
    obtain ⟨rfl, valid⟩ := hx
    subst hy hz hv hw
    exact reads_pure (accepts_of_valid ackPop valid rfl (by simp [contents, fields, payload?]))
  next welcome =>
    refine (Reader.reads_uint64 _).bind fun x connectionId hx => ?_
    refine (Reader.reads_uint32 _).bind fun y maxMessageSize hy => ?_
    refine (Reader.reads_uint32 _).bind fun z maxRetries hz => ?_
    subst hx hy hz
    exact reads_pure (accepts_of_valid welcome rfl rfl (by simp [contents, fields, payload?]))
  next rejected =>
    refine reads_readReason.bind fun x reason hx => ?_
    subst hx
    exact reads_pure (accepts_of_valid rejected rfl rfl (by simp [contents, fields, payload?]))
  next accepted =>
    refine (Reader.reads_id _ _).bind fun x id hx => ?_
    obtain ⟨rfl, valid⟩ := hx
    exact reads_pure (accepts_of_valid accepted valid rfl (by simp [contents, fields, payload?]))
  next deliver =>
    refine (Reader.reads_id _ _).bind fun x id hx => ?_
    refine (Reader.reads_uint64 _).bind fun y token hy => ?_
    refine (Reader.reads_uint32 _).bind fun z attempt hz => ?_
    refine (reads_readPayload c).bind fun v payload hv => ?_
    obtain ⟨rfl, valid⟩ := hx
    obtain ⟨rfl, fits⟩ := hv
    subst hy hz
    exact reads_pure (accepts_of_payload deliver valid rfl rfl fits
      (by simp [contents, fields, payload?]))
  next empty =>
    exact reads_pure (accepts_of_valid empty rfl rfl rfl)
  next acked =>
    refine (Reader.reads_id _ _).bind fun x id hx => ?_
    obtain ⟨rfl, valid⟩ := hx
    exact reads_pure (accepts_of_valid acked valid rfl (by simp [contents, fields, payload?]))
  next counts =>
    refine (Reader.reads_uint64 _).bind fun x capacity hx => ?_
    refine (Reader.reads_uint64 _).bind fun y active hy => ?_
    refine (Reader.reads_uint64 _).bind fun z failed hz => ?_
    refine (Reader.reads_uint64 _).bind fun v free hv => ?_
    subst hx hy hz hv
    exact reads_pure (accepts_of_valid counts rfl rfl (by simp [contents, fields, payload?]))
  next failed =>
    refine Reader.reads_idList.bind fun x ids hx => ?_
    refine (Reader.reads_flag _).bind fun y truncated hy => ?_
    obtain ⟨rfl, valid⟩ := hx
    subst hy
    exact reads_pure (accepts_of_valid failed valid rfl (by simp [contents, fields, payload?]))
  next erased =>
    refine Reader.reads_idList.bind fun x ids hx => ?_
    obtain ⟨rfl, valid⟩ := hx
    exact reads_pure (accepts_of_valid erased valid rfl (by simp [contents, fields, payload?]))
  next error =>
    refine (Reader.reads_uint16 _).bind fun x code hx => ?_
    refine (Reader.reads_text _).bind fun y message hy => ?_
    subst hx hy
    refine reads_pure ?_
    obtain rfl : typeByte = 0x8a := UInt8.toNat_inj.mp error
    rw [List.append_nil]
    exact accepts_error c code message
  next => exact reads_malformed rfl _

def readPacket (c : PacketCodec) : Reader Packet := do c.readFields (← Reader.uint8 "packet type")

private theorem reads_readPacket (c : PacketCodec) : c.readPacket.Reads c.Accepts :=
  (Reader.reads_uint8 _).bind fun x typeByte hx => by
    subst hx
    exact c.reads_readFields typeByte

private theorem decodeBody_eq (c : PacketCodec) (b : Bytes) :
    c.decodeBody b = c.readPacket.run b >>= fun (p, rest) =>
      if rest.isEmpty then .ok p
      else .error (.malformed (.bytesAfterPacket rest.length p.kind)) := rfl

private theorem decodeBody_of_ok {rest : Bytes} (h : c.readPacket.run b = .ok (p, rest)) :
    c.decodeBody b =
      if rest.isEmpty then .ok p
      else .error (.malformed (.bytesAfterPacket rest.length p.kind)) := by
  rw [decodeBody_eq, h]
  rfl

private theorem decodeBody_of_error {e : CodecError} (h : c.readPacket.run b = .error e) :
    c.decodeBody b = .error e := by
  rw [decodeBody_eq, h]
  rfl

/-- A body that is read is all of the bytes, and nothing after them would have been looked at. -/
theorem accepts_of_decodeBody (h : c.decodeBody b = .ok p) :
    c.Accepts b p ∧ c.readPacket.Yields b p := by
  have reads := c.reads_readPacket b
  cases run : c.readPacket.run b with
  | error e =>
    rw [decodeBody_of_error run] at h
    cases h
  | ok found =>
    obtain ⟨q, rest⟩ := found
    rw [run] at reads
    obtain ⟨taken, rfl, accepts, yields⟩ := reads
    rw [decodeBody_of_ok run] at h
    split_ifs at h with empty
    obtain rfl := Except.ok.inj h
    obtain rfl := List.isEmpty_iff.mp empty
    rw [List.append_nil]
    exact ⟨accepts, yields⟩

/-- Bytes that are refused are malformed, and no byte after them was looked at: either bytes are
missing, or the packet ends before the bytes do, or more bytes would change nothing. -/
theorem malformed_of_decodeBody {e : CodecError} (h : c.decodeBody b = .error e) :
    ∃ cause, e = .malformed cause ∧ cause.isOverLimit = false ∧
      (cause.IsShortage b.length ∨
        (∃ count kind, cause = .bytesAfterPacket count kind ∧ 0 < count ∧ count ≤ b.length ∧
          ∀ more, c.decodeBody (b ++ more) =
            .error (.malformed (.bytesAfterPacket (count + more.length) kind))) ∨
        ∀ more, c.decodeBody (b ++ more) = .error e) := by
  have reads := c.reads_readPacket b
  cases run : c.readPacket.run b with
  | error e' =>
    rw [run] at reads
    rw [decodeBody_of_error run] at h
    obtain rfl := Except.error.inj h
    obtain ⟨cause, rfl, within, short | stable⟩ := reads
    · exact ⟨cause, rfl, within, .inl short⟩
    · exact ⟨cause, rfl, within, .inr (.inr fun more => decodeBody_of_error (stable more))⟩
  | ok found =>
    obtain ⟨p, rest⟩ := found
    rw [run] at reads
    obtain ⟨taken, rfl, -, yields⟩ := reads
    rw [decodeBody_of_ok run] at h
    split_ifs at h with empty
    refine ⟨_, (Except.error.inj h).symm, rfl,
      .inr (.inl ⟨_, _, rfl, ?_, by simp, fun more => ?_⟩)⟩
    · exact List.length_pos_of_ne_nil fun nil => empty (List.isEmpty_iff.mpr nil)
    · have longer : ¬(rest ++ more).isEmpty := fun nil =>
        empty (List.isEmpty_iff.mpr (List.append_eq_nil_iff.mp (List.isEmpty_iff.mp nil)).1)
      rw [List.append_assoc, decodeBody_of_ok (yields (rest ++ more)), if_neg longer,
        List.length_append]

/-- Whatever the bytes are, they are read as a packet or refused as malformed, and what comes after
them has no part in that.  What is read is written back to the same bytes by every codec that admits
its payload, but for the number of an error that has no code of its own; and its own codec would
have written it, but for a payload or an error message that is too long. -/
theorem read_is_written (N : Nat) (b : Bytes) :
    match (ofLimit N).decodeBody b with
    | .ok p =>
      (∀ more, more ≠ [] → (ofLimit N).decodeBody (b ++ more) =
        .error (.malformed (.bytesAfterPacket more.length p.kind))) ∧
      (∀ x, payload? p = some x → x.length ≤ maxHeaderValue) ∧
      (∀ M, (∀ x, payload? p = some x → x.length ≤ min M maxHeaderValue) →
        (ofLimit M).writeBody p = .ok b ∨
          ∃ code message, p = .error .unknown message ∧ (code = 0 ∨ 11 < code) ∧ code < 65536 ∧
            b = 0x8a :: (Bytes.ofNat 2 code ++ text message) ∧
            (ofLimit M).writeBody p = .ok (0x8a :: (Bytes.ofNat 2 1 ++ text message))) ∧
      ((ofLimit N).validate p = .ok () ∨
        (∃ x, payload? p = some x ∧ min N maxHeaderValue < x.length ∧
          (ofLimit N).validate p = .error (.oversize x.length (min N maxHeaderValue))) ∨
        ∃ code message, p = .error code message ∧ maxErrorMessage < Bytes.sizeOfText message ∧
          (ofLimit N).validate p = .error (.malformed .longErrorMessage))
    | .error e =>
      ∃ cause, e = .malformed cause ∧
        (cause.IsShortage b.length ∨
          (∃ count kind, cause = .bytesAfterPacket count kind ∧ 0 < count ∧ count ≤ b.length ∧
            ∀ more, (ofLimit N).decodeBody (b ++ more) =
              .error (.malformed (.bytesAfterPacket (count + more.length) kind))) ∨
          ∀ more, (ofLimit N).decodeBody (b ++ more) = .error e) := by
  cases h : (ofLimit N).decodeBody b with
  | error e =>
    obtain ⟨cause, rfl, -, why⟩ := malformed_of_decodeBody h
    exact ⟨cause, rfl, why⟩
  | ok p =>
    obtain ⟨accepts, yields⟩ := accepts_of_decodeBody h
    refine ⟨fun more some => ?_, fun x hx => ?_, fun M admitted => ?_, accepts.admits⟩
    · rw [decodeBody_of_ok (yields more), if_neg (by simpa using some)]
    · exact Nat.le_trans (accepts.payload x hx) (ofLimit N).envelope.limit_le
    · have written := writeBody_of_payload_le (c := ofLimit M) admitted
      rcases accepts.spells with rfl | ⟨code, message, rfl, other, small, rfl, same⟩
      · exact .inl written
      · exact .inr ⟨code, message, rfl, other, small, rfl, same ▸ written⟩

/-- The number 12 belongs to no code; it is read as an unknown error, which is written as 1. -/
theorem unknown_code_is_written_as_one :
    (ofLimit 0).decodeBody [0x8a, 0, 12, 0, 1, 97] = .ok (.error .unknown "a") ∧
      (ofLimit 0).writeBody (.error .unknown "a") = .ok [0x8a, 0, 1, 0, 1, 97] := by
  have h : (ofLimit 0).decodeBody [0x8a, 0, 12, 0, 1, 97] = .ok (.error .unknown "a") := rfl
  have read := read_is_written 0 [0x8a, 0, 12, 0, 1, 97]
  rw [h] at read
  obtain ⟨-, -, written, -⟩ := read
  have admitted : ∀ x, payload? (.error .unknown "a") = some x → x.length ≤ min 0 maxHeaderValue :=
    fun x hx => by cases hx
  refine ⟨h, ?_⟩
  rcases written 0 admitted with same | ⟨code, message, hp, -, -, -, other⟩
  · exact absurd same (by decide)
  · obtain rfl := (Packet.error.inj hp).2
    exact other

end PacketCodec

end WorkBroker
