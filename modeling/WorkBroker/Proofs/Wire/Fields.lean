import WorkBroker.Wire.PacketCodec
import Mathlib.Data.List.Basic
/-!
Fields of packets read back.  `r.Yields bytes a` says that a reading takes exactly `bytes` from the
front of whatever it is given and returns `a`; it is closed under sequencing, so a packet is read
back field by field.
-/

set_option autoImplicit false
set_option relaxedAutoImplicit false

namespace WorkBroker

theorem Bytes.toNat_ofNat_of_lt {width n : Nat} (h : n < Bytes.valueCount width) :
    Bytes.toNat (Bytes.ofNat width n) = n := by
  rw [Bytes.toNat_ofNat, Nat.mod_eq_of_lt h]

namespace Reader

variable {α β : Type} {r : Reader α} {a : α} {b : β} {bytes more : Bytes}

/-- In front of any bytes, a reading takes exactly these and returns that. -/
def Yields (r : Reader α) (bytes : Bytes) (a : α) : Prop :=
  ∀ rest, r.run (bytes ++ rest) = .ok (a, rest)

theorem Yields.of_pure (a : α) : Yields (pure a) [] a := fun _ => rfl

theorem Yields.bind {k : α → Reader β} (first : r.Yields bytes a) (next : (k a).Yields more b) :
    (r >>= k).Yields (bytes ++ more) b := by
  intro rest
  have step : (r >>= k).run (bytes ++ (more ++ rest)) =
      (r.run (bytes ++ (more ++ rest)) >>= fun p => (k p.1).run p.2) := rfl
  rw [List.append_assoc, step, first]
  exact next rest

theorem Yields.last {k : α → Reader β} (first : r.Yields bytes a) (next : k a = pure b) :
    (r >>= k).Yields bytes b := by
  have stop : (k a).Yields [] b := by
    rw [next]
    exact .of_pure b
  have both := first.bind stop
  rwa [List.append_nil] at both

private theorem Yields.map (f : α → β) (first : r.Yields bytes a) :
    (do return f (← r)).Yields bytes (f a) := first.last rfl

theorem yields_take (field : String) {size : Nat} (h : bytes.length = size) :
    (take field size).Yields bytes bytes := by
  intro rest
  have enough : ¬(bytes ++ rest).length < size := by
    rw [List.length_append]
    omega
  have read : (take field size).run (bytes ++ rest) =
      (if (bytes ++ rest).length < size then
        malformed (.truncated field size (bytes ++ rest).length)
      else do
        set ((bytes ++ rest).drop size)
        return (bytes ++ rest).take size : Reader Bytes).run (bytes ++ rest) := rfl
  rw [read, if_neg enough, List.take_left' h, List.drop_left' h]
  rfl

private theorem yields_number (field : String) (width : Nat) {n : Nat}
    (h : n < Bytes.valueCount width) :
    (number field width).Yields (Bytes.ofNat width n) n := by
  have read := (yields_take field (Bytes.length_ofNat width n)).map Bytes.toNat
  rwa [Bytes.toNat_ofNat_of_lt h] at read

theorem yields_uint8 (field : String) (n : UInt8) : (uint8 field).Yields [n] n := by
  have read := (yields_number field 1 n.toNat_lt).map UInt8.ofNat
  have one : Bytes.ofNat 1 n.toNat = [n] := by
    simp [Bytes.ofNat, Bytes.valueCount, Nat.mod_eq_of_lt n.toNat_lt]
  rwa [one, UInt8.ofNat_toNat] at read

theorem yields_uint16 (field : String) {n : Nat} (h : n < 65536) :
    (uint16 field).Yields (Bytes.ofNat 2 n) (UInt16.ofNat n) :=
  (yields_number field 2 h).map UInt16.ofNat

theorem yields_uint32 (field : String) (n : UInt32) :
    (uint32 field).Yields (PacketCodec.word32 n) n := by
  have read := (yields_number field 4 n.toNat_lt).map UInt32.ofNat
  rwa [UInt32.ofNat_toNat] at read

theorem yields_uint64 (field : String) (n : UInt64) :
    (uint64 field).Yields (PacketCodec.word64 n) n := by
  have read := (yields_number field 8 n.toNat_lt).map UInt64.ofNat
  rwa [UInt64.ofNat_toNat] at read

theorem yields_flag (field : String) (b : Bool) : (flag field).Yields (PacketCodec.flag b) b := by
  cases b with
  | false => exact (yields_uint8 field 0).last rfl
  | true => exact (yields_uint8 field 1).last rfl

theorem yields_text (field : String) {s : String} (h : Bytes.sizeOfText s < 65536) :
    (text field).Yields (PacketCodec.text s) s := by
  refine (yields_uint16 field h).bind ?_
  have size : (UInt16.ofNat (Bytes.sizeOfText s)).toNat = Bytes.sizeOfText s :=
    UInt16.toNat_ofNat_of_lt' h
  refine (yields_take field ((Bytes.length_ofText s).trans size.symm)).last ?_
  rw [Bytes.toText?_ofText]

theorem Yields.of_ok {x : Except CodecError α} (h : x = .ok a) : Yields (liftM x) [] a := by
  subst h
  exact fun _ => rfl

end Reader

section Ids

variable {field id : String} {mayBeEmpty : Bool} {ids : List String}

theorem size_le_of_checkId (ok : checkId field id mayBeEmpty = .ok ()) :
    Bytes.sizeOfText id ≤ maxIdSize := by
  rw [checkId] at ok
  split_ifs at ok with empty long
  exact Nat.le_of_not_lt long

theorem ok_of_bind {ε α : Type} {x : Except ε Unit} {next : Unit → Except ε α} {a : α}
    (h : (x >>= next) = .ok a) : x = .ok () ∧ next () = .ok a := by
  cases x with
  | error e => cases h
  | ok _ => exact ⟨rfl, h⟩

private theorem forM_checkId (ok : (ids.forM fun id => checkId field id mayBeEmpty) = .ok ()) :
    ∀ id ∈ ids, checkId field id mayBeEmpty = .ok () := by
  induction ids with
  | nil => simp
  | cons id ids ih =>
    obtain ⟨first, others⟩ := ok_of_bind ok
    exact List.forall_mem_cons.mpr ⟨first, ih others⟩

namespace PacketCodec

theorem ok_of_checkIds (ok : checkIds ids = .ok ()) :
    ids.length ≤ maxIds ∧ ∀ id ∈ ids, checkId "message id" id false = .ok () := by
  rw [checkIds] at ok
  split_ifs at ok with many
  exact ⟨Nat.le_of_not_lt many, forM_checkId ok⟩

theorem length_text (s : String) : (text s).length = 2 + Bytes.sizeOfText s := by
  rw [text, List.length_append, Bytes.length_ofNat, Bytes.length_ofText]

theorem length_texts_le (short : ∀ id ∈ ids, Bytes.sizeOfText id ≤ maxIdSize) :
    (texts ids).length ≤ 2 + (2 + maxIdSize) * ids.length := by
  rw [texts, List.length_append, Bytes.length_ofNat]
  refine Nat.add_le_add_left ?_ 2
  induction ids with
  | nil => exact Nat.le_refl _
  | cons id ids ih =>
    obtain ⟨first, others⟩ := List.forall_mem_cons.mp short
    have rest := ih others
    simp only [List.map_cons, List.flatten_cons, List.length_append, length_text, List.length_cons,
      Nat.mul_succ]
    omega

end PacketCodec

namespace Reader

theorem yields_id (ok : checkId field id mayBeEmpty = .ok ()) :
    (Reader.id field mayBeEmpty).Yields (PacketCodec.text id) id := by
  have short : Bytes.sizeOfText id < 65536 :=
    Nat.lt_of_le_of_lt (size_le_of_checkId ok) (by decide)
  have read : (Reader.id field mayBeEmpty).Yields (PacketCodec.text id ++ []) id :=
    (yields_text field short).bind ((Yields.of_ok ok).last rfl)
  rwa [List.append_nil] at read

private theorem yields_messageIds (ok : ∀ id ∈ ids, checkId "message id" id false = .ok ()) :
    (messageIds ids.length).Yields (ids.map PacketCodec.text).flatten ids := by
  induction ids with
  | nil => exact .of_pure []
  | cons id ids ih =>
    obtain ⟨first, others⟩ := List.forall_mem_cons.mp ok
    exact (yields_id first).bind ((ih others).map (id :: ·))

theorem yields_idList (ok : PacketCodec.checkIds ids = .ok ()) :
    idList.Yields (PacketCodec.texts ids) ids := by
  obtain ⟨few, all⟩ := PacketCodec.ok_of_checkIds ok
  have small : ids.length < 65536 := Nat.lt_of_le_of_lt few (by decide)
  refine (yields_uint16 _ small).bind ?_
  rw [UInt16.toNat_ofNat_of_lt' small, if_neg (Nat.not_lt_of_le few)]
  exact yields_messageIds all

end Reader

end Ids

namespace FrameCodec

theorem declaredLength_append {n : Nat} (h : n ≤ maxHeaderValue) (rest : Bytes) :
    declaredLength (Bytes.ofNat headerSize n ++ rest) = n := by
  rw [declaredLength, List.take_left' (Bytes.length_ofNat _ _), Bytes.toNat_ofNat_of_lt]
  simp only [maxHeaderValue] at h
  simp only [headerSize, Bytes.valueCount]
  omega

theorem decodeFrom_append {c : FrameCodec} {payload : Bytes} (h : payload.length ≤ c.limit)
    (rest : Bytes) :
    c.decodeFrom (Bytes.ofNat headerSize payload.length ++ payload ++ rest) =
      .ok (payload, rest) := by
  have header : (Bytes.ofNat headerSize payload.length).length = headerSize :=
    Bytes.length_ofNat _ _
  have declared : declaredLength (Bytes.ofNat headerSize payload.length ++ (payload ++ rest)) =
      payload.length := declaredLength_append (Nat.le_trans h c.limit_le) _
  have long :
      ¬(Bytes.ofNat headerSize payload.length ++ (payload ++ rest)).length < headerSize := by
    rw [List.length_append, header]
    omega
  have whole : ¬(payload ++ rest).length < payload.length := by
    rw [List.length_append]
    omega
  rw [List.append_assoc]
  simp only [decodeFrom, checkDeclared, declared, List.drop_left' header, if_neg long,
    if_neg (Nat.not_lt_of_le h), if_neg whole, List.take_left, List.drop_left]
  rfl

end FrameCodec
end WorkBroker
