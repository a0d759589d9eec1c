import Mathlib.Data.Nat.Digits.Defs
import Mathlib.Data.String.Basic
import WorkBroker.Proofs.Client.RoundTrip
import WorkBroker.Proofs.Client.Terms
import WorkBroker.Proofs.Wire.Writable
/-!
The ids of a script's messages.  An id is the client's name with two numbers behind it, so it is
longer than the name, and the codec has one bound for both: a name that leaves room for the numbers
gives valid ids only, and a name at the bound gives none.
-/

set_option autoImplicit false
set_option relaxedAutoImplicit false

namespace WorkBroker

namespace Bytes

private theorem utf8Len_of_digits {text : List Char} (digits : ∀ c ∈ text, c.isDigit) :
    String.utf8Len text = text.length := by
  induction text with
  | nil => rfl
  | cons c rest ih =>
    obtain ⟨first, others⟩ := List.forall_mem_cons.mp digits
    have small : c.val ≤ 57 := (Bool.and_eq_true_iff.mp first).2 |> of_decide_eq_true
    have single : c.utf8Size = 1 := Char.utf8Size_eq_one_iff.mpr (UInt32.le_trans small (by decide))
    rw [String.utf8Len_cons, ih others, single, List.length_cons]

private theorem sizeOfText_repr (n : Nat) : sizeOfText (Nat.repr n) = (Nat.repr n).length := by
  rw [sizeOfText, ← String.utf8Len_toList, ← String.length_toList, Nat.toList_repr]
  exact utf8Len_of_digits fun c => Nat.isDigit_of_mem_toDigits (by decide) (by decide)

private theorem length_repr_pos (n : Nat) : 0 < (Nat.repr n).length := by
  rw [← String.length_toList, Nat.toList_repr]
  exact List.length_pos_of_ne_nil Nat.toDigits_ne_nil

end Bytes

namespace Script

variable {s : Script} {config : ClientConfig}

def idSize (config : ClientConfig) (process index : Nat) : Nat :=
  Bytes.sizeOfText config.name + (Nat.repr process).length + (Nat.repr index).length + 2

private theorem sizeOfText_messageId (config : ClientConfig) (process index : Nat) :
    Bytes.sizeOfText (messageId config.name (toString process) index) =
      idSize config process index := by
  have parts : messageId config.name (toString process) index =
      config.name ++ "-" ++ Nat.repr process ++ "-" ++ Nat.repr index := rfl
  have dash : Bytes.sizeOfText "-" = 1 := by decide
  rw [parts, Bytes.sizeOfText_append, Bytes.sizeOfText_append, Bytes.sizeOfText_append,
    Bytes.sizeOfText_append, Bytes.sizeOfText_repr, Bytes.sizeOfText_repr, dash, idSize]
  omega

private theorem le_idSize (config : ClientConfig) (process index : Nat) :
    Bytes.sizeOfText config.name + 4 ≤ idSize config process index := by
  have first := Bytes.length_repr_pos process
  have second := Bytes.length_repr_pos index
  rw [idSize]
  omega

private theorem idSize_le (config : ClientConfig) (process : UInt32) (index : UInt64) :
    idSize config process.toNat index.toNat ≤ Bytes.sizeOfText config.name + 32 := by
  have first : (Nat.repr process.toNat).length ≤ 10 :=
    Nat.repr_length _ 10 (by decide) (Nat.lt_trans process.toNat_lt (by decide))
  have second : (Nat.repr index.toNat).length ≤ 20 :=
    Nat.repr_length _ 20 (by decide) (Nat.lt_trans index.toNat_lt (by decide))
  rw [idSize]
  omega

private theorem checkId_messageId (config : ClientConfig) (process index : Nat) :
    checkId "message id" (messageId config.name (toString process) index) false =
      if idSize config process index ≤ maxIdSize then .ok ()
      else .error (.malformed (.longId "message id" (idSize config process index))) := by
  have size := sizeOfText_messageId config process index
  have named : (messageId config.name (toString process) index).isEmpty = false := by
    rw [Bool.eq_false_iff, ne_eq, String.isEmpty_iff_utf8ByteSize_eq_zero]
    intro empty
    have none_left : idSize config process index = 0 := size.symm.trans empty
    have large := le_idSize config process index
    omega
  rw [checkId, named, size, if_neg (by decide)]
  by_cases fits : idSize config process index ≤ maxIdSize
  · rw [if_pos fits, if_neg (Nat.not_lt_of_le fits)]
  · rw [if_neg fits, if_pos (Nat.lt_of_not_le fits)]

section Encoding

variable {process index : Nat}

private theorem encode_of_long (c : Connection) (s : Script)
    (long : maxIdSize < idSize config process index) :
    c.encode (s.record config.name (toString process) index).toPacket =
      (.error (.malformed (.longId "message id" (idSize config process index))),
        { c with state := .closing }) := by
  have refused := checkId_messageId config process index
  rw [if_neg (Nat.not_le_of_lt long)] at refused
  rw [Connection.encode, record, PushRecord.toPacket, PacketCodec.encode, PacketCodec.validate,
    refused]
  rfl

private theorem encode_of_short (c : Connection) (s : Script)
    (short : idSize config process index ≤ maxIdSize) (cause : Malformation) :
    (c.encode (s.record config.name (toString process) index).toPacket).1 ≠
      .error (.malformed cause) := by
  have named := checkId_messageId config process index
  rw [if_pos short] at named
  set p := (s.record config.name (toString process) index).toPacket with hp
  have valid : c.codec.validate p = c.codec.frame.checkSize (payloadFor index s.size).length := by
    rw [hp, record, PushRecord.toPacket, PacketCodec.validate, named]
    rfl
  by_cases large : c.codec.frame.limit < (payloadFor index s.size).length
  · have refused : c.codec.encode p =
        .error (.oversize (payloadFor index s.size).length c.codec.frame.limit) := by
      rw [PacketCodec.encode, valid, FrameCodec.checkSize, if_pos large]
      rfl
    rw [Connection.encode, refused]
    intro malformed
    cases malformed
  · rw [FrameCodec.checkSize, if_neg large] at valid
    obtain ⟨-, bytes, written⟩ := PacketCodec.writes_of_validate valid
    rw [Connection.encode, written]
    intro malformed
    cases malformed

end Encoding

/-- The codec takes the id of a message exactly if it has at most 255 bytes, and a push with a
longer one is refused as malformed before anything is sent.  That depends on the name alone where it
is so short that every number fits behind it, or so long that none does.  Different messages of a
script have different ids. -/
theorem push_malformed_iff_long (config : ClientConfig) (s : Script) (process : UInt32) :
    let name := Bytes.sizeOfText config.name
    let size := idSize config process.toNat
    let id := messageId config.name (toString process.toNat)
    let push := fun index => (s.record config.name (toString process.toNat) index).toPacket
    (∀ index, Bytes.sizeOfText (id index) = size index ∧
      checkId "message id" (id index) false =
        if size index ≤ 255 then .ok ()
        else .error (.malformed (.longId "message id" (size index)))) ∧
    (∀ (c : Connection) index cause, (c.encode (push index)).1 = .error (.malformed cause) ↔
      255 < size index ∧ cause = .longId "message id" (size index)) ∧
    (∀ (b : BrokerConnection) limit index, b.isOpen → 255 < size index →
      b.requestWithin (push index) limit =
        .done (.error (.connection (.malformed (.longId "message id" (size index)))),
          { b with connection := { b.connection with state := .closing } })) ∧
    (∀ index : UInt64, size index.toNat ≤ name + 32) ∧
    (∀ index, name + 4 ≤ size index) ∧
    Function.Injective id := by
  intro name size id push
  refine ⟨fun index => ⟨sizeOfText_messageId config _ index, checkId_messageId config _ index⟩,
    fun c index cause => ⟨fun malformed => ?_, ?_⟩, fun b limit index isOpen long => ?_,
    idSize_le config process, le_idSize config _, messageId_injective config.name _⟩
  · by_cases short : size index ≤ 255
    · exact absurd malformed (encode_of_short c s short cause)
    · have long : 255 < size index := Nat.lt_of_not_le short
      have refused := congrArg Prod.fst (encode_of_long c s long)
      rw [malformed] at refused
      cases refused
      exact ⟨long, rfl⟩
  · rintro ⟨long, rfl⟩
    exact congrArg Prod.fst (encode_of_long c s long)
  · exact BrokerConnection.requestWithin_of_encode isOpen (encode_of_long b.connection s long) limit

/-- A client whose name has as many bytes as a name may have. -/
def longNamed : ClientConfig := { clientId := some (String.ofList (List.replicate 255 'c')) }

def openConnection : BrokerConnection where
  broker := "127.0.0.1:9092"
  connection := { Connection.ofLink 1 "127.0.0.1:9092" 3 1048576 with state := .open }
  welcome := ⟨1, 1048576, 2⟩
  requestTimeout := Duration.ofMillis 30000

private theorem idSize_longNamed : idSize longNamed (1 : UInt32).toNat 0 = 259 := by decide +kernel

/-- The first message of such a client costs it its connection. -/
theorem push_of_longNamed_is_malformed :
    openConnection.isOpen ∧ 255 < idSize longNamed (1 : UInt32).toNat 0 ∧
    openConnection.requestWithin
        (({} : Script).record longNamed.name (toString (1 : UInt32).toNat) 0).toPacket
        (Duration.ofMillis 30000) =
      .done (.error (.connection (.malformed (.longId "message id" 259))),
        { openConnection with
          connection := { openConnection.connection with state := .closing } }) := by
  have isOpen : openConnection.isOpen := rfl
  have long : 255 < idSize longNamed (1 : UInt32).toNat 0 := by
    rw [idSize_longNamed]
    decide
  refine ⟨isOpen, long, ?_⟩
  have refused := (push_malformed_iff_long longNamed {} 1).2.2.1 openConnection
    (Duration.ofMillis 30000) 0 isOpen long
  rwa [idSize_longNamed] at refused

/-- A set-up is accepted whose script has a message that no codec takes. -/
theorem valid_config_with_malformed_id :
    longNamed.validate = .ok () ∧ 0 < ({} : Script).messages ∧
    checkId "message id" (messageId longNamed.name (toString 1) 0) false =
      .error (.malformed (.longId "message id" 259)) := by
  have faultless : longNamed.fault? = none := by decide +kernel
  refine ⟨?_, by decide, ?_⟩
  · rw [ClientConfig.validate, faultless]
  · have size : idSize longNamed 1 0 = 259 := idSize_longNamed
    rw [checkId_messageId, size]
    rfl

end Script
end WorkBroker
