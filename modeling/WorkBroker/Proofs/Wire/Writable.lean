import WorkBroker.Proofs.Text.Boundary
import WorkBroker.Proofs.Wire.Grammar
/-!
Packets that a codec writes, and why a broker's replies are among them.  Ids come from packets that
were read, so they are valid; lists of them are no longer than a packet may carry; payloads are held
to the message limit before they get anywhere; and the text of an error is cut to size.
-/

set_option autoImplicit false
set_option relaxedAutoImplicit false

namespace WorkBroker

theorem Packet.isLongestWithin_cutMessage (message : String) :
    Text.IsLongestWithin maxErrorMessage message (cutMessage message) := by
  rw [cutMessage]
  split_ifs with short
  · exact Text.isLongestWithin_self short
  · exact Text.isLongestWithin_cutAt message maxErrorMessage

private theorem Packet.sizeOfText_cutMessage_le (message : String) :
    Bytes.sizeOfText (Packet.cutMessage message) ≤ maxErrorMessage :=
  (isLongestWithin_cutMessage message).size_le

namespace PacketCodec

variable {c : PacketCodec} {p : Packet} {id : String} {ids : List String} {payload : Bytes}

def Writes (c : PacketCodec) (p : Packet) : Prop :=
  c.validate p = .ok () ∧ ∃ bytes, c.encode p = .ok bytes

/-- Everything that is valid is written. -/
theorem writes_of_validate (ok : c.validate p = .ok ()) : c.Writes p := by
  have written := encodeInto_eq ok []
  rw [encodeInto] at written
  cases encoded : c.encode p with
  | error e =>
    rw [encoded] at written
    cases written
  | ok bytes => exact ⟨ok, bytes, encoded⟩

theorem writes_ofError (c : PacketCodec) (code : ErrorCode) (message : String) :
    c.Writes (Packet.ofError code message) := by
  refine writes_of_validate ?_
  have short := Packet.sizeOfText_cutMessage_le message
  rw [Packet.ofError, validate, if_neg (Nat.not_lt_of_le short)]

def Carries (c : PacketCodec) (id : String) (payload : Bytes) : Prop :=
  checkId "message id" id false = .ok () ∧ payload.length ≤ c.frame.limit

theorem writes_deliver (carries : c.Carries id payload) (token : UInt64) (attempt : UInt32) :
    c.Writes (.deliver id token attempt payload) := by
  refine writes_of_validate ?_
  obtain ⟨valid, small⟩ := carries
  have fits : c.frame.checkSize payload.length = .ok () := if_neg (Nat.not_lt_of_le small)
  rw [validate, valid]
  exact fits

theorem checkIds_eq_ok (few : ids.length ≤ maxIds)
    (all : ∀ id ∈ ids, checkId "message id" id false = .ok ()) : checkIds ids = .ok () := by
  rw [checkIds, if_neg (Nat.not_lt_of_le few)]
  exact Reader.forM_checkId_eq_ok all

theorem checkIds_of_sublist {more : List String} (sub : ids.Sublist more)
    (ok : checkIds more = .ok ()) : checkIds ids = .ok () := by
  obtain ⟨few, all⟩ := ok_of_checkIds ok
  exact checkIds_eq_ok (Nat.le_trans sub.length_le few) fun id hid => all id (sub.subset hid)

theorem checkId_of_admits_push {priority : UInt8} {delay : UInt32}
    (admits : c.Admits (.push id priority delay payload)) :
    checkId "message id" id false = .ok () := by
  cases checked : checkId "message id" id false with
  | ok _ => rfl
  | error e =>
    have invalid : c.validate (.push id priority delay payload) = .error e := by
      rw [validate, checked]
      rfl
    have malformed : ∃ cause, e = .malformed cause := by
      rw [checkId] at checked
      split_ifs at checked <;> exact ⟨_, (Except.error.inj checked).symm⟩
    obtain ⟨cause, rfl⟩ := malformed
    rcases admits with ok | ⟨x, -, -, oversize⟩ | ⟨code, message, same, -⟩
    · rw [invalid] at ok
      cases ok
    · rw [invalid] at oversize
      cases oversize
    · cases same

theorem validate_of_admits (admits : c.Admits p) (unpaid : payload? p = none)
    (sound : ∀ code message, p ≠ .error code message) : c.validate p = .ok () := by
  rcases admits with ok | ⟨x, paid, -⟩ | ⟨code, message, same, -⟩
  · exact ok
  · rw [unpaid] at paid
    cases paid
  · exact absurd same (sound code message)

end PacketCodec
end WorkBroker
