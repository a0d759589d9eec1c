import WorkBroker.Proofs.Wire.Appending
import WorkBroker.Proofs.Wire.Writable
/-!
The texts of errors.  A text that is too long for an error packet is cut where no character is torn,
and nothing more is taken away than has to be.  The packet is then one that every codec writes, and
every codec reads back: it has no payload, so limits on payloads do not matter.
-/

set_option autoImplicit false
set_option relaxedAutoImplicit false

namespace WorkBroker.PacketCodec

variable {c : PacketCodec} {p : Packet}

private theorem length_body_le_of_unpaid (ok : c.validate p = .ok ()) (unpaid : payload? p = none) :
    (body p).length ≤ envelopeRoom := by
  have room := length_fields_le ok
  rw [length_body, unpaid, Option.elim_none]
  omega

private theorem exists_frame_of_unpaid (ok : c.validate p = .ok ()) (unpaid : payload? p = none) :
    ∃ frame : Bytes, (∀ buffer, (c.append p).on buffer = (.ok (), buffer ++ frame)) ∧
      ∀ (r : PacketCodec) (rest : Bytes), r.decode (frame ++ rest) = (.ok (some p), rest) := by
  have small := length_body_le_of_unpaid ok unpaid
  refine ⟨Bytes.ofNat headerSize (body p).length ++ body p, ?_, ?_⟩
  · intro buffer
    rw [on_append, encodeInto_eq ok]
  · intro r rest
    have header : (body p).length ≤ maxHeaderValue := Nat.le_trans small (by decide)
    have fits : (body p).length ≤ r.maxFrameSize := Nat.le_trans small (Nat.le_add_left _ _)
    exact decode_packet ok header fits rest

/-- An error packet carries its text, or the longest beginning of it that there is room for.  Such a
beginning is found in at most three steps back from the longest size, and its bytes are a text.  The
packet is valid, and what any codec writes of it any codec reads back. -/
theorem error_text_is_cut_and_read (code : ErrorCode) (text : String) :
    ∃ kept : String, Packet.ofError code text = .error code kept ∧
      Text.IsLongestWithin maxErrorMessage text kept ∧
      (Bytes.sizeOfText text ≤ maxErrorMessage → kept = text) ∧
      (maxErrorMessage < Bytes.sizeOfText text →
        ∃ steps ≤ 3, Text.lastBoundary text maxErrorMessage = maxErrorMessage - steps ∧
          (∀ k < steps, ¬Text.IsBoundary text (maxErrorMessage - k)) ∧
          Text.IsBoundary text (maxErrorMessage - steps) ∧
          Bytes.toText? ((Bytes.ofText text).take (maxErrorMessage - steps)) = some kept ∧
          1021 ≤ Bytes.sizeOfText kept) ∧
      ∀ M N : Nat, (ofLimit M).validate (.error code kept) = .ok () ∧
        ∃ frame : Bytes,
          (∀ buffer, ((ofLimit M).append (.error code kept)).on buffer =
            (.ok (), buffer ++ frame)) ∧
          ∀ rest, (ofLimit N).decode (frame ++ rest) = (.ok (some (.error code kept)), rest) := by
  refine ⟨Packet.cutMessage text, rfl, Packet.isLongestWithin_cutMessage text, ?_, ?_, ?_⟩
  · intro short
    rw [Packet.cutMessage, if_pos short]
  · intro long
    have boundary := Text.isBoundary_lastBoundary text maxErrorMessage
    have cut : Packet.cutMessage text = Text.cutAt text _ boundary := if_neg (Nat.not_le_of_lt long)
    obtain ⟨rest, -, size⟩ := Text.cutAt_append_rest text _ boundary
    have bytes := Text.toText?_take text _ boundary
    rw [← cut] at size bytes
    obtain ⟨steps, few, -, reached, passed⟩ := Text.exists_steps (Nat.le_of_lt long)
    rw [reached] at boundary size bytes
    refine ⟨steps, few, reached, passed, boundary, bytes, ?_⟩
    rw [size, maxErrorMessage]
    omega
  · intro M N
    have valid := (writes_ofError (ofLimit M) code text).1
    obtain ⟨frame, written, read⟩ := exists_frame_of_unpaid valid rfl
    exact ⟨valid, frame, written, read (ofLimit N)⟩

end WorkBroker.PacketCodec
