import WorkBroker.Bytes
import WorkBroker.Wire.Error
/-!
Frames: a payload behind its length in four big-endian bytes.  A codec holds every payload to a
limit that the header can express.  Reading comes in two forms, from a buffer that must hold the
whole frame and from one that may still grow.
-/

set_option autoImplicit false
set_option relaxedAutoImplicit false

namespace WorkBroker

def maxHeaderValue : Nat := 4294967295

/-- Frames with payloads of at most `limit` bytes. -/
structure FrameCodec where
  limit : Nat
  limit_le : limit ≤ maxHeaderValue

namespace FrameCodec

/-- The codec for payloads of at most `n` bytes, or of as many as a header can express. -/
def ofLimit (n : Nat) : FrameCodec := ⟨min n maxHeaderValue, Nat.min_le_right n maxHeaderValue⟩

def checkSize (c : FrameCodec) (size : Nat) : Except CodecError Unit :=
  if size > c.limit then .error (.oversize size c.limit) else .ok ()

def encode (c : FrameCodec) (payload : Bytes) : Except CodecError Bytes := do
  c.checkSize payload.length
  return Bytes.ofNat headerSize payload.length ++ payload

def encodeInto (c : FrameCodec) (payload buffer : Bytes) : Except CodecError Bytes := do
  return buffer ++ (← c.encode payload)

def checkDeclared (c : FrameCodec) (declared : Nat) : Except CodecError Unit :=
  if declared > c.limit then .error (.malformed (.declaredTooLong declared c.limit)) else .ok ()

def declaredLength (buffer : Bytes) : Nat := Bytes.toNat (buffer.take headerSize)

def decodeFrom (c : FrameCodec) (buffer : Bytes) : Except CodecError (Bytes × Bytes) := do
  if buffer.length < headerSize then
    throw (.malformed (.headerTooShort buffer.length))
  let declared := declaredLength buffer
  let rest := buffer.drop headerSize
  c.checkDeclared declared
  if rest.length < declared then
    throw (.malformed (.payloadTooShort declared rest.length))
  return (rest.take declared, rest.drop declared)

def leftAfter (c : FrameCodec) (buffer : Bytes) : Bytes :=
  match c.decodeFrom buffer with
  | .ok (_, rest) => rest
  | .error _ => if buffer.length < headerSize then buffer else buffer.drop headerSize

def decode (c : FrameCodec) (frame : Bytes) : Except CodecError Bytes := do
  let (payload, rest) ← c.decodeFrom frame
  if rest.isEmpty then return payload
  else throw (.malformed (.bytesAfterFrame rest.length))

/-- The payload of the next frame of a growing buffer and what follows it, or nothing while the
frame is incomplete. -/
def decodeStream (c : FrameCodec) (buffer : Bytes) : Except CodecError (Option (Bytes × Bytes)) := do
  if buffer.length < headerSize then return none
  let declared := declaredLength buffer
  c.checkDeclared declared
  if buffer.length < headerSize + declared then return none
  let rest := buffer.drop headerSize
  return some (rest.take declared, rest.drop declared)

end FrameCodec
end WorkBroker
