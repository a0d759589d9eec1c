import WorkBroker.Wire.Frame
import WorkBroker.Wire.Packet
import WorkBroker.Wire.Reader
/-!
Packets as bytes.  A transport frame is the length of a body in four bytes and the body: a type
byte and the packet's fields.  Numbers are big-endian, texts stand behind their size in two bytes,
and a payload is a frame of its own.  Payloads that are written are held to the message limit;
payloads that are read only to the frame limit, so that a payload above the message limit is still
read and can be refused by name.
-/

set_option autoImplicit false
set_option relaxedAutoImplicit false

namespace WorkBroker

/-- The room for the fields around the largest payload. -/
def envelopeRoom : Nat := 65536

/-- A packet codec: `frame` holds payloads that are written to the message limit. -/
structure PacketCodec where
  frame : FrameCodec

namespace PacketCodec

def ofLimit (n : Nat) : PacketCodec := ⟨FrameCodec.ofLimit n⟩

def maxMessageSize (c : PacketCodec) : Nat := c.frame.limit

def maxFrameSize (c : PacketCodec) : Nat := c.frame.limit + envelopeRoom

/-- The frames of payloads that are read. -/
def envelope (c : PacketCodec) : FrameCodec := FrameCodec.ofLimit c.maxFrameSize

def checkIds (ids : List String) : Except CodecError Unit :=
  if ids.length > maxIds then .error (.malformed (.tooManyIds ids.length))
  else ids.forM fun id => checkId "message id" id false

def validate (c : PacketCodec) : Packet → Except CodecError Unit
  | .hello _ clientId => checkId "client id" clientId true
  | .push id _ _ payload | .deliver id _ _ payload => do
    checkId "message id" id false
    c.frame.checkSize payload.length
  | .ack id _ _ _ | .ackPop id _ _ _ _ | .accepted id | .acked id => checkId "message id" id false
  | .eraseFailed ids | .erased ids | .failed ids _ => checkIds ids
  | .error _ message =>
    if Bytes.sizeOfText message > maxErrorMessage then .error (.malformed .longErrorMessage)
    else .ok ()
  | .pop _ | .count | .listFailed _ | .goodbye | .welcome _ | .rejected _ | .empty
  | .counts _ _ _ _ => .ok ()

def text (s : String) : Bytes := Bytes.ofNat 2 (Bytes.sizeOfText s) ++ Bytes.ofText s

def texts (ids : List String) : Bytes := Bytes.ofNat 2 ids.length ++ (ids.map text).flatten

def flag (b : Bool) : Bytes := [if b then 1 else 0]

def word32 (n : UInt32) : Bytes := Bytes.ofNat 4 n.toNat

def word64 (n : UInt64) : Bytes := Bytes.ofNat 8 n.toNat

/-- The fields of a packet that stand in front of its payload, if it has one. -/
def fields : Packet → Bytes
  | .hello role clientId => role.toByte :: text clientId
  | .push id priority delayMs _ => text id ++ priority :: word32 delayMs
  | .pop waitMs => word32 waitMs
  | .ack id token requeue delayMs => text id ++ word64 token ++ flag requeue ++ word32 delayMs
  | .ackPop id token requeue delayMs waitMs =>
    text id ++ word64 token ++ flag requeue ++ word32 delayMs ++ word32 waitMs
  | .listFailed limit => word32 limit
  | .eraseFailed ids | .erased ids => texts ids
  | .welcome terms =>
    word64 terms.connectionId ++ word32 terms.maxMessageSize ++ word32 terms.maxRetries
  | .rejected reason => [reason.toByte]
  | .accepted id | .acked id => text id
  | .deliver id token attempt _ => text id ++ word64 token ++ word32 attempt
  | .counts capacity active failed free =>
    word64 capacity ++ word64 active ++ word64 failed ++ word64 free
  | .failed ids truncated => texts ids ++ flag truncated
  | .error code message => Bytes.ofNat 2 code.toUInt16.toNat ++ text message
  | .count | .goodbye | .empty => []

def payload? : Packet → Option Bytes
  | .push _ _ _ payload | .deliver _ _ _ payload => some payload
  | _ => none

/-- The body of a packet: its type byte, its fields and the frame of its payload. -/
def writeBody (c : PacketCodec) (p : Packet) : Except CodecError Bytes := do
  let head := p.typeByte :: fields p
  match payload? p with
  | none => return head
  | some payload => return head ++ (← c.frame.encode payload)

def encode (c : PacketCodec) (p : Packet) : Except CodecError Bytes := do
  c.validate p
  let body ← c.writeBody p
  if body.length > c.maxFrameSize then throw (.oversize body.length c.maxFrameSize)
  return Bytes.ofNat headerSize body.length ++ body

def encodeInto (c : PacketCodec) (p : Packet) (buffer : Bytes) : Except CodecError Bytes := do
  return buffer ++ (← c.encode p)

def readRole : Reader Role := do
  let b ← Reader.uint8 "role"
  match Role.ofByte? b with
  | some role => return role
  | none => Reader.malformed (.unknownRole b.toNat)

def readReason : Reader RejectReason := do
  let b ← Reader.uint8 "reason"
  match RejectReason.ofByte? b with
  | some reason => return reason
  | none => Reader.malformed (.unknownRejectReason b.toNat)

def readPayload (c : PacketCodec) : Reader Bytes := do
  let (payload, rest) ← c.envelope.decodeFrom (← get)
  set rest
  return payload

def readFields (c : PacketCodec) (typeByte : UInt8) : Reader Packet := do
  match typeByte.toNat with
  | 0x01 => return .hello (← readRole) (← Reader.clientId)
  | 0x02 =>
    return .push (← Reader.messageId) (← Reader.uint8 "priority") (← Reader.uint32 "delay")
      (← readPayload c)
  | 0x03 => return .pop (← Reader.uint32 "wait")
  | 0x04 =>
    return .ack (← Reader.messageId) (← Reader.uint64 "token") (← Reader.flag "requeue")
      (← Reader.uint32 "delay")
  | 0x05 => return .count
  | 0x06 => return .listFailed (← Reader.uint32 "limit")
  | 0x07 => return .eraseFailed (← Reader.idList)
  | 0x08 => return .goodbye
  | 0x09 =>
    return .ackPop (← Reader.messageId) (← Reader.uint64 "token") (← Reader.flag "requeue")
      (← Reader.uint32 "delay") (← Reader.uint32 "wait")
  | 0x81 =>
    return .welcome ⟨← Reader.uint64 "connection id", ← Reader.uint32 "max message size",
      ← Reader.uint32 "max retries"⟩
  | 0x82 => return .rejected (← readReason)
  | 0x83 => return .accepted (← Reader.messageId)
  | 0x84 =>
    return .deliver (← Reader.messageId) (← Reader.uint64 "token") (← Reader.uint32 "attempt")
      (← readPayload c)
  | 0x85 => return .empty
  | 0x86 => return .acked (← Reader.messageId)
  | 0x87 =>
    return .counts (← Reader.uint64 "capacity") (← Reader.uint64 "active")
      (← Reader.uint64 "failed") (← Reader.uint64 "free")
  | 0x88 => return .failed (← Reader.idList) (← Reader.flag "truncated")
  | 0x89 => return .erased (← Reader.idList)
  | 0x8a =>
    return .error (ErrorCode.ofUInt16 (← Reader.uint16 "error code")) (← Reader.text "error message")
  | _ => Reader.malformed (.unknownPacketType typeByte)

def decodeBody (c : PacketCodec) (body : Bytes) : Except CodecError Packet := do
  let read : Reader Packet := do c.readFields (← Reader.uint8 "packet type")
  let (p, rest) ← read.run body
  if rest.isEmpty then return p
  else throw (.malformed (.bytesAfterPacket rest.length p.kind))

inductive Scan
  /-- The next frame is not complete. -/
  | incomplete
  /-- The header declares more than a frame may hold; no byte is taken. -/
  | tooLong (declared : Nat)
  /-- A whole frame, taken from the buffer, and what it says. -/
  | frame (result : Except CodecError Packet) (rest : Bytes)

def scan (c : PacketCodec) (buffer : Bytes) : Scan :=
  if buffer.length < headerSize then .incomplete
  else
    let declared := FrameCodec.declaredLength buffer
    if declared > c.maxFrameSize then .tooLong declared
    else
      let rest := buffer.drop headerSize
      if rest.length < declared then .incomplete
      else .frame (c.decodeBody (rest.take declared)) (rest.drop declared)

theorem length_lt_of_scan_eq_incomplete {c : PacketCodec} {buffer : Bytes}
    (h : c.scan buffer = .incomplete) : buffer.length < headerSize + c.maxFrameSize := by
  unfold scan at h
  by_cases hshort : buffer.length < headerSize
  · omega
  · rw [if_neg hshort] at h
    by_cases hlong : FrameCodec.declaredLength buffer > c.maxFrameSize
    · simp [hlong] at h
    · by_cases hrest : (buffer.drop headerSize).length < FrameCodec.declaredLength buffer
      · rw [List.length_drop] at hrest
        omega
      · simp only [hlong, hrest, if_false] at h
        contradiction

/-- How many bytes a frame whose header has come lacks. -/
def missing (buffer : Bytes) : Nat :=
  if buffer.length < headerSize then 0
  else headerSize + FrameCodec.declaredLength buffer - buffer.length

/-- How many bytes to read next to get a frame and nothing else: what its header lacks, and then what
the rest lacks. -/
def needed (buffer : Bytes) : Nat :=
  if buffer.length < headerSize then headerSize - buffer.length else missing buffer

/-- The next packet of a growing buffer, if its frame is complete, and the buffer that is left.  A
frame with a malformed body is taken from the buffer, a frame above the limit is not. -/
def decode (c : PacketCodec) (buffer : Bytes) : Except CodecError (Option Packet) × Bytes :=
  match c.scan buffer with
  | .incomplete => (.ok none, buffer)
  | .tooLong declared => (.error (.malformed (.frameTooLong declared c.maxFrameSize)), buffer)
  | .frame result rest => (result.map some, rest)

end PacketCodec
end WorkBroker
