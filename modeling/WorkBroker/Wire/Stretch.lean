import WorkBroker.Wire.PacketCodec
/-!
Bytes that end in a long run of one byte.  A header can express a length of four gigabytes, and a
list of as many bytes is more than can be held.  A payload that is a run of one byte is kept as the
byte and its count instead, and packets that carry it are written and read in this form.
-/

set_option autoImplicit false
set_option relaxedAutoImplicit false

namespace WorkBroker

/-- Some bytes, and behind them a run of one byte that is not written out. -/
structure Stretch where
  front : Bytes
  byte : UInt8
  count : Nat
  deriving DecidableEq

namespace Stretch

def ofBytes (bytes : Bytes) : Stretch := ⟨bytes, 0, 0⟩

def toBytes (s : Stretch) : Bytes := s.front ++ List.replicate s.count s.byte

def length (s : Stretch) : Nat := s.front.length + s.count

def behind (bytes : Bytes) (s : Stretch) : Stretch := { s with front := bytes ++ s.front }

/-- Puts a stretch in front, whose own run has to be written out for this. -/
def append (s t : Stretch) : Stretch := t.behind s.toBytes

def take (n : Nat) (s : Stretch) : Bytes :=
  s.front.take n ++ List.replicate (min (n - s.front.length) s.count) s.byte

def drop (n : Nat) (s : Stretch) : Stretch :=
  ⟨s.front.drop n, s.byte, s.count - (n - s.front.length)⟩

end Stretch

/-- A packet with another payload, if it carries one. -/
def Packet.withPayload (payload : Bytes) : Packet → Packet
  | .push id priority delayMs _ => .push id priority delayMs payload
  | .deliver id token attempt _ => .deliver id token attempt payload
  | p => p

namespace PacketCodec

def encodeLong (c : PacketCodec) (p : Packet) (payload : Stretch) : Except CodecError Stretch := do
  if (payload? p).isNone then return .ofBytes (← c.encode p)
  c.validate (p.withPayload [])
  c.frame.checkSize payload.length
  let head := p.typeByte :: fields p ++ Bytes.ofNat headerSize payload.length
  let length := head.length + payload.length
  if length > c.maxFrameSize then throw (.oversize length c.maxFrameSize)
  return payload.behind (Bytes.ofNat headerSize length ++ head)

def decodeLong (c : PacketCodec) (buffer : Stretch) : Except CodecError (Option Packet) × Stretch :=
  if buffer.length < headerSize then (.ok none, buffer)
  else
    let declared := Bytes.toNat (buffer.take headerSize)
    if declared > c.maxFrameSize then
      (.error (.malformed (.frameTooLong declared c.maxFrameSize)), buffer)
    else
      let rest := buffer.drop headerSize
      if rest.length < declared then (.ok none, buffer)
      else ((c.decodeBody (rest.take declared)).map some, rest.drop declared)

end PacketCodec
end WorkBroker
