import WorkBroker.Connection.Operations
/-!
An end of a link that follows no protocol: it writes whatever it is told to and reads packet by
packet.  Such ends stand in for misbehaving peers.
-/

set_option autoImplicit false
set_option relaxedAutoImplicit false

namespace WorkBroker.Net

structure RawEnd where
  link : Nat
  inbox : Bytes
  deriving Inhabited

namespace RawEnd

def limit : Nat := 16777216

def codec : PacketCodec := PacketCodec.ofLimit limit

def write (e : RawEnd) (bytes : Bytes) : Plan Bool := do
  match ← Connection.writeAll e.link bytes with
  | .ok () => return true
  | .error _ => return false

inductive Item
  | packet (p : Packet)
  | bad (error : CodecError)
  | ended (left : Bytes)
  deriving Inhabited

/-- Reads the next packet, and not a byte of what follows it. -/
def read (e : RawEnd) : Plan (Item × RawEnd) :=
  match _h : codec.scan e.inbox with
  | .frame (.ok p) rest => return (.packet p, { e with inbox := rest })
  | .frame (.error error) rest => return (.bad error, { e with inbox := rest })
  | .tooLong declared =>
    return (.bad (.malformed (.frameTooLong declared codec.maxFrameSize)), e)
  | .incomplete =>
    .ask (.read e.link none (PacketCodec.needed e.inbox)) fun (outcome : ReadOutcome) =>
      match outcome with
      | .bytes first rest => read { e with inbox := e.inbox ++ first :: rest }
      | .ended | .failed _ | .elapsed => return (.ended e.inbox, e)
termination_by headerSize + codec.maxFrameSize - e.inbox.length
decreasing_by
  have := PacketCodec.length_lt_of_scan_eq_incomplete _h
  show headerSize + codec.maxFrameSize - (e.inbox ++ first :: rest).length <
    headerSize + codec.maxFrameSize - e.inbox.length
  rw [List.length_append, List.length_cons]
  omega

end RawEnd
end WorkBroker.Net
