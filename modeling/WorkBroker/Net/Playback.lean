import WorkBroker.Net.Progress
import WorkBroker.Net.RawEnd
/-!
A peer that plays a part: whatever comes, it reads and sends in the order of its cues and keeps a
record of what it has read.
-/

set_option autoImplicit false
set_option relaxedAutoImplicit false

namespace WorkBroker.Net

inductive Cue
  /-- Read one packet. -/
  | read
  /-- Read packets until the stream ends. -/
  | hold
  | write (bytes : Bytes)
  | send (p : Packet)
  deriving Inhabited

abbrev Record := List RawEnd.Item

namespace Playback

def holdReads : Nat := 1000000

def hold : Nat → RawEnd → Record → Plan (Bool × RawEnd × Record)
  | 0, e, record => return (true, e, record)
  | reads + 1, e, record => do
    match ← e.read with
    | (.packet p, e) => hold reads e (.packet p :: record)
    | (.bad error, e) => return (true, e, .bad error :: record)
    | (.ended left, e) => return (false, e, .ended left :: record)

/-- Does what one cue asks for, and tells whether the part goes on. -/
def perform (e : RawEnd) (record : Record) : Cue → Plan (Bool × RawEnd × Record)
  | .read => do
    match ← e.read with
    | (.ended left, e) => return (false, e, .ended left :: record)
    | (item, e) => return (true, e, item :: record)
  | .hold => hold holdReads e record
  | .write bytes => do
    let _ ← e.write bytes
    return (true, e, record)
  | .send p => do
    match RawEnd.codec.encode p with
    | .ok bytes => do
      let _ ← e.write bytes
      return (true, e, record)
    | .error _ => return (true, e, record)

def play (e : RawEnd) (record : Record) : List Cue → Plan Record
  | [] => do
    Plan.act (.discard e.link)
    return record.reverse
  | cue :: rest => do
    match ← perform e record cue with
    | (true, e, record) => play e record rest
    | (false, e, record) => play e record []
termination_by cues => cues.length

end Playback

/-- Parts for the connections to come, and the parts that are being played. -/
structure Troupe where
  waiting : List (List Cue)
  playing : List (Nat × Plan Record)

namespace Troupe

def ofParts (parts : List (List Cue)) : Troupe := ⟨parts, []⟩

def isListening (t : Troupe) : Bool := !t.waiting.isEmpty

def dialled (t : Troupe) (link : Nat) : Troupe :=
  match t.waiting with
  | [] => t
  | cues :: waiting =>
    ⟨waiting, t.playing ++ [(link, Playback.play ⟨link, []⟩ [] cues)]⟩

def records (t : Troupe) : List Record := t.playing.filterMap fun p => p.2.value?

end Troupe
end WorkBroker.Net
