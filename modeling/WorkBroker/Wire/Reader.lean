import WorkBroker.Bytes
import WorkBroker.Wire.Error
/-!
Reading the fields of a packet from the front of a byte string.  A field that is cut short names
itself in the error.
-/

set_option autoImplicit false
set_option relaxedAutoImplicit false

namespace WorkBroker

/-- A reading of some value from the front of a byte string. -/
abbrev Reader := StateT Bytes (Except CodecError)

namespace Reader

def malformed {α : Type} (cause : Malformation) : Reader α := throw (.malformed cause)

def take (field : String) (size : Nat) : Reader Bytes := do
  let bytes ← get
  if bytes.length < size then malformed (.truncated field size bytes.length)
  else do
    set (bytes.drop size)
    return bytes.take size

def number (field : String) (width : Nat) : Reader Nat :=
  return Bytes.toNat (← take field width)

def uint8 (field : String) : Reader UInt8 := return UInt8.ofNat (← number field 1)

def uint16 (field : String) : Reader UInt16 := return UInt16.ofNat (← number field 2)

def uint32 (field : String) : Reader UInt32 := return UInt32.ofNat (← number field 4)

def uint64 (field : String) : Reader UInt64 := return UInt64.ofNat (← number field 8)

/-- A truth value in one byte, which is 0 or 1. -/
def flag (field : String) : Reader Bool := do
  match (← uint8 field).toNat with
  | 0 => return false
  | 1 => return true
  | value => malformed (.badFlag field value)

def text (field : String) : Reader String := do
  let size ← uint16 field
  match Bytes.toText? (← take field size.toNat) with
  | some s => return s
  | none => malformed (.notText field)

end Reader

def checkId (field id : String) (mayBeEmpty : Bool) : Except CodecError Unit :=
  if id.isEmpty && !mayBeEmpty then .error (.malformed (.emptyId field))
  else if Bytes.sizeOfText id > maxIdSize then
    .error (.malformed (.longId field (Bytes.sizeOfText id)))
  else .ok ()

namespace Reader

def id (field : String) (mayBeEmpty : Bool) : Reader String := do
  let s ← text field
  checkId field s mayBeEmpty
  return s

def clientId : Reader String := id "client id" true

def messageId : Reader String := id "message id" false

def messageIds : Nat → Reader (List String)
  | 0 => return []
  | count + 1 => do
    let first ← messageId
    let rest ← messageIds count
    return first :: rest

def idList : Reader (List String) := do
  let count ← uint16 "id count"
  if count.toNat > maxIds then malformed (.tooManyIds count.toNat)
  else messageIds count.toNat

end Reader
end WorkBroker
