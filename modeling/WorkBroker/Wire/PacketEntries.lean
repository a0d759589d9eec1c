import WorkBroker.Wire.Packet
/-!
Packets as named fields, for readers that do not know the bytes.  The main statement is that a packet
can be made again from its kind and its fields.
-/

set_option autoImplicit false
set_option relaxedAutoImplicit false

namespace WorkBroker

inductive FieldValue
  | number (n : Nat)
  | flag (b : Bool)
  | text (s : String)
  | texts (l : List String)
  | bytes (b : Bytes)
  deriving DecidableEq, Repr, Inhabited

def Welcome.entries (w : Welcome) : List (String × Nat) :=
  [("connection_id", w.connectionId.toNat), ("max_message_size", w.maxMessageSize.toNat),
    ("max_retries", w.maxRetries.toNat)]

namespace Packet

def settlement (id : String) (token : UInt64) (requeue : Bool) (delayMs : UInt32) :
    List (String × FieldValue) :=
  [("id", .text id), ("token", .number token.toNat), ("requeue", .flag requeue),
    ("delay_ms", .number delayMs.toNat)]

def entries : Packet → List (String × FieldValue)
  | .hello role clientId => [("role", .text role.name), ("client_id", .text clientId)]
  | .push id priority delayMs payload =>
    [("id", .text id), ("priority", .number priority.toNat), ("delay_ms", .number delayMs.toNat),
      ("payload", .bytes payload)]
  | .pop waitMs => [("wait_ms", .number waitMs.toNat)]
  | .ack id token requeue delayMs => settlement id token requeue delayMs
  | .ackPop id token requeue delayMs waitMs =>
    settlement id token requeue delayMs ++ [("wait_ms", .number waitMs.toNat)]
  | .count | .goodbye | .empty => []
  | .listFailed limit => [("limit", .number limit.toNat)]
  | .eraseFailed ids | .erased ids => [("ids", .texts ids)]
  | .welcome terms => terms.entries.map fun e => (e.1, .number e.2)
  | .rejected reason => [("reason", .text reason.name)]
  | .accepted id | .acked id => [("id", .text id)]
  | .deliver id token attempt payload =>
    [("id", .text id), ("token", .number token.toNat), ("attempt", .number attempt.toNat),
      ("payload", .bytes payload)]
  | .counts capacity active failures free =>
    [("capacity", .number capacity.toNat), ("active", .number active.toNat),
      ("failed", .number failures.toNat), ("free", .number free.toNat)]
  | .failed ids truncated => [("ids", .texts ids), ("truncated", .flag truncated)]
  | .error code message =>
    [("code", .number code.toUInt16.toNat), ("code_name", .text code.name),
      ("message", .text message)]

/-- Fields by name; a field that is missing is zero, false or empty. -/
structure Fields where
  entries : List (String × FieldValue)

namespace Fields

def number (f : Fields) (name : String) : Nat :=
  match f.entries.lookup name with
  | some (.number n) => n
  | _ => 0

def flag (f : Fields) (name : String) : Bool :=
  match f.entries.lookup name with
  | some (.flag b) => b
  | _ => false

def text (f : Fields) (name : String) : String :=
  match f.entries.lookup name with
  | some (.text s) => s
  | _ => ""

def texts (f : Fields) (name : String) : List String :=
  match f.entries.lookup name with
  | some (.texts l) => l
  | _ => []

def bytes (f : Fields) (name : String) : Bytes :=
  match f.entries.lookup name with
  | some (.bytes b) => b
  | _ => []

def word32 (f : Fields) (name : String) : UInt32 := UInt32.ofNat (f.number name)

def word64 (f : Fields) (name : String) : UInt64 := UInt64.ofNat (f.number name)

end Fields

def ofFields? (kind : String) (f : Fields) : Option Packet :=
  match kind with
  | "Hello" => (Role.ofName? (f.text "role")).map fun role => .hello role (f.text "client_id")
  | "Push" =>
    some (.push (f.text "id") (UInt8.ofNat (f.number "priority")) (f.word32 "delay_ms")
      (f.bytes "payload"))
  | "Pop" => some (.pop (f.word32 "wait_ms"))
  | "Ack" => some (.ack (f.text "id") (f.word64 "token") (f.flag "requeue") (f.word32 "delay_ms"))
  | "AckPop" =>
    some (.ackPop (f.text "id") (f.word64 "token") (f.flag "requeue") (f.word32 "delay_ms")
      (f.word32 "wait_ms"))
  | "Count" => some .count
  | "Goodbye" => some .goodbye
  | "Empty" => some .empty
  | "ListFailed" => some (.listFailed (f.word32 "limit"))
  | "EraseFailed" => some (.eraseFailed (f.texts "ids"))
  | "Erased" => some (.erased (f.texts "ids"))
  | "Welcome" =>
    some (.welcome
      ⟨f.word64 "connection_id", f.word32 "max_message_size", f.word32 "max_retries"⟩)
  | "Rejected" => (RejectReason.ofName? (f.text "reason")).map .rejected
  | "Accepted" => some (.accepted (f.text "id"))
  | "Acked" => some (.acked (f.text "id"))
  | "Deliver" =>
    some (.deliver (f.text "id") (f.word64 "token") (f.word32 "attempt") (f.bytes "payload"))
  | "Counts" =>
    some (.counts (f.word64 "capacity") (f.word64 "active") (f.word64 "failed") (f.word64 "free"))
  | "Failed" => some (.failed (f.texts "ids") (f.flag "truncated"))
  | "Error" =>
    some (.error (ErrorCode.ofUInt16 (UInt16.ofNat (f.number "code"))) (f.text "message"))
  | _ => none

theorem ofFields?_entries (p : Packet) : ofFields? p.kind ⟨p.entries⟩ = some p := by
  cases p <;>
    simp [kind, entries, settlement, Welcome.entries, ofFields?, Fields.number, Fields.flag,
      Fields.text, Fields.texts, Fields.bytes, Fields.word32, Fields.word64, List.lookup_cons,
      Role.ofName?_name, RejectReason.ofName?_name, ErrorCode.ofUInt16_toUInt16]

end Packet
end WorkBroker
