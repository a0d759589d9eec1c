import WorkBroker.Broker.Settings.Field
/-!
Set-ups written as documents: either named entries, of which unknown ones are passed over, or values
in the order of the fields.  Fields that a document does not mention keep their usual values.
-/

set_option autoImplicit false
set_option relaxedAutoImplicit false

namespace WorkBroker.Settings

/-- A value in a document, as far as set-ups tell values apart. -/
inductive Value
  | integer (n : Int)
  | text (s : String)
  | other
  deriving DecidableEq, Repr, Inhabited

inductive Document
  | entries (entries : List (String × Value))
  | values (values : List Value)
  | other
  deriving Inhabited

def put? (name : String) (v : Value) (s : Settings) : Option Settings :=
  if name = hostName then
    match v with
    | .text host => some { s with host }
    | _ => none
  else
    match Field.ofName? name with
    | none => some s
    | some f =>
      match v with
      | .integer n => f.set? n s
      | _ => none

def putAll? (entries : List (String × Value)) (s : Settings) : Option Settings :=
  entries.foldlM (fun s e => s.put? e.1 e.2) s

def fieldNames : List String := hostName :: Field.all.map Field.name

def ofDocument? : Document → Option Settings
  | .entries entries => putAll? entries {}
  | .values values =>
    if values.length ≤ fieldNames.length then putAll? (fieldNames.zip values) {} else none
  | .other => none

end WorkBroker.Settings
