import WorkBroker.Broker.Error
import WorkBroker.Broker.Settings.Field
import WorkBroker.Text.Decimal
import WorkBroker.Text.Lower
import WorkBroker.Text.Quoted
/-!
Set-ups taken from environment variables.  A variable counts if its name starts with the program's
own word; its value is read as a truth value, an integer, a double, or else a text, and then made to
fit the field.  A name may go on to a part of a field, as in `port.low` or `port[0]`; no field has
parts, so such a variable never fits.
-/

set_option autoImplicit false
set_option relaxedAutoImplicit false

namespace WorkBroker.Settings

/-- The word before the name of a field, in lower case. -/
def programWord : String := "mqueue_"

def pathOfVariable? (variableName : String) : Option String :=
  let name := Text.lower variableName
  if name.startsWith programWord then some (name.drop programWord.length).toString else none

inductive Target
  | field (name : String)
  /-- A part of a field that has a name. -/
  | entry (name : String)
  /-- A part of a field that has a number. -/
  | element (name : String)
  deriving DecidableEq, Repr, Inhabited

def isPathChar (c : Char) : Bool := c.isAlphanum || c = ' ' || c = '_' || c = '-'

/-- What follows a number between brackets, of which the first has been read. -/
def afterNumber? (cs : List Char) : Option (List Char) :=
  let isSpace (c : Char) : Bool := c = ' ' || c = '\t'
  let body := cs.dropWhile isSpace
  let (negative, body) := match body with
    | '-' :: rest => (true, rest)
    | _ => (false, body)
  match Decimal.natOfDigits? (body.takeWhile Char.isDigit) with
  | none => none
  | some n =>
    match (body.dropWhile Char.isDigit).dropWhile isSpace with
    | ']' :: rest => if n < 9223372036854775808 + (if negative then 1 else 0) then some rest else none
    | _ => none

/-- What follows one step of a path: a point and a name, or a number in brackets. -/
def afterStep? : List Char → Option (List Char)
  | '.' :: rest =>
    if (rest.takeWhile isPathChar).isEmpty then none else some (rest.dropWhile isPathChar)
  | '[' :: rest => afterNumber? rest
  | _ => none

def isSteps (cs : List Char) : Bool :=
  match afterStep? cs with
  | none => cs.isEmpty
  | some rest => if _h : rest.length < cs.length then isSteps rest else false
termination_by cs.length

/-- What a path points to; a text that is no path is taken for the name of a field. -/
def Target.ofPath (path : String) : Target :=
  let name := path.toList.takeWhile isPathChar
  let steps := path.toList.dropWhile isPathChar
  if name.isEmpty || !isSteps steps then .field path
  else
    match steps with
    | [] => .field path
    | '.' :: _ => .entry (String.ofList name)
    | _ => .element (String.ofList name)

inductive Reading
  | truth (b : Bool)
  | integer (n : Int)
  | double (x : Float)
  | text (s : String)
  deriving Inhabited

def Reading.ofText (s : String) : Reading :=
  let word := Text.lower s
  if word = "true" then .truth true
  else if word = "false" then .truth false
  else
    match Decimal.int? s with
    | some n => if -9223372036854775808 ≤ n ∧ n < 9223372036854775808 then .integer n else asDouble s
    | none => asDouble s
where
  asDouble (s : String) : Reading :=
    match Decimal.float? s with
    | some x => .double x
    | none => .text s

def Reading.toText : Reading → String
  | .truth b => if b then "true" else "false"
  | .integer n => toString n
  | .double x => Decimal.positional x
  | .text s => s

inductive MisfitCause
  | notANumber (s : String)
  | negative (n : Int)
  | tooLarge (n width : Nat)
  /-- The variable is for a part of the field with a name. -/
  | entry
  /-- The variable is for a part of the field with a number. -/
  | element
  deriving DecidableEq, Repr, Inhabited

structure Misfit where
  name : String
  cause : MisfitCause
  deriving DecidableEq, Repr, Inhabited

def Misfit.message (m : Misfit) : String :=
  match m.cause with
  | .entry => s!"invalid type: map, expected {kind} for key " ++ key
  | .element => s!"invalid type: sequence, expected {kind} for key " ++ key
  | .notANumber s =>
    s!"invalid type: string {Text.quoted s}, expected an integer for key " ++ key ++
      " in the environment"
  | .negative n =>
    s!"invalid type: 64-bit integer " ++ ticked (toString n) ++
      ", expected an unsigned 64 bit or less integer for key " ++ key ++ " in the environment"
  | .tooLarge n width =>
    s!"invalid type: 64-bit unsigned integer " ++ ticked (toString n) ++
      s!", expected an unsigned {width} bit integer for key " ++ key
where
  ticked (s : String) : String := "\x60" ++ s ++ "\x60"
  key : String := ticked m.name
  kind : String := if m.name = hostName then "a string" else "an integer"

/-- A reading as a number.  Doubles are rounded, half away from zero, and cut to 64 bits. -/
def Reading.toNat? : Reading → Except MisfitCause Nat
  | .truth b => .ok (if b then 1 else 0)
  | .integer n => if n < 0 then .error (.negative n) else .ok n.toNat
  | .double x => .ok x.round.toUInt64.toNat
  | .text s =>
    let word := Text.lower s
    if word = "on" || word = "yes" then .ok 1
    else if word = "off" || word = "no" then .ok 0
    else .error (.notANumber s)

def putReading (f : Field) (r : Reading) (s : Settings) : Except Misfit Settings :=
  match r.toNat? with
  | .error cause => .error ⟨f.name, cause⟩
  | .ok n => if n < f.bound then .ok (f.set n s) else .error ⟨f.name, .tooLarge n f.width⟩

/-- A part of a field is set, which does not fit any field. -/
def refusePart (s : Settings) (name : String) (cause : MisfitCause) : Except Misfit Settings :=
  if name = hostName || (Field.ofName? name).isSome then .error ⟨name, cause⟩ else .ok s

def putVariable (s : Settings) (variableName value : String) : Except Misfit Settings :=
  match (pathOfVariable? variableName).map Target.ofPath with
  | none => .ok s
  | some (.entry name) => s.refusePart name .entry
  | some (.element name) => s.refusePart name .element
  | some (.field name) =>
    if name = hostName then .ok { s with host := (Reading.ofText value).toText }
    else
      match Field.ofName? name with
      | none => .ok s
      | some f => s.putReading f (Reading.ofText value)

/-- The variables that count when several are for one field: the last of each. -/
def latest : List (String × String) → List (String × String)
  | [] => []
  | v :: rest =>
    if rest.any fun w => pathOfVariable? w.1 == pathOfVariable? v.1 then latest rest
    else v :: latest rest

def ofEnvironment (pairs : List (String × String)) : Except BrokerError Settings :=
  match (latest pairs).foldlM (fun (s : Settings) v => s.putVariable v.1 v.2) {} with
  | .ok s => .ok s
  | .error misfit => .error (.config misfit.message)

end WorkBroker.Settings
