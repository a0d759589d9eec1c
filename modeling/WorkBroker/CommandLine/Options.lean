import WorkBroker.Text.Decimal
/-!
Options on a command line.  An option has a long name and perhaps a letter, occurs at most once, and
takes one value, which stands behind an equals sign, directly behind the letter, or in the next
word.  Nothing but options may stand on the line.
-/

set_option autoImplicit false
set_option relaxedAutoImplicit false

namespace WorkBroker.CommandLine

inductive ValueKind
  | text
  /-- A number of so many bits. -/
  | word (bits : Nat)
  deriving DecidableEq, Repr, Inhabited

structure OptionSpec where
  long : String
  letter : Option Char
  kind : ValueKind
  deriving Inhabited

inductive Refusal
  | help
  | misuse
  deriving DecidableEq, Repr, Inhabited

/-- The options on a command line, by their long names. -/
abbrev Options := List (String × String)

/-- The number that a text writes.  Wide words have no sign but a plus, narrow ones may have any. -/
def word? (bits : Nat) (s : String) : Option Nat :=
  match Decimal.int? s with
  | none => none
  | some n =>
    if n < 0 || n.toNat ≥ Nat.pow 2 bits || (bits > 32 && s.startsWith "-") then none else some n.toNat

def ValueKind.admits (k : ValueKind) (value : String) : Bool :=
  match k with
  | .text => true
  | .word bits => (word? bits value).isSome

inductive Mention
  | help
  | unknown
  | option (spec : OptionSpec) (attached : Option String)

def splitEquals : List Char → List Char × Option (List Char)
  | [] => ([], none)
  | '=' :: rest => ([], some rest)
  | c :: rest =>
    let (name, value) := splitEquals rest
    (c :: name, value)

/-- Reads a word that starts with two dashes, without the dashes. -/
def longMention (known : List OptionSpec) (cs : List Char) : Mention :=
  let (name, value) := splitEquals cs
  let name := String.ofList name
  if name = "help" && value.isNone then .help
  else
    match known.find? (·.long == name) with
    | some spec => .option spec (value.map String.ofList)
    | none => .unknown

/-- Reads a word that starts with one dash, without the dash. -/
def letterMention (known : List OptionSpec) : List Char → Mention
  | [] => .unknown
  | letter :: rest =>
    if letter = 'h' then .help
    else
      match known.find? (·.letter == some letter) with
      | none => .unknown
      | some spec =>
        match rest with
        | [] => .option spec none
        | '=' :: value => .option spec (some (String.ofList value))
        | value => .option spec (some (String.ofList value))

def isValue (s : String) : Bool := s = "-" || !s.startsWith "-"

/-- Adds an option, unless it is there already or its value is not admitted. -/
def addOption (found : Options) (spec : OptionSpec) (value : String) : Except Refusal Options :=
  if (found.lookup spec.long).isSome || !spec.kind.admits value then .error .misuse
  else .ok (found ++ [(spec.long, value)])

def readFrom (known : List OptionSpec) : List String → Options → Except Refusal Options
  | [], found => .ok found
  | w :: rest, found =>
    let mention : Option Mention := match w.toList with
      | ['-', '-'] => if rest.isEmpty then none else some .unknown
      | '-' :: '-' :: cs => some (longMention known cs)
      | '-' :: cs => some (letterMention known cs)
      | _ => some .unknown
    match mention with
    | none => .ok found
    | some .help => .error .help
    | some .unknown => .error .misuse
    | some (.option spec (some value)) => do readFrom known rest (← addOption found spec value)
    | some (.option spec none) =>
      match rest with
      | value :: rest =>
        if isValue value then do readFrom known rest (← addOption found spec value)
        else .error .misuse
      | [] => .error .misuse

def read (known : List OptionSpec) (line : List String) : Except Refusal Options :=
  readFrom known line []

def textOf (found : Options) (name : String) : Option String := found.lookup name

def numberOf (found : Options) (name : String) : Option Nat :=
  ((found.lookup name).bind Decimal.int?).map Int.toNat

end WorkBroker.CommandLine
