/-!
Addresses of eight groups of sixteen bits: reading every form in which they may be written, and
writing the shortest one.  A group is written in hexadecimal; `::` stands for a run of zero groups;
the last two groups may be written as a quad of decimal bytes.
-/

set_option autoImplicit false
set_option relaxedAutoImplicit false

namespace WorkBroker.Net

/-- An address, as its groups, and the zone in which it is valid. -/
structure Ipv6 where
  groups : List Nat
  zone : Nat
  deriving DecidableEq, Repr, Inhabited

namespace Ipv6

def size : Nat := 8

def digit? (base : Nat) (c : Char) : Option Nat :=
  let value :=
    if c.isDigit then c.toNat - '0'.toNat
    else if c.isAlpha then c.toLower.toNat - 'a'.toNat + 10
    else base
  if value < base then some value else none

def number? (base : Nat) (cs : List Char) : Option (Nat × List Char) :=
  let digits := cs.takeWhile fun c => (digit? base c).isSome
  if digits.isEmpty then none
  else some ((digits.filterMap (digit? base)).foldl (· * base + ·) 0, cs.drop digits.length)

def group? (cs : List Char) : Option (Nat × List Char) :=
  match number? 16 cs with
  | some (n, rest) => if cs.length ≤ rest.length + 4 then some (n, rest) else none
  | none => none

def byte? (cs : List Char) : Option (Nat × List Char) :=
  match number? 10 cs with
  | some (n, rest) =>
    let digits := cs.length - rest.length
    if digits ≤ 3 && n < UInt8.size && (digits = 1 || cs.head? ≠ some '0') then some (n, rest)
    else none
  | none => none

def skip? (c : Char) : List Char → Option (List Char)
  | [] => none
  | d :: rest => if c = d then some rest else none

/-- The two groups that a quad in front of a text writes. -/
def quad? (cs : List Char) : Option (List Nat × List Char) := do
  let (a, rest) ← byte? cs
  let (b, rest) ← byte? (← skip? '.' rest)
  let (c, rest) ← byte? (← skip? '.' rest)
  let (d, rest) ← byte? (← skip? '.' rest)
  return ([a * 256 + b, c * 256 + d], rest)

/-- The groups in front of a text, as many as there is room for, whether the last two are a quad, and
what follows.  A colon stands before every group but the first. -/
def takeGroups (first : Bool) : Nat → List Char → (List Nat × Bool) × List Char
  | 0, cs => (([], false), cs)
  | room + 1, cs =>
    match if first then some cs else skip? ':' cs with
    | none => (([], false), cs)
    | some body =>
      match if room = 0 then none else quad? body with
      | some (pair, rest) => ((pair, true), rest)
      | none =>
        match group? body with
        | none => (([], false), cs)
        | some (n, rest) =>
          let ((more, quad), rest) := takeGroups false room rest
          ((n :: more, quad), rest)

def groups? (cs : List Char) : Option (List Nat × List Char) := do
  let ((front, quad), rest) := takeGroups true size cs
  if front.length = size then return (front, rest)
  else if quad then none
  else
    let rest ← skip? ':' (← skip? ':' rest)
    let ((back, _), rest) := takeGroups true (size - 1 - front.length) rest
    return (front ++ List.replicate (size - front.length - back.length) 0 ++ back, rest)

def ofHost? (host : String) : Option Ipv6 := do
  let (groups, rest) ← groups? (← skip? '[' host.toList)
  match rest with
  | [']'] => return ⟨groups, 0⟩
  | '%' :: rest =>
    let (zone, rest) ← number? 10 rest
    if rest = [']'] && zone < UInt32.size then return ⟨groups, zone⟩ else none
  | _ => none

def zeros (groups : List Nat) : Nat := (groups.takeWhile (· = 0)).length

/-- Where the first of the longest runs of zeros begins, and how long it is. -/
def longestRun : List Nat → Nat × Nat
  | [] => (0, 0)
  | n :: rest =>
    let (start, length) := longestRun rest
    if length ≤ zeros (n :: rest) then (0, zeros (n :: rest)) else (start + 1, length)

def renderGroups (groups : List Nat) : String :=
  ":".intercalate (groups.map fun n => String.ofList (Nat.toDigits 16 n))

def renderBytes (n : Nat) : String := s!"{n / 256}.{n % 256}"

/-- The shortest text for some groups: the first of the longest runs of at least two zero groups is
left out, and an address that stands for a quad is written with it. -/
def renderAddress (groups : List Nat) : String :=
  match groups with
  | [0, 0, 0, 0, 0, 0xffff, a, b] => s!"::ffff:{renderBytes a}.{renderBytes b}"
  | _ =>
    let (start, length) := longestRun groups
    if length < 2 then renderGroups groups
    else renderGroups (groups.take start) ++ "::" ++ renderGroups (groups.drop (start + length))

def render (a : Ipv6) : String :=
  let zone := if a.zone = 0 then "" else s!"%{a.zone}"
  s!"[{renderAddress a.groups}{zone}]"

end Ipv6
end WorkBroker.Net
