/-!
Doubles in decimal text: reading them from digits with an optional point and exponent, and writing
the fewest digits that read back, always positionally.
-/

set_option autoImplicit false
set_option relaxedAutoImplicit false

namespace WorkBroker.Decimal

def natOfDigits? (cs : List Char) : Option Nat :=
  if cs.isEmpty || !cs.all Char.isDigit then none
  else some (cs.foldl (fun n c => n * 10 + (c.toNat - '0'.toNat)) 0)

def splitSign : List Char → Bool × List Char
  | '+' :: rest => (false, rest)
  | '-' :: rest => (true, rest)
  | cs => (false, cs)

def int? (s : String) : Option Int :=
  let (negative, digits) := splitSign s.toList
  (natOfDigits? digits).map fun n => if negative then -(n : Int) else n

private def infinite : Float := 1.0 / 0.0

def scientific (digits : Nat) (exponent : Int) : Float :=
  if digits = 0 then 0.0
  else
    let magnitude : Int := (Nat.toDigits 10 digits).length + exponent
    if magnitude > 400 then infinite
    else if magnitude < -400 then 0.0
    else Float.ofScientific digits (exponent < 0) exponent.natAbs

private def exponent? : List Char → Option Int
  | [] => some 0
  | c :: rest =>
    if c = 'e' || c = 'E' then
      let (negative, digits) := splitSign rest
      (natOfDigits? digits).map fun n => if negative then -(n : Int) else n
    else none

private def unsigned? (cs : List Char) : Option Float :=
  let whole := cs.takeWhile Char.isDigit
  let rest := cs.dropWhile Char.isDigit
  let (fraction, rest) := match rest with
    | '.' :: more => (more.takeWhile Char.isDigit, more.dropWhile Char.isDigit)
    | _ => ([], rest)
  do
    let digits ← natOfDigits? (whole ++ fraction)
    let exponent ← exponent? rest
    return scientific digits (exponent - fraction.length)

/-- The double that a text writes: decimal digits with an optional point and exponent, or the
words for the infinities and for no number, each with an optional sign. -/
def float? (s : String) : Option Float :=
  let (negative, rest) := splitSign s.toList
  let word := String.ofList (rest.map Char.toLower)
  let magnitude :=
    if word = "inf" || word = "infinity" then some infinite
    else if word = "nan" then some (0.0 / 0.0)
    else unsigned? rest
  magnitude.map fun x => if negative then -x else x

def signBit : Nat := 0x8000000000000000

/-- The bit in front of the fraction of a double, which a double does not write down. -/
def hiddenBit : Nat := 0x10000000000000

/-- A positive finite double as `(m, e, tight)`: its value is `m * 2 ^ e`, and `tight` tells that the
gap below it is half the gap above it. -/
def decompose (x : Float) : Nat × Int × Bool :=
  let bits : Nat := x.toBits.toNat % signBit
  let biased : Nat := bits / hiddenBit
  let fraction := bits % hiddenBit
  if biased = 0 then (fraction, -1074, false)
  else (fraction + hiddenBit, (biased : Int) - 1075, fraction = 0 && biased > 1)

private def scaleUp (n : Nat) (e : Int) : Nat := n * Nat.pow 2 e.toNat

/-- The fewest decimal digits, with their exponent, that lie between the midpoints to the two
neighbouring doubles; of two such, the nearer one, and the upper one if they are equally near. -/
def shortest (x : Float) : Nat × Int :=
  let (m, e, tight) := decompose x
  -- all numbers below are in units of `2 ^ (e - 2)`
  let unit : Int := e - 2
  let value := 4 * m
  let low := if tight then 4 * m - 1 else 4 * m - 2
  let high := 4 * m + 2
  let closed := m % 2 = 0
  let inside (num den : Nat) : Bool :=
    if closed then low * den ≤ num && num ≤ high * den else low * den < num && num < high * den
  let magnitude : Int :=
    -- the decimal exponent of the leading digit
    let whole := scaleUp value unit
    if unit ≥ 0 then ((Nat.toDigits 10 whole).length : Int) - 1
    else
      let den : Nat := Nat.pow 2 (-unit).toNat
      if value ≥ den then ((Nat.toDigits 10 (value / den)).length : Int) - 1
      else
        let digitsNeeded := (Nat.toDigits 10 (den / value)).length
        let candidate : Int := -(digitsNeeded : Int)
        if value * Nat.pow 10 (digitsNeeded - 1) ≥ den then candidate + 1 else candidate
  let attempt (count : Nat) : Option (Nat × Int) :=
    let exponent : Int := magnitude - count + 1
    -- the grid point `k * 10 ^ exponent`, compared in units of `2 ^ unit`
    let num : Nat := if exponent ≥ 0 then Nat.pow 10 exponent.toNat else 1
    let den : Nat := if exponent ≥ 0 then 1 else Nat.pow 10 (-exponent).toNat
    let num := if unit ≥ 0 then num else num * Nat.pow 2 (-unit).toNat
    let den := if unit ≥ 0 then den * Nat.pow 2 unit.toNat else den
    let below := value * den / num
    let above := below + 1
    let belowFits := below > 0 && inside (below * num) den
    let aboveFits := inside (above * num) den
    if belowFits && aboveFits then
      if value * den - below * num < above * num - value * den then some (below, exponent)
      else some (above, exponent)
    else if belowFits then some (below, exponent)
    else if aboveFits then some (above, exponent)
    else none
  ((List.range 17).findSome? fun k => attempt (k + 1)).getD (m, 0)

def positionalDigits (digits : Nat) (exponent : Int) : String :=
  let text := Nat.toDigits 10 digits
  if exponent ≥ 0 then String.ofList (text ++ List.replicate exponent.toNat '0')
  else
    let places := (-exponent).toNat
    let padded := List.replicate (places + 1 - text.length) '0' ++ text
    let whole := padded.take (padded.length - places)
    let fraction := padded.drop (padded.length - places)
    let fraction := (fraction.reverse.dropWhile (· = '0')).reverse
    if fraction.isEmpty then String.ofList whole
    else String.ofList (whole ++ '.' :: fraction)

/-- A double written with the fewest digits that read back, and never with an exponent. -/
def positional (x : Float) : String :=
  if x.isNaN then "NaN"
  else
    let sign := if x.toBits.toNat ≥ signBit then "-" else ""
    if x.isInf then sign ++ "inf"
    else if x == 0.0 then sign ++ "0"
    else
      let (digits, exponent) := shortest x
      sign ++ positionalDigits digits exponent

end WorkBroker.Decimal
