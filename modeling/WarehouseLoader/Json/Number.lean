import WarehouseLoader.Number.Double
import WarehouseLoader.Number.Numeral

/-!
# Numbers of a JSON text

A numeral without point and exponent is a whole number as long as 64 bits hold
it. All others are doubles: the leading digits that 64 bits hold make the
significand, later ones only move the point, and the result is scaled by a power
of ten. A minus zero is a double, since no whole number has its sign. A numeral
beyond the largest double is none of these.

Printing gives back the digits of a whole number and the shortest digits of a
double, with a point from one hundred-thousandth up to ten quadrillions and with
an exponent outside of that.
-/

namespace WarehouseLoader.Json

inductive Number where
  | natural (n : Nat)
  /-- The number below zero with this magnitude. -/
  | negative (magnitude : Nat)
  | real (x : Double)
  deriving DecidableEq, Repr, Inhabited

/-- The parts of a numeral as they are written. -/
structure Numeral where
  negative : Bool
  whole : List Char
  fraction : List Char
  exponentNegative : Bool
  exponent : List Char
  /-- Whether the numeral has neither point nor exponent. -/
  plain : Bool
  deriving Repr

namespace Numeral

def isDigit (c : Char) : Bool := '0' ≤ c && c ≤ '9'

/-- The digits of a whole part: one zero alone, or no zero in front. -/
def whole? (cs : List Char) : Option (List Char × List Char) :=
  let digits := cs.takeWhile isDigit
  match digits with
  | [] => none
  | '0' :: _ :: _ => none
  | _ => some (digits, cs.dropWhile isDigit)

/-- The digits after the point, if there is a point. -/
def fraction? : List Char → Option (List Char × List Char)
  | '.' :: rest =>
    match rest.takeWhile isDigit with
    | [] => none
    | digits => some (digits, rest.dropWhile isDigit)
  | cs => some ([], cs)

/-- The sign and the digits of the exponent that ends the numeral, if it has
one. -/
def exponent? : List Char → Option (Bool × List Char)
  | [] => some (false, [])
  | c :: rest =>
    if c = 'e' ∨ c = 'E' then
      let (negative, digits) :=
        match rest with
        | '-' :: digits => (true, digits)
        | '+' :: digits => (false, digits)
        | digits => (false, digits)
      if digits ≠ [] ∧ digits.all isDigit then some (negative, digits) else none
    else
      none

def ofChars? (cs : List Char) : Option Numeral := do
  let (negative, cs) :=
    match cs with
    | '-' :: rest => (true, rest)
    | cs => (false, cs)
  let (whole, rest) ← whole? cs
  let (fraction, tail) ← fraction? rest
  let (exponentNegative, exponent) ← exponent? tail
  return ⟨negative, whole, fraction, exponentNegative, exponent, rest.isEmpty⟩

def value (digits : List Char) : Nat :=
  (WarehouseLoader.Numeral.digitsFrom 0 digits).getD 0

/-- Adds digits to a significand until one would take it beyond 64 bits, and
counts the digits left over. -/
def absorb (significand : Nat) : List Char → Nat × Nat
  | [] => (significand, 0)
  | c :: rest =>
    let next := 10 * significand + (c.toNat - '0'.toNat)
    if next < UInt64.size then absorb next rest else (significand, rest.length + 1)

def real? (x : Numeral) : Option Double :=
  let (wholeSignificand, dropped) := absorb 0 x.whole
  let (significand, unread) := absorb wholeSignificand x.fraction
  let point : Int := dropped - (x.fraction.length - unread : Nat)
  let shift : Int := value x.exponent
  let magnitude :=
    Double.ofScaled significand
      (if x.exponentNegative then point - shift else point + shift)
  if x.negative then magnitude.map Double.neg else magnitude

end Numeral

namespace Number

def ofNumeral (x : Numeral) : Option Number :=
  let n := Numeral.value x.whole
  if x.plain && n < UInt64.size then
    if !x.negative then some (natural n)
    else if 0 < n && n ≤ Nat.pow 2 63 then some (negative n)
    else (Double.ofNat n).map fun r => real r.neg
  else
    x.real?.map real

def decimalText (x : Double.Decimal) : String :=
  let digits := (toString x.digits).toList
  let leading : Int := (digits.length : Int) - 1 + x.exponent
  if -5 ≤ leading ∧ leading < 16 then
    if 0 ≤ x.exponent then
      String.ofList (digits ++ List.replicate x.exponent.toNat '0' ++ ['.', '0'])
    else if 0 ≤ leading then
      let (whole, fraction) := digits.splitAt (leading.toNat + 1)
      String.ofList (whole ++ '.' :: fraction)
    else
      String.ofList ('0' :: '.' :: List.replicate (leading.natAbs - 1) '0' ++ digits)
  else
    let mantissa :=
      match digits with
      | [] => []
      | [d] => [d]
      | d :: rest => d :: '.' :: rest
    let sign := if leading < 0 then '-' else '+'
    String.ofList (mantissa ++ 'e' :: sign :: (toString leading.natAbs).toList)

def realText (x : Double) : String :=
  let magnitude := if x.isZero then "0.0" else decimalText x.shortest
  if x.negative then "-" ++ magnitude else magnitude

def text : Number → String
  | natural n => toString n
  | negative n => "-" ++ toString n
  | real x => realText x

end Number

end WarehouseLoader.Json
