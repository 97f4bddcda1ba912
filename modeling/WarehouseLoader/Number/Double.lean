/-!
# Double-precision numbers in exact arithmetic

A finite double is a sign and `mantissa * 2 ^ exponent`. Every operation
computes its result exactly, as a quotient of natural numbers, and rounds once:
to the nearest double, and to the even mantissa of two equally near ones.
Nothing here uses machine floats, so what is rounded and how can be stated and
proved.

`shortest` goes the other way. It looks for the coarsest power of ten that has a
multiple among the numbers that round to the double, which makes its digits the
fewest that read back. The search ends because every double is a whole multiple
of the finest grid it looks at.
-/

namespace WarehouseLoader

structure Double where
  negative : Bool
  mantissa : Nat
  exponent : Int
  deriving DecidableEq, Repr, Inhabited

namespace Double

/-- The exponent of the smallest double above zero. -/
def minExponent : Int := -1074

/-- The exponent of the largest finite double. -/
def maxExponent : Int := 971

def zero : Double := ⟨false, 0, minExponent⟩

def isZero (x : Double) : Bool := x.mantissa == 0

/-- `num / den` as a quotient of natural numbers after division by `2 ^ e`. -/
def scaled (num den : Nat) (e : Int) : Nat × Nat :=
  if e < 0 then (num * Nat.pow 2 e.natAbs, den) else (num, den * Nat.pow 2 e.natAbs)

/-- The whole number nearest to `num / den`, the even one of two. -/
def roundQuotient (num den : Nat) : Nat :=
  let whole := num / den
  let twice := 2 * (num % den)
  if twice < den then whole else if twice > den then whole + 1 else whole + whole % 2

/-- The exponent at which `num / den` has 53 binary digits before the point, or
the least exponent there is. -/
def quotientExponent (num den : Nat) : Int :=
  let guess := max ((num.log2 : Int) - den.log2 - 53) minExponent
  let (n, d) := scaled num den guess
  if n / d < Nat.pow 2 53 then guess else guess + 1

/-- The double nearest to `num / den`, or nothing when it would have to be
infinite. -/
def ofQuotient (negative : Bool) (num den : Nat) : Option Double :=
  if num = 0 then some { zero with negative } else
  let e := quotientExponent num den
  let (n, d) := scaled num den e
  let m := roundQuotient n d
  let (m, e) := if m = Nat.pow 2 53 then (Nat.pow 2 52, e + 1) else (m, e)
  if e > maxExponent then none else some ⟨negative, m, e⟩

def ofNat (n : Nat) : Option Double := ofQuotient false n 1

/-- The value without its sign, as a quotient. -/
def quotient (x : Double) : Nat × Nat :=
  if x.exponent < 0 then (x.mantissa, Nat.pow 2 x.exponent.natAbs)
  else (x.mantissa * Nat.pow 2 x.exponent.natAbs, 1)

def mul (x y : Double) : Option Double :=
  let (a, b) := x.quotient
  let (c, d) := y.quotient
  ofQuotient (x.negative != y.negative) (a * c) (b * d)

/-- The divisor is not zero where this is used; a zero divisor gives nothing. -/
def div (x y : Double) : Option Double :=
  let (a, b) := x.quotient
  let (c, d) := y.quotient
  if c = 0 then none else ofQuotient (x.negative != y.negative) (a * d) (b * c)

def neg (x : Double) : Double := { x with negative := !x.negative }

/-- The powers of ten that are doubles end here. -/
def maxPowerOfTen : Nat := 308

def powerOfTen (k : Nat) : Option Double := ofNat (Nat.pow 10 k)

/-- `x` divided `times` times by the largest power of ten. Once nothing is left,
nothing more is lost. -/
def shrinkByLargest (x : Double) : Nat → Option Double
  | 0 => some x
  | times + 1 =>
    if x.isZero then some x else
    match (powerOfTen maxPowerOfTen).bind x.div with
    | some y => y.shrinkByLargest times
    | none => none

/-- `x / 10 ^ k`, by steps of the largest power of ten and a last one of what
remains. -/
def shrink (x : Double) (k : Nat) : Option Double :=
  let times := (k - 1) / maxPowerOfTen
  (x.shrinkByLargest times).bind fun y =>
    (powerOfTen (k - times * maxPowerOfTen)).bind y.div

/-- `significand * 10 ^ exponent`, rounding the significand first and the
product or quotient after it. -/
def ofScaled (significand : Nat) (exponent : Int) : Option Double :=
  (ofNat significand).bind fun x =>
    if exponent < 0 then
      x.shrink exponent.natAbs
    else if exponent.natAbs ≤ maxPowerOfTen then
      (powerOfTen exponent.natAbs).bind x.mul
    else if x.isZero then
      some x
    else
      none

/-- Whether `num / den` rounds to the double, given that both are above zero. -/
def covers (x : Double) (num den : Nat) : Bool :=
  let narrow := x.mantissa == Nat.pow 2 52 && x.exponent > minExponent
  -- both ends of the interval in quarters of the last place
  let low := if narrow then 4 * x.mantissa - 1 else 4 * x.mantissa - 2
  let high := 4 * x.mantissa + 2
  let (n, d) := scaled (4 * num) den x.exponent
  let closed := x.mantissa % 2 == 0
  if closed then low * d ≤ n && n ≤ high * d else low * d < n && n < high * d

/-- A number of tenths, hundredths and so on, or of tens, hundreds and so on:
`digits * 10 ^ exponent`. -/
structure Decimal where
  digits : Nat
  exponent : Int
  deriving DecidableEq, Repr, Inhabited

def Decimal.quotient (x : Decimal) : Nat × Nat :=
  if x.exponent < 0 then (x.digits, Nat.pow 10 x.exponent.natAbs)
  else (x.digits * Nat.pow 10 x.exponent.natAbs, 1)

/-- The multiple of `10 ^ k` that rounds to the double and is nearest to it, if
one does. -/
def onGrid? (x : Double) (k : Int) : Option Decimal :=
  let (a, b) := x.quotient
  let (n, d) :=
    if k < 0 then (a * Nat.pow 10 k.natAbs, b) else (a, b * Nat.pow 10 k.natAbs)
  let below : Decimal := ⟨n / d, k⟩
  let above : Decimal := ⟨n / d + 1, k⟩
  let holds (p : Decimal) : Bool := p.digits != 0 && x.covers p.quotient.1 p.quotient.2
  match holds below, holds above with
  | true, true => some (if 2 * (n % d) ≤ d then below else above)
  | true, false => some below
  | false, true => some above
  | false, false => none

/-- The finest grid of the search, on which every double lies. -/
def finestGrid : Nat := 1074

def onGridFrom (x : Double) : Nat → Decimal
  | 0 => (x.onGrid? (-finestGrid)).getD ⟨0, 0⟩
  | n + 1 => (x.onGrid? ((n + 1 : Nat) - finestGrid)).getD (onGridFrom x n)

/-- The fewest digits that read back as the double, and nearest to it of
those. -/
def shortest (x : Double) : Decimal := onGridFrom x (finestGrid + maxPowerOfTen)

end Double

end WarehouseLoader
