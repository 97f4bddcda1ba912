import WarehouseLoader.Json.Basic
import WarehouseLoader.Json.Number
import WarehouseLoader.Yaml.Node

/-!
# Values of scalars

A plain scalar is what it looks like: null, a truth value, a whole number in one
of four bases, a number with a point or an exponent, or else a text. A scalar in
quotes or in a block is a text, and a core tag says what a scalar has to be.

Digits behind a leading zero are a text, not a number, and so is a number beyond
the largest double. Whole numbers have 64 bits; a longer one of up to 128 bits
is a number that nothing can hold, and one beyond that is a double.
-/

namespace WarehouseLoader.Yaml

/-- What a scalar is. -/
inductive Scalar where
  | null
  | bool (b : Bool)
  | number (n : Json.Number)
  /-- An infinite number, or none. -/
  | notFinite
  /-- A whole number beyond 64 bits. -/
  | oversized
  | text (s : String)
  deriving DecidableEq, Repr

def isNullText (s : String) : Bool := s ∈ ["null", "Null", "NULL", "~"]

def boolText? (s : String) : Option Bool :=
  if s ∈ ["true", "True", "TRUE"] then some true
  else if s ∈ ["false", "False", "FALSE"] then some false
  else none

def dropPlus : List Char → List Char
  | '+' :: rest => rest
  | cs => cs

def startsWithSign : List Char → Bool
  | c :: _ => c == '+' || c == '-'
  | [] => false

/-- Whether there is a zero and then nothing but digits, behind a sign or
not. -/
def isPadded (cs : List Char) : Bool :=
  let digits := if startsWithSign cs then cs.drop 1 else cs
  digits.head? == some '0' && 1 < digits.length && digits.all Json.Numeral.isDigit

/-- The number that one or more digits of a base write. -/
def inBase? (base : Nat) : List Char → Option Nat
  | [] => none
  | c :: rest =>
    (c :: rest).foldlM (fun n d => (Http.hexValue? d).bind fun v =>
      if v < base then some (base * n + v) else none) 0

/-- The bases that have a letter, behind a zero. -/
def baseOf? : List Char → Option (Nat × List Char)
  | '0' :: 'x' :: digits => some (16, digits)
  | '0' :: 'o' :: digits => some (8, digits)
  | '0' :: 'b' :: digits => some (2, digits)
  | _ => none

/-- The whole number, not below zero, that a text writes. -/
def natural? (cs : List Char) : Option Nat :=
  let digits := dropPlus cs
  match baseOf? digits with
  | some (base, digits) => inBase? base digits
  | none => if isPadded cs then none else inBase? 10 digits

/-- The magnitude of the whole number that a text with a minus sign writes. -/
def negative? : List Char → Option Nat
  | '-' :: digits =>
    match baseOf? digits with
    | some (base, digits) => inBase? base digits
    | none => if isPadded digits then none else inBase? 10 digits
  | _ => none

/-- A whole number of up to 128 bits, as far as 64 bits hold it. -/
def integer? (cs : List Char) : Option Scalar :=
  match natural? cs, negative? cs with
  | some n, _ =>
    if n < UInt64.size then
      some (.number (.natural n)) else if n <
        Nat.pow 2 128 then some .oversized else none
  | none, some n =>
    if n = 0 then some (.number (.natural 0))
    else if n ≤ Nat.pow 2 63 then some (.number (.negative n))
    else if n ≤ Nat.pow 2 127 then some .oversized
    else none
  | none, none => none

/-- Beyond this power of ten, in either direction, no double with a few digits
lies. -/
def maxScale : Nat := 400

/-- The double nearest to `significand * 10 ^ exponent`. -/
def decimal (significand : Nat) (exponent : Int) : Option Double :=
  let digits : Int := (toString significand).length
  if significand = 0 then some .zero
  else if exponent > maxScale then none
  else if exponent + digits < -(maxScale : Int) then some .zero
  else if exponent < 0 then
    Double.ofQuotient false significand (Nat.pow 10 exponent.natAbs)
  else Double.ofQuotient false (significand * Nat.pow 10 exponent.natAbs) 1

/-- Digits with a point and an exponent, each part of which may be missing as
long as there is a digit. -/
def unsignedReal? (cs : List Char) : Option Double := do
  let whole := cs.takeWhile Json.Numeral.isDigit
  let rest := cs.drop whole.length
  let (fraction, rest) :=
    match rest with
    | '.' :: rest =>
      (rest.takeWhile Json.Numeral.isDigit, rest.dropWhile Json.Numeral.isDigit)
    | rest => ([], rest)
  if whole.isEmpty && fraction.isEmpty then none
  else
    let (exponentNegative, exponent) ← Json.Numeral.exponent? rest
    let shift : Int := Json.Numeral.value exponent
    decimal (Json.Numeral.value (whole ++ fraction))
      ((if exponentNegative then -shift else shift) - fraction.length)

def isInfinityText (cs : List Char) : Bool :=
  String.ofList cs ∈ [".inf", ".Inf", ".INF"]

/-- A number with a point or an exponent. -/
def real? (cs : List Char) : Option Scalar :=
  let unsigned := dropPlus cs
  let (negative, magnitude) :=
    match unsigned with
    | '-' :: rest => (true, rest)
    | rest => (false, rest)
  if unsigned.length < cs.length && startsWithSign unsigned then none
  else if isInfinityText magnitude || String.ofList cs ∈ [".nan", ".NaN", ".NAN"] then
    some .notFinite
  else (unsignedReal? magnitude).map fun x =>
    .number (.real (if negative then x.neg else x))

/-- A plain scalar without a tag. -/
def Scalar.ofPlain (s : String) : Scalar :=
  if s.isEmpty || isNullText s then .null
  else
    match boolText? s with
    | some b => .bool b
    | none =>
      match integer? s.toList with
      | some n => n
      | none =>
        match if isPadded s.toList then none else real? s.toList with
        | some x => x
        | none => .text s

def coreTag (name : String) : String := "tag:yaml.org,2002:" ++ name

/-- Whether a tag is one of the document's own. -/
def isCustomTag (tag : Option String) : Bool :=
  tag.any fun t => t.toList.head? == some '!'

/-- What a scalar is; nothing if it is not what its tag says, or has a tag of
its own. -/
def Scalar.of? (tag : Option String) (style : Style) (s : String) : Option Scalar :=
  match tag with
  | none => some (if style = .plain then .ofPlain s else .text s)
  | some t =>
    if isCustomTag tag then none
    else if t = coreTag "bool" then (boolText? s).map .bool
    else if t = coreTag "int" then integer? s.toList
    else if t = coreTag "float" then real? s.toList
    else if t = coreTag "null" then (if isNullText s then some .null else none)
    else some (.text s)

end WarehouseLoader.Yaml
