/-!
# Decimal numerals

A natural number in a property or a header is one or more ASCII digits, with a
plus sign allowed in front and leading zeros allowed. A minus sign is refused
even before a zero, and so is a number that the place it goes to cannot hold.
-/

namespace WarehouseLoader.Numeral

def digit? (c : Char) : Option Nat :=
  if '0' ≤ c ∧ c ≤ '9' then some (c.toNat - '0'.toNat) else none

/-- Reads on from `value`, one digit at a time. -/
def digitsFrom (value : Nat) : List Char → Option Nat
  | [] => some value
  | c :: rest =>
    match digit? c with
    | some d => digitsFrom (10 * value + d) rest
    | none => none

/-- One or more digits and nothing else. -/
def digits? : List Char → Option Nat
  | [] => none
  | c :: rest => digitsFrom 0 (c :: rest)

/-- A text without the one plus sign it may start with. -/
def dropPlus : List Char → List Char
  | '+' :: rest => rest
  | cs => cs

/-- The number that `cs` writes, if it is below `bound`. -/
def readBelow (bound : Nat) (cs : List Char) : Option Nat :=
  (digits? (dropPlus cs)).filter (· < bound)

/-- What 32 bits hold. -/
def bound32 : Nat := UInt32.size

/-- What 64 bits hold. -/
def bound64 : Nat := UInt64.size

end WarehouseLoader.Numeral
