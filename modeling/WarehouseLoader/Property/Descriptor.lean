import WarehouseLoader.Number.Numeral
import WarehouseLoader.Text.Blank

/-!
# Declared properties

A descriptor says what a property is for and what value it may have. Its
validator looks at a value that holds no template; a complaint is the end of the
sentence that begins with the property's name.
-/

namespace WarehouseLoader

/-- The check on the value of a property. -/
inductive Validator where
  | nonEmpty
  | boolean
  /-- A whole number that 32 bits hold. -/
  | nonNegativeInteger
  /-- A whole number above zero that 64 bits hold. -/
  | positiveInteger
  deriving DecidableEq, Repr, Inhabited

namespace Validator

def all : List Validator := [nonEmpty, boolean, nonNegativeInteger, positiveInteger]

def name : Validator → String
  | nonEmpty => "non_empty"
  | boolean => "boolean"
  | nonNegativeInteger => "non_negative_integer"
  | positiveInteger => "positive_integer"

end Validator

/-- The truth value that a text names. -/
def bool? (s : String) : Option Bool :=
  if s = "true" then some true else if s = "false" then some false else none

def notABool (s : String) : String := s!"'{s}' is not true or false"

def notNonNegative (s : String) : String := s!"'{s}' is not a non-negative integer"

def notPositive (s : String) : String := s!"'{s}' is not a positive integer"

/-- The number of 32 bits that a text writes. -/
def nat32? (s : String) : Option Nat := Numeral.readBelow Numeral.bound32 s.toList

/-- The number of 64 bits that a text writes. -/
def nat64? (s : String) : Option Nat := Numeral.readBelow Numeral.bound64 s.toList

/-- What the validator has to say against a value, if anything. -/
def Validator.complaint? (v : Validator) (value : String) : Option String :=
  match v with
  | .nonEmpty => if Text.isBlankText value then some "must not be empty" else none
  | .boolean => if (bool? value).isSome then none else some (notABool value)
  | .nonNegativeInteger =>
    if (nat32? value).isSome then none else some (notNonNegative value)
  | .positiveInteger =>
    if (nat64? value).any (0 < ·) then none else some (notPositive value)

structure PropertyDescriptor where
  name : String
  displayName : String
  description : String
  /-- Whether there has to be a value, configured or by default. -/
  required : Bool
  /-- The value when none is configured. -/
  fallback : Option String
  /-- The values that are accepted; none listed means any. -/
  allowable : List String
  /-- Whether the value may hold expressions over a unit's attributes. -/
  templates : Bool
  validator : Validator
  deriving DecidableEq, Repr, Inhabited

end WarehouseLoader
