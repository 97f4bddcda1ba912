import WarehouseLoader.Property.Descriptor
import WarehouseLoader.Template

/-!
# Configured properties

A context holds the values that were configured, under declared names and under
others, and the variables of the driver. A declared property without a
configured value has its default.

Validation judges every declared property in the order of the declarations and
then every other configured value in the order of the names. A value with an
expression, or with the mark that opens one, is a template: it is refused where
templates are not supported, and otherwise only its form is judged, since its
value is not known before a unit is.
-/

namespace WarehouseLoader

structure ProcessContext where
  properties : NameMap String
  vars : Json
  deriving Inhabited

structure ValidationResult where
  subject : String
  /-- What is wrong with the value, if anything. -/
  explanation : Option String
  deriving DecidableEq, Repr

namespace ValidationResult

def valid (r : ValidationResult) : Bool := r.explanation.isNone

end ValidationResult

/-- Turns all complaints into one error. -/
def ensureValid (results : List ValidationResult) : Except LoadError Unit :=
  match results.filterMap fun r => r.explanation.map fun e => s!"{r.subject}: {e}" with
  | [] => .ok ()
  | problems => .error (.config ("; ".intercalate problems))

/-- The refusal of a value that is not on the list. -/
def notAllowable (value : String) (allowable : List String) : String :=
  let names := ", ".intercalate allowable
  s!"'{value}' is not one of {names}"

namespace PropertyDescriptor

/-- Whether a value is taken for a template. -/
def looksTemplated (value : String) : Bool :=
  Template.hasExpressions value || Template.holds Template.openMark value.toList

/-- What is wrong with the value of the property, if anything. -/
def complaint? (d : PropertyDescriptor) (value : Option String) : Option String :=
  match value with
  | none => if d.required then some "is required" else none
  | some value =>
    if looksTemplated value then
      if d.templates then
        match Template.check value with
        | .ok () => none
        | .error e => some e.message
      else
        some "does not support templated values"
    else if d.allowable ≠ [] ∧ value ∉ d.allowable then
      some (notAllowable value d.allowable)
    else
      d.validator.complaint? value

end PropertyDescriptor

/-- The value of a property as it is configured, or its default. -/
structure PropertyValue where
  descriptor : PropertyDescriptor
  raw : Option String
  vars : Json

namespace ProcessContext

def empty : ProcessContext := ⟨.empty, .null⟩

def setProperty (c : ProcessContext) (name value : String) : ProcessContext :=
  { c with properties := c.properties.insert name value }

/-- The configured values under names that no descriptor declares, in the order
of the names. -/
def dynamicProperties (c : ProcessContext) (descriptors : List PropertyDescriptor) :
    List (String × String) :=
  c.properties.toList.filter fun p => !descriptors.any (·.name == p.1)

def property (c : ProcessContext) (d : PropertyDescriptor) : PropertyValue :=
  ⟨d, (c.properties.get? d.name).or d.fallback, c.vars⟩

def validate (c : ProcessContext) (descriptors : List PropertyDescriptor) :
    List ValidationResult :=
  descriptors.map (fun d => ⟨d.name, d.complaint? (c.property d).raw⟩) ++
    (c.dynamicProperties descriptors).map fun p =>
      ⟨p.1, Validator.nonEmpty.complaint? p.2⟩

end ProcessContext

namespace PropertyValue

def isSet (v : PropertyValue) : Bool := v.raw.isSome

/-- The value for a unit with the given attributes. Where templates are not
supported it is the configured text. -/
def evaluate (v : PropertyValue) (attributes : Option Attributes) :
    Except LoadError (Option String) :=
  match v.raw with
  | none => .ok none
  | some raw =>
    if v.descriptor.templates then
      (Template.render raw ⟨attributes, v.vars⟩).map some
    else
      .ok (some raw)

def emptyValue : String := "evaluated to an empty value"

/-- The value for a unit, which has to hold something to see. -/
def evaluateRequired (v : PropertyValue) (attributes : Option Attributes) :
    Except LoadError String :=
  match v.evaluate attributes with
  | .error e => .error e
  | .ok none => .error (.missingProperty v.descriptor.name)
  | .ok (some value) =>
    if Text.isBlankText value then .error (.invalidValue v.descriptor.name emptyValue)
    else .ok value

def requiredRaw (v : PropertyValue) : Except LoadError String :=
  match v.raw with
  | some raw => .ok raw
  | none => .error (.missingProperty v.descriptor.name)

/-- The configured text as a value of another kind. -/
def parse {α : Type} (v : PropertyValue) (read : String → Except LoadError α) :
    Except LoadError α :=
  v.requiredRaw.bind read

/-- Reads the configured text, or says what is wrong with it. -/
def convert {α : Type} (v : PropertyValue) (read : String → Option α)
    (complaint : String → String) : Except LoadError α :=
  v.parse fun raw =>
    match read raw with
    | some a => .ok a
    | none => .error (.invalidValue v.descriptor.name (complaint raw))

def asBool (v : PropertyValue) : Except LoadError Bool := v.convert bool? notABool

def asNat32 (v : PropertyValue) : Except LoadError Nat :=
  v.convert nat32? notNonNegative

def asNat64 (v : PropertyValue) : Except LoadError Nat :=
  v.convert nat64? notNonNegative

end PropertyValue

end WarehouseLoader
