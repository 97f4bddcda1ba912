import WarehouseLoader.NameMap

/-!
# Units

A unit is what moves through the pipeline: a payload, attributes, an id that the
host gave it, and whether the host is to wait before it tries again.
-/

namespace WarehouseLoader

abbrev Bytes := List UInt8

structure FlowUnit where
  id : Nat
  content : Bytes
  attributes : Attributes
  penalized : Bool
  deriving DecidableEq

namespace FlowUnit

def new (id : Nat) (content : Bytes) (attributes : Attributes) : FlowUnit :=
  ⟨id, content, attributes, false⟩

def size (u : FlowUnit) : Nat := u.content.length

def attribute? (u : FlowUnit) (name : String) : Option String := u.attributes.get? name

def putAttribute (u : FlowUnit) (name value : String) : FlowUnit :=
  { u with attributes := u.attributes.insert name value }

/-- Sets each of the attributes, over those of the same names. -/
def putAttributes (u : FlowUnit) (attributes : List (String × String)) : FlowUnit :=
  { u with attributes := u.attributes.insertAll attributes }

def removeAttribute (u : FlowUnit) (name : String) : FlowUnit :=
  { u with attributes := u.attributes.erase name }

def penalize (u : FlowUnit) : FlowUnit := { u with penalized := true }

end FlowUnit

/-- Where a processed unit goes. -/
inductive Relationship where
  | success
  | failure
  deriving DecidableEq, Repr, Inhabited

namespace Relationship

def all : List Relationship := [success, failure]

def name : Relationship → String
  | success => "success"
  | failure => "failure"

def description : Relationship → String
  | success => "Units are routed here after a successful load job"
  | failure => "Units are routed here when the upload or the load job fails"

end Relationship

end WarehouseLoader
