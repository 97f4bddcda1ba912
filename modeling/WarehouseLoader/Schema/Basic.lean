/-!
# Table schemas

A schema is an ordered list of columns. A column has a type and a mode, and a
record column has columns of its own. Columns are looked up by their exact name;
the first of that name is taken.
-/

namespace WarehouseLoader

inductive FieldType where
  | boolean
  | string
  | bytes
  | integer
  | float
  | timestamp
  | record
  deriving DecidableEq, Repr, Inhabited

namespace FieldType

def all : List FieldType := [boolean, string, bytes, integer, float, timestamp, record]

/-- The warehouse's own name of the type. -/
def name : FieldType → String
  | boolean => "BOOLEAN"
  | string => "STRING"
  | bytes => "BYTES"
  | integer => "INTEGER"
  | float => "FLOAT"
  | timestamp => "TIMESTAMP"
  | record => "RECORD"

def ofName? (s : String) : Option FieldType := all.find? (·.name == s)

/-- The type that a tag in a schema description stands for. All the tags of
points in time stand for one type. -/
def ofTag? (tag : String) : Option FieldType :=
  if tag = "DATE" ∨ tag = "TIME" ∨ tag = "DATETIME" then some timestamp else ofName? tag

end FieldType

inductive FieldMode where
  | nullable
  | required
  | repeated
  deriving DecidableEq, Repr, Inhabited

namespace FieldMode

def all : List FieldMode := [nullable, required, repeated]

def name : FieldMode → String
  | nullable => "NULLABLE"
  | required => "REQUIRED"
  | repeated => "REPEATED"

def ofTag? (tag : String) : Option FieldMode := all.find? (·.name == tag)

end FieldMode

inductive Field where
  | mk (name : String) (type : FieldType) (mode : FieldMode)
    (fields : Option (List Field))
  deriving Repr, Inhabited

namespace Field

def name : Field → String
  | mk n _ _ _ => n

def type : Field → FieldType
  | mk _ t _ _ => t

def mode : Field → FieldMode
  | mk _ _ m _ => m

def fields : Field → Option (List Field)
  | mk _ _ _ fs => fs

/-- A nullable column without columns of its own. -/
def scalar (name : String) (type : FieldType) : Field := mk name type .nullable none

/-- A nullable record. -/
def record (name : String) (fields : List Field) : Field :=
  mk name .record .nullable (some fields)

def withMode (mode : FieldMode) : Field → Field
  | mk n t _ fs => mk n t mode fs

def subField? (f : Field) (name : String) : Option Field :=
  f.fields.bind (·.find? (·.name == name))

/-- Follows names downwards, from the column itself. -/
def follow? (f : Field) : List String → Option Field
  | [] => some f
  | name :: rest => (f.subField? name).bind (·.follow? rest)

end Field

structure TableSchema where
  fields : List Field
  deriving Repr, Inhabited

namespace TableSchema

def empty : TableSchema := ⟨[]⟩

def size (s : TableSchema) : Nat := s.fields.length

def isEmpty (s : TableSchema) : Bool := s.fields.isEmpty

def field? (s : TableSchema) (name : String) : Option Field :=
  s.fields.find? (·.name == name)

/-- Follows a chain of names from the top. -/
def follow? (s : TableSchema) : List String → Option Field
  | [] => none
  | name :: rest => (s.field? name).bind (·.follow? rest)

end TableSchema

end WarehouseLoader
