import WarehouseLoader.Error
import WarehouseLoader.Json.Document
import WarehouseLoader.Json.Writer
import WarehouseLoader.Schema.Basic
import WarehouseLoader.Text.Lowercase

/-!
# Schema descriptions

A schema is configured as a JSON description: a list of descriptors, or an
object that has the list as its `fields`. The description is walked by hand,
because every complaint names the column it is about by its dotted path.

Descriptors are judged in order, and the first one that is wrong decides the
answer. Within one descriptor the order is name, type, mode, columns. A repeated
name is noticed when its second bearer has been judged in full.
-/

namespace WarehouseLoader

namespace Field

/-- The path of a column below its parent. -/
def path (parent : Option String) (name : String) : String :=
  match parent with
  | some p => s!"{p}.{name}"
  | none => name

/-- A member that has to be a text; `subject` is who is missing it. -/
def requiredText (members : List (String × Json)) (key subject : String) :
    Except LoadError String :=
  match Json.member? members key with
  | some (.text s) => .ok s
  | some _ => .error (.schema s!"'{key}' of {subject} must be a string")
  | none => .error (.schema s!"{subject} is missing required '{key}'")

def requiredType (members : List (String × Json)) (path : String) :
    Except LoadError FieldType := do
  let tag ← requiredText members "type" s!"field '{path}'"
  match FieldType.ofTag? tag with
  | some type => .ok type
  | none => .error (.unknownType path tag)

def requiredMode (members : List (String × Json)) (path : String) :
    Except LoadError FieldMode :=
  match Json.member? members "mode" with
  | some (.text tag) =>
    match FieldMode.ofTag? tag with
    | some mode => .ok mode
    | none => .error (.invalidMode path tag)
  | some other => .error (.invalidMode path other.render)
  | none => .error (.schema s!"field '{path}' is missing required 'mode'")

def notAnObject (parent : Option String) (index : Nat) : LoadError :=
  match parent with
  | some p => .schema s!"field #{index} of '{p}' is not an object"
  | none => .schema s!"field #{index} is not an object"

/-- The head of a descriptor: its name, type and mode. -/
structure Head where
  name : String
  path : String
  type : FieldType
  mode : FieldMode

def Head.ofMembers (members : List (String × Json)) (parent : Option String)
    (index : Nat) : Except LoadError Head := do
  let name ← requiredText members "name" s!"field #{index}"
  if name.isEmpty then
    .error (.schema s!"field #{index} has an empty name")
  else
    let path := Field.path parent name
    let type ← requiredType members path
    let mode ← requiredMode members path
    return ⟨name, path, type, mode⟩

def missingColumns (path : String) : LoadError :=
  .schema s!"RECORD field '{path}' requires a non-empty 'fields' array"

def forbiddenColumns (path : String) (type : FieldType) : LoadError :=
  .schema s!"field '{path}' of type {type.name} cannot declare nested 'fields'"

def duplicate (parent : Option String) (name : String) : LoadError :=
  .schema s!"duplicate field '{path parent name}'"

mutual

/-- The column that a descriptor describes, as number `index` below `parent`. -/
def ofDescriptor (parent : Option String) (index : Nat) : Json → Except LoadError Field
  | .object members =>
    match Head.ofMembers members parent index with
    | .error e => .error e
    | .ok head => do
      let fields ← columnsOf head members
      return .mk head.name head.type head.mode fields
  | _ => .error (notAnObject parent index)

/-- The columns that a descriptor declares: a record has to have some and no
other type may have a list of them. -/
def columnsOf (head : Head) (members : List (String × Json)) :
    Except LoadError (Option (List Field)) :=
  match members with
  | [] => if head.type = .record then .error (missingColumns head.path) else .ok none
  | (key, value) :: rest =>
    if key = "fields" then
      if head.type = .record then
        match value with
        | .array (first :: more) =>
          match ofDescriptors (some head.path) 0 [] (first :: more) with
          | .ok fields => .ok (some fields)
          | .error e => .error e
        | _ => .error (missingColumns head.path)
      else
        .error (forbiddenColumns head.path head.type)
    else
      columnsOf head rest

/-- The columns of a list of descriptors; `seen` holds the lower-case names of
those before. -/
def ofDescriptors (parent : Option String) (index : Nat) (seen : List String) :
    List Json → Except LoadError (List Field)
  | [] => .ok []
  | item :: rest =>
    match ofDescriptor parent index item with
    | .error e => .error e
    | .ok field =>
      let key := Text.lowercase field.name
      if key ∈ seen then
        .error (duplicate parent field.name)
      else
        match ofDescriptors parent (index + 1) (key :: seen) rest with
        | .ok fields => .ok (field :: fields)
        | .error e => .error e

end

end Field

namespace TableSchema

def notADescription : LoadError :=
  .schema "expected an object with a 'fields' array or a bare array of fields"

/-- The schema that a description describes. -/
def ofJson : Json → Except LoadError TableSchema
  | .array items => (Field.ofDescriptors none 0 [] items).map mk
  | .object members =>
    match Json.member? members "fields" with
    | some (.array items) => (Field.ofDescriptors none 0 [] items).map mk
    | some _ => .error (.schema "'fields' must be an array")
    | none => .error notADescription
  | _ => .error notADescription

def ofText (s : String) : Except LoadError TableSchema :=
  match Json.ofText? s with
  | some v => ofJson v
  | none => .error (.schema "not valid JSON")

/-- The schema of an optional description. No description is no schema, which is
not a schema without columns. -/
def configured : Option String → Except LoadError (Option TableSchema)
  | some s => (ofText s).map some
  | none => .ok none

end TableSchema

end WarehouseLoader
