import WarehouseLoader.Error
import WarehouseLoader.Json.Decode
import WarehouseLoader.Json.Writer
import WarehouseLoader.Schema.Basic

/-!
# The wire form of a schema

The warehouse writes a column as an object with its name, type and mode, and
with its columns if it has a list of them. The typed reading takes the wire form
back. It asks for the warehouse's own type names and for nothing else: that
names are not empty or that records have columns is the business of a
description, not of the wire form.
-/

namespace WarehouseLoader

open Json (Reading Document)

mutual

def Field.toJson : Field → Json
  | .mk name type mode fields =>
    .object ([("name", .text name), ("type", .text type.name),
      ("mode", .text mode.name)] ++
      match fields with
      | some fs => [("fields", .array (Field.listToJson fs))]
      | none => [])

def Field.listToJson : List Field → List Json
  | [] => []
  | f :: rest => f.toJson :: Field.listToJson rest

end

def Field.memberNames : List String := ["name", "type", "mode", "fields"]

def Field.read : Reading Field
  | 0, _ => none
  | depth + 1, d => do
    let members ← d.record? Field.memberNames (depth + 1)
    let name ← Reading.required Reading.text depth members "name"
    let type ← Reading.required (Reading.name FieldType.ofName?) depth members "type"
    let mode ← Reading.required (Reading.name FieldMode.ofTag?) depth members "mode"
    match members.lookup "fields" with
    | none | some .null => some (.mk name type mode none)
    | some (.array items) =>
      match depth with
      | 0 => none
      | inner + 1 =>
        (items.mapM (Field.read inner)).map fun fs => .mk name type mode (some fs)
    | some _ => none

namespace TableSchema

def toJson (s : TableSchema) : Json :=
  .object [("fields", .array (Field.listToJson s.fields))]

/-- The schema as text, in the form in which a unit's attributes and the
warehouse carry it. -/
def text (s : TableSchema) : String := s.toJson.render

def read : Reading TableSchema :=
  Reading.record ["fields"] fun depth members =>
    (Reading.required (Reading.list Field.read) depth members "fields").map
      TableSchema.mk

/-- The typed reading of a text. -/
def decode (s : String) : Except LoadError TableSchema :=
  match read.ofText? s with
  | some schema => .ok schema
  | none => .error .json

end TableSchema

end WarehouseLoader
